import CheckWorker.Report.Pattern

/-!
# Ways to match a pattern

Which ways a pattern has is told part by part: a run is cut off the front of a text, a pattern in
two halves matches with the second where the first left off. Which way comes first then depends on
choices only where there are several. A pattern that has at most one way on every text is decided by
a reader, and what follows such a pattern, or follows a run of characters, is matched in one place.
-/

namespace CheckWorker.Report.Pattern

variable {p q : Pattern} {greedy : Bool} {kind : Char → Bool} {name : Part}
  {found : Captures} {text rest : List Char}

/-! ## The ways there are -/

theorem mem_runs : rest ∈ runs greedy kind text ↔
    ∃ run, (∀ c ∈ run, kind c = true) ∧ text = run ++ rest := by
  induction text with
  | nil =>
      constructor
      · intro h
        obtain rfl : rest = [] := by simpa [runs] using h
        exact ⟨[], by simp, rfl⟩
      · rintro ⟨run, -, htext⟩
        have hrest : rest = [] := (List.append_eq_nil_iff.mp htext.symm).2
        simp [runs, hrest]
  | cons c text ih =>
      have hstay : c :: text = rest →
          ∃ run, (∀ c ∈ run, kind c = true) ∧ c :: text = run ++ rest := by
        rintro rfl
        exact ⟨[], by simp, rfl⟩
      cases hc : kind c with
      | false =>
          constructor
          · intro h
            exact hstay (by simpa [runs, hc, eq_comm] using h)
          · rintro ⟨run, hrun, htext⟩
            cases run with
            | nil => simp [runs, hc, htext]
            | cons d run =>
                obtain ⟨rfl, -⟩ := List.cons.inj htext
                have hd := hrun c List.mem_cons_self
                rw [hc] at hd
                cases hd
      | true =>
          have hstep : rest ∈ runs greedy kind (c :: text) ↔
              rest = c :: text ∨ rest ∈ runs greedy kind text := by
            cases greedy <;> simp [runs, hc, or_comm]
          rw [hstep, ih]
          constructor
          · rintro (h | ⟨run, hrun, rfl⟩)
            · exact hstay h.symm
            · exact ⟨c :: run, by simpa [hc] using hrun, rfl⟩
          · rintro ⟨run, hrun, htext⟩
            cases run with
            | nil => exact .inl htext.symm
            | cons d run =>
                obtain ⟨-, rfl⟩ := List.cons.inj htext
                exact .inr ⟨run, fun x hx => hrun x (List.mem_cons_of_mem d hx), rfl⟩

theorem mem_ways_one : (found, rest) ∈ (one kind).ways text ↔
    found = [] ∧ ∃ c, kind c = true ∧ text = c :: rest := by
  cases text with
  | nil => simp [ways]
  | cons c text =>
      cases hc : kind c with
      | false =>
          have hne : ∀ d, kind d = true → c ≠ d := by
            rintro d hd rfl
            rw [hc] at hd
            cases hd
          simp only [ways, hc, Bool.false_eq_true, if_false, List.not_mem_nil, false_iff]
          rintro ⟨-, d, hd, htext⟩
          exact hne d hd (List.cons.inj htext).1
      | true =>
          simp only [ways, hc, if_true, List.mem_singleton, Prod.mk.injEq]
          constructor
          · rintro ⟨rfl, rfl⟩
            exact ⟨rfl, c, hc, rfl⟩
          · rintro ⟨rfl, d, -, htext⟩
            exact ⟨rfl, (List.cons.inj htext).2.symm⟩

theorem mem_ways_literal {c : Char} : (found, rest) ∈ (literal c).ways text ↔
    found = [] ∧ text = c :: rest := by
  simp [literal, mem_ways_one]

theorem mem_ways_many : (found, rest) ∈ (many greedy kind).ways text ↔
    found = [] ∧ ∃ run, (∀ c ∈ run, kind c = true) ∧ text = run ++ rest := by
  simp only [ways, List.mem_map, Prod.mk.injEq, mem_runs]
  constructor
  · rintro ⟨rest, h, rfl, rfl⟩
    exact ⟨rfl, h⟩
  · rintro ⟨rfl, h⟩
    exact ⟨rest, h, rfl, rfl⟩

theorem mem_ways_andThen : (found, rest) ∈ (andThen p q).ways text ↔
    ∃ first middle more,
      (first, middle) ∈ p.ways text ∧ (more, rest) ∈ q.ways middle ∧ found = first ++ more := by
  simp only [ways, List.mem_flatMap, List.mem_map, Prod.mk.injEq, Prod.exists]
  constructor
  · rintro ⟨first, middle, hfirst, more, last, hmore, rfl, rfl⟩
    exact ⟨first, middle, more, hfirst, hmore, rfl⟩
  · rintro ⟨first, middle, more, hfirst, hmore, rfl⟩
    exact ⟨first, middle, hfirst, more, rest, hmore, rfl, rfl⟩

theorem mem_ways_orElse : (found, rest) ∈ (orElse p q).ways text ↔
    (found, rest) ∈ p.ways text ∨ (found, rest) ∈ q.ways text :=
  List.mem_append

theorem mem_ways_part : (found, rest) ∈ (part name p).ways text ↔
    ∃ inner, (inner, rest) ∈ p.ways text ∧
      found = (name, text.take (text.length - rest.length)) :: inner := by
  simp only [ways, List.mem_map, Prod.mk.injEq, Prod.exists]
  constructor
  · rintro ⟨inner, rest, h, rfl, rfl⟩
    exact ⟨inner, h, rfl⟩
  · rintro ⟨inner, h, rfl⟩
    exact ⟨inner, rest, h, rfl, rfl⟩

theorem mem_ways_some : (found, rest) ∈ (some kind).ways text ↔
    found = [] ∧ ∃ run, run ≠ [] ∧ (∀ c ∈ run, kind c = true) ∧ text = run ++ rest := by
  simp only [some, mem_ways_andThen, mem_ways_one, mem_ways_many]
  constructor
  · rintro ⟨_, _, _, ⟨rfl, c, hc, rfl⟩, ⟨rfl, run, hrun, rfl⟩, rfl⟩
    exact ⟨rfl, c :: run, by simp, by simpa [hc] using hrun, rfl⟩
  · rintro ⟨rfl, run, hne, hrun, rfl⟩
    obtain ⟨c, cs, rfl⟩ := List.exists_cons_of_ne_nil hne
    exact ⟨[], cs ++ rest, [], ⟨rfl, c, hrun c List.mem_cons_self, rfl⟩,
      ⟨rfl, cs, fun x hx => hrun x (List.mem_cons_of_mem c hx), rfl⟩, rfl⟩

/-- What a named part holds is what was cut off. -/
theorem take_append_sub (run rest : List Char) :
    (run ++ rest).take ((run ++ rest).length - rest.length) = run := by
  have hlength : (run ++ rest).length - rest.length = run.length := by simp
  rw [hlength, List.take_left]

theorem mem_ways_part_some : (found, rest) ∈ (part name (some kind)).ways text ↔
    ∃ run, run ≠ [] ∧ (∀ c ∈ run, kind c = true) ∧ text = run ++ rest ∧ found = [(name, run)] := by
  simp only [mem_ways_part, mem_ways_some]
  constructor
  · rintro ⟨_, ⟨rfl, run, hne, hrun, rfl⟩, rfl⟩
    exact ⟨run, hne, hrun, rfl, by rw [take_append_sub]⟩
  · rintro ⟨run, hne, hrun, rfl, rfl⟩
    exact ⟨[], ⟨rfl, run, hne, hrun, rfl⟩, by rw [take_append_sub]⟩

theorem mem_ways_inOrder_cons {ps : List Pattern} :
    (found, rest) ∈ (inOrder (p :: ps)).ways text ↔
      (found, rest) ∈ (andThen p (inOrder ps)).ways text := by
  cases ps with
  | nil => simp [inOrder, ways]
  | cons q ps => rfl

/-- A word matches in whatever cases it is written. -/
theorem mem_ways_word {w : String} : (found, rest) ∈ (word w).ways text ↔
    found = [] ∧ ∃ written, written.map Char.toLower = w.toList ∧ text = written ++ rest := by
  unfold word
  induction w.toList generalizing found text with
  | nil =>
      simp only [List.map_nil, inOrder, ways, List.mem_singleton, Prod.mk.injEq,
        List.map_eq_nil_iff]
      constructor
      · rintro ⟨rfl, rfl⟩
        exact ⟨rfl, [], rfl, rfl⟩
      · rintro ⟨rfl, _, rfl, rfl⟩
        exact ⟨rfl, rfl⟩
  | cons x letters ih =>
      rw [List.map_cons, mem_ways_inOrder_cons, mem_ways_andThen]
      constructor
      · rintro ⟨first, middle, more, hfirst, hmore, rfl⟩
        obtain ⟨rfl, c, hc, rfl⟩ := mem_ways_one.mp hfirst
        obtain ⟨rfl, written, rfl, rfl⟩ := ih.mp hmore
        have hx : c.toLower = x := by simpa using hc
        exact ⟨rfl, c :: written, by rw [List.map_cons, hx], rfl⟩
      · rintro ⟨rfl, written, hwritten, rfl⟩
        cases written with
        | nil => cases hwritten
        | cons c written =>
            obtain ⟨hc, hletters⟩ := List.cons.inj hwritten
            exact ⟨[], written ++ rest, [], mem_ways_one.mpr ⟨rfl, c, by simpa using hc, rfl⟩,
              ih.mpr ⟨rfl, written, hletters, rfl⟩, rfl⟩

/-! ## The first way -/

theorem first?_eq_none_iff : p.first? text = none ↔ p.ways text = [] := by
  simp [first?]

theorem first?_andThen : (andThen p q).first? text =
    (p.ways text).findSome? fun (found, rest) => (q.first? rest).map (found ++ ·) := by
  rw [first?, ways, List.head?_flatMap, List.map_findSome?]
  congr 1
  funext ⟨found, rest⟩
  simp [first?, List.head?_map, Function.comp_def]

theorem first?_maybe_andThen : (andThen (maybe p) q).first? text =
    ((andThen p q).first? text).or (q.first? text) := by
  rw [first?_andThen, first?_andThen, maybe, ways, List.findSome?_append]
  simp [ways]

/-- A pattern has the way that a reader finds and no other. -/
def ReadBy (p : Pattern) (read : List Char → Option (Captures × List Char)) : Prop :=
  ∀ text found rest, (found, rest) ∈ p.ways text ↔ read text = Option.some (found, rest)

theorem ReadBy.findSome?_ways {α : Type} {read : List Char → Option (Captures × List Char)}
    (h : ReadBy p read) (f : Captures × List Char → Option α) :
    (p.ways text).findSome? f = (read text).bind f := by
  cases hread : read text with
  | none =>
      have hways : p.ways text = [] := by
        rw [List.eq_nil_iff_forall_not_mem]
        rintro ⟨found, rest⟩ hmem
        rw [h, hread] at hmem
        cases hmem
      rw [hways]
      rfl
  | some way =>
      -- Every way is the one that was read, so the first to be tried is, and so are all others.
      have hall : ∀ other ∈ p.ways text, other = way := by
        rintro ⟨found, rest⟩ hmem
        rw [h, hread] at hmem
        exact (Option.some.inj hmem).symm
      have hmem : way ∈ p.ways text := (h text way.1 way.2).mpr hread
      cases hways : p.ways text with
      | nil =>
          rw [hways] at hmem
          cases hmem
      | cons first others =>
          rw [hways] at hall
          obtain rfl : first = way := hall first List.mem_cons_self
          rw [List.findSome?_cons, Option.bind_some]
          cases hf : f first with
          | some result => rfl
          | none =>
              refine List.findSome?_eq_none_iff.mpr fun other hother => ?_
              rw [hall other (List.mem_cons_of_mem first hother)]
              exact hf

theorem ReadBy.first?_eq {read : List Char → Option (Captures × List Char)}
    (h : ReadBy p read) : p.first? text = (read text).map Prod.fst := by
  have hhead : p.first? text = (p.ways text).findSome? fun way => Option.some way.1 := by
    rw [first?]
    cases p.ways text <;> rfl
  rw [hhead, h.findSome?_ways]
  cases read text <;> rfl

theorem ReadBy.first?_andThen {read : List Char → Option (Captures × List Char)}
    (h : ReadBy p read) : (andThen p q).first? text =
      (read text).bind fun (found, rest) => (q.first? rest).map (found ++ ·) := by
  rw [Pattern.first?_andThen, h.findSome?_ways]

/-- As many characters as possible are taken if taking fewer would not help. -/
theorem first?_greedy_andThen
    (h : q.first? (text.dropWhile kind) = none →
      ∀ run, (∀ c ∈ run, kind c = true) → q.first? (run ++ text.dropWhile kind) = none) :
    (andThen (many true kind) q).first? text = q.first? (text.dropWhile kind) := by
  have hfirst : ∃ others, runs true kind text = text.dropWhile kind :: others := by
    clear h
    induction text with
    | nil => exact ⟨[], rfl⟩
    | cons c text ih =>
        cases hc : kind c with
        | false => exact ⟨[], by simp [runs, hc]⟩
        | true =>
            obtain ⟨others, hothers⟩ := ih
            exact ⟨others ++ [c :: text], by simp [runs, hc, hothers]⟩
  have hmap (l : List (List Char)) : (l.map fun rest => (([] : Captures), rest)).findSome?
      (fun (found, rest) => (q.first? rest).map (found ++ ·)) = l.findSome? q.first? := by
    simp [List.findSome?_map, Function.comp_def]
  rw [first?_andThen, ways, hmap]
  cases hq : q.first? (text.dropWhile kind) with
  | some result =>
      obtain ⟨others, hothers⟩ := hfirst
      rw [hothers, List.findSome?_cons, hq]
  | none =>
      refine List.findSome?_eq_none_iff.mpr fun rest hrest => ?_
      obtain ⟨run, hrun, htext⟩ := mem_runs.mp hrest
      -- What is left after fewer characters goes on with the others of the run.
      have hleft : rest = rest.takeWhile kind ++ text.dropWhile kind := by
        rw [htext, List.dropWhile_append_of_pos hrun, List.takeWhile_append_dropWhile]
      rw [hleft]
      exact h hq _ (List.all_eq_true.mp List.all_takeWhile)

/-- Of the lazy runs the shortest is taken after which something is found. -/
theorem findSome?_runs_eq_some {α : Type} {f : List Char → Option α} {a : α} {run : List Char}
    (rest : List Char) (hrun : ∀ c ∈ run, kind c = true) (hf : f rest = Option.some a)
    (hshort : ∀ shorter left, run ++ rest = shorter ++ left → shorter.length < run.length →
      f left = none) :
    (runs false kind (run ++ rest)).findSome? f = Option.some a := by
  induction run with
  | nil =>
      have hfirst : ∃ others, runs false kind rest = rest :: others := by
        cases rest with
        | nil => exact ⟨[], rfl⟩
        | cons c rest =>
            cases hc : kind c with
            | false => exact ⟨[], by simp [runs, hc]⟩
            | true => exact ⟨runs false kind rest, by simp [runs, hc]⟩
      obtain ⟨others, hothers⟩ := hfirst
      rw [List.nil_append, hothers, List.findSome?_cons, hf]
  | cons c run ih =>
      have hc : kind c = true := hrun c List.mem_cons_self
      have hnone : f (c :: run ++ rest) = none := hshort [] _ rfl (by simp)
      have hruns : runs false kind (c :: run ++ rest) =
          (c :: run ++ rest) :: runs false kind (run ++ rest) := by
        simp [runs, hc]
      rw [hruns, List.findSome?_cons, hnone]
      refine ih (fun x hx => hrun x (List.mem_cons_of_mem c hx)) fun shorter left heq hlt => ?_
      exact hshort (c :: shorter) left (by rw [List.cons_append, heq, List.cons_append])
        (by simpa using hlt)

end CheckWorker.Report.Pattern
