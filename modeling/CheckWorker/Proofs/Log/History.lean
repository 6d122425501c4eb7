import CheckWorker.Proofs.Log.Rotation
import Mathlib.Data.List.Basic

/-!
# The history of a log

The contents of the files of a log, from the highest number down to the current one, are the end of
all that was there at the first opening and was written since. Each write that is still held lies in
one file. Bytes are given up only with a whole file, the oldest, and only by a rotation that finds
every number taken.
-/

namespace CheckWorker

namespace LogSite

variable {site : LogSite} {t t' : FileTree}

/-- The contents of the files that are there, the oldest first. -/
def files (site : LogSite) (t : FileTree) : List (List UInt8) :=
  (List.range site.slots).reverse.filterMap (site.content? t)

def history (site : LogSite) (t : FileTree) : List UInt8 :=
  (site.files t).flatten

/-- Of the files that were set aside none is missing below one that is there. -/
def Contiguous (site : LogSite) (t : FileTree) : Prop :=
  ∀ i, 0 < i → i + 1 < site.slots → (site.content? t (i + 1)).isSome → (site.content? t i).isSome

/-- The oldest file has been given up by a rotation that found every number taken. -/
structure GivesUpOldest (site : LogSite) (before after : FileTree) (bytes : List UInt8) : Prop where
  full : ∀ i, 0 < i → i < site.slots → (site.content? before i).isSome
  turned : ∀ i, i + 1 < site.slots → site.content? after (i + 1) = site.content? before i
  given : ∃ oldest rest, site.content? before (site.slots - 1) = some oldest ∧
    site.history before = oldest ++ rest ∧ site.history after = rest ++ bytes

/-- Bytes have been added to the history, and at most the oldest file has been given up. -/
def Advances (site : LogSite) (before after : FileTree) (bytes : List UInt8) : Prop :=
  site.history after = site.history before ++ bytes ∨ site.GivesUpOldest before after bytes

/-- What is kept of the history after some uses. -/
structure KeepsHistory (site : LogSite) (files : FileTree) (uses : List LogUse)
    (s : RotatingLog × FileTree) : Prop where
  contiguous : site.Contiguous s.2
  suffix : site.history s.2 <:+
    site.history (site.prepared files) ++ (uses.flatMap LogUse.writes).flatten
  /-- What was there and what was written is given up or held piece by piece, none in two files. -/
  whole : ∃ (given : List (List UInt8)) (shelf : List (List (List UInt8))),
    given ++ shelf.reverse.flatten =
        site.files (site.prepared files) ++ uses.flatMap LogUse.writes ∧
      ∀ i < site.slots, site.content? s.2 i = shelf[i]?.map List.flatten
  opening : ∀ s₀, site.start files = .ok s₀ → site.Advances (site.prepared files) s₀.2 []
  next : ∀ u s', site.use s u = .ok s' → site.Advances s.2 s'.2 u.writes.flatten

/-! ## Files on a shelf -/

theorem filterMap_range_eq_take {α : Type} {d : Nat → Option α} {l : List α} {n : Nat}
    (h : ∀ i < n, d i = l[i]?) : (List.range n).filterMap d = l.take n := by
  induction n with
  | zero => rfl
  | succ n ih =>
      have hn := h n (Nat.lt_succ_self n)
      rw [List.range_succ, List.filterMap_append, ih fun i hi => h i (Nat.lt_succ_of_lt hi),
        List.take_add_one, ← hn]
      cases hd : d n <;> simp [hd]

/-- A family without gaps is a list. -/
theorem exists_eq_getElem? {α : Type} {d : Nat → Option α} {n : Nat}
    (h : ∀ i, i + 1 < n → (d (i + 1)).isSome → (d i).isSome) :
    ∃ l : List α, l.length ≤ n ∧ ∀ i < n, d i = l[i]? := by
  induction n with
  | zero => exact ⟨[], Nat.le_refl 0, fun i hi => absurd hi (Nat.not_lt_zero i)⟩
  | succ n ih =>
      obtain ⟨l, hlength, hl⟩ := ih fun i hi => h i (Nat.lt_succ_of_lt hi)
      cases hn : d n with
      | none =>
          refine ⟨l, Nat.le_succ_of_le hlength, fun i hi => ?_⟩
          rcases Nat.lt_succ_iff_lt_or_eq.mp hi with hlt | rfl
          · exact hl i hlt
          · rw [hn, List.getElem?_eq_none hlength]
      | some x =>
          -- below one that is there, all are
          have hall (k i : Nat) (hi : i + k = n) : (d i).isSome := by
            induction k generalizing i with
            | zero => simp_all
            | succ k ihk => exact h i (by omega) (ihk (i + 1) (by omega))
          have hfull : l.length = n := by
            refine Nat.le_antisymm hlength (Nat.le_of_not_lt fun hlt => ?_)
            have hsome := hall (n - l.length) l.length (by omega)
            rw [hl _ hlt, List.getElem?_eq_none (Nat.le_refl _)] at hsome
            cases hsome
          refine ⟨l ++ [x], by simp [hfull], fun i hi => ?_⟩
          rcases Nat.lt_succ_iff_lt_or_eq.mp hi with hlt | rfl
          · rw [List.getElem?_append_left (by omega), hl i hlt]
          · rw [hn, ← hfull, List.getElem?_concat_length]

/-- The files hold some pieces each, one after another: the current file, which may be missing while
it holds none, and those that were set aside, the newest first. -/
structure Shelved (site : LogSite) (contents : Nat → Option (List UInt8))
    (current : List (List UInt8)) (older : List (List (List UInt8))) : Prop where
  current_eq : (contents 0).getD [] = current.flatten
  older_eq : ∀ i, i + 1 < site.slots → contents (i + 1) = older[i]?.map List.flatten
  length_lt : older.length < site.slots

variable {contents : Nat → Option (List UInt8)} {current w : List (List UInt8)}
  {older : List (List (List UInt8))}

theorem files_eq (site : LogSite) (t : FileTree) :
    site.files t = ((List.range (site.slots - 1)).filterMap
      fun i => site.content? t (i + 1)).reverse ++ (site.content? t 0).toList := by
  obtain ⟨n, hn⟩ := Nat.exists_eq_add_of_lt site.slots_pos
  have hslots : site.slots = n + 1 := by omega
  rw [files, hslots, Nat.add_sub_cancel, List.filterMap_reverse, List.range_succ_eq_map,
    List.filterMap_cons, List.filterMap_map]
  cases site.content? t 0 <;> simp

namespace Shelved

theorem files_eq (h : site.Shelved (site.content? t) current older) :
    site.files t = (older.map List.flatten).reverse ++ (site.content? t 0).toList := by
  have hlength : (older.map List.flatten).length ≤ site.slots - 1 := by
    rw [List.length_map]
    exact Nat.le_sub_one_of_lt h.length_lt
  have holder : (List.range (site.slots - 1)).filterMap (fun i => site.content? t (i + 1)) =
      older.map List.flatten := by
    rw [filterMap_range_eq_take fun i hi => ?_, List.take_of_length_le hlength]
    rw [List.getElem?_map, h.older_eq i (Nat.add_lt_of_lt_sub hi)]
  rw [LogSite.files_eq, holder]

theorem history_eq (h : site.Shelved (site.content? t) current older) :
    site.history t = (current :: older).reverse.flatten.flatten := by
  have hcurrent : (site.content? t 0).toList.flatten = current.flatten := by
    rw [← h.current_eq]
    cases site.content? t 0 <;> simp
  rw [history, h.files_eq, List.flatten_append, hcurrent, ← List.map_reverse,
    ← List.flatten_flatten, List.reverse_cons, List.flatten_concat, List.flatten_append]

/-- Once there is a current file, the files and the shelf are the same list. -/
theorem content_eq (h : site.Shelved contents current older) (hthere : (contents 0).isSome)
    {i : Nat} (hi : i < site.slots) : contents i = (current :: older)[i]?.map List.flatten := by
  cases i with
  | zero =>
      obtain ⟨bytes, hbytes⟩ := Option.isSome_iff_exists.mp hthere
      have hcurrent := h.current_eq
      rw [hbytes, Option.getD_some] at hcurrent
      simp [hbytes, hcurrent]
  | succ i => simpa using h.older_eq i hi

/-- The current file has grown. -/
theorem grow (h : site.Shelved contents current older) (hdue : ¬ site.Due contents w.flatten) :
    site.Shelved (site.added contents w.flatten) (current ++ w) older := by
  rw [added, if_neg hdue]
  refine ⟨?_, fun i hi => ?_, h.length_lt⟩
  · rw [Function.update_self, h.current_eq, Option.getD_some, List.flatten_append]
  · rw [Function.update_of_ne i.succ_ne_zero, h.older_eq i hi]

theorem isSome_of_due (hdue : site.Due contents w.flatten) : (contents 0).isSome := by
  cases hnone : contents 0 with
  | none => simp [Due, hnone] at hdue
  | some bytes => rfl

/-- The current file has been set aside, and one beyond the last number has been given up. -/
theorem turn (h : site.Shelved contents current older) (hdue : site.Due contents w.flatten) :
    site.Shelved (site.added contents w.flatten) w ((current :: older).take (site.slots - 1)) := by
  have hpos := site.slots_pos
  rw [added, if_pos hdue]
  refine ⟨?_, fun i hi => ?_, ?_⟩
  · rw [Function.update_self, Option.getD_some]
  · rw [Function.update_of_ne i.succ_ne_zero, turned, if_pos hi,
      h.content_eq (isSome_of_due hdue) (Nat.lt_of_succ_lt hi), List.getElem?_take_of_lt (by omega)]
  · rw [List.length_take]
    omega

/-- What is added joins the pieces that are held, and what is no longer held was the oldest. -/
theorem add (h : site.Shelved contents current older) (w : List (List UInt8)) :
    ∃ given current' older', site.Shelved (site.added contents w.flatten) current' older' ∧
      given ++ (current' :: older').reverse.flatten = (current :: older).reverse.flatten ++ w := by
  by_cases hdue : site.Due contents w.flatten
  · refine ⟨((current :: older).drop (site.slots - 1)).reverse.flatten, _, _, h.turn hdue, ?_⟩
    rw [List.reverse_cons, List.flatten_concat, ← List.append_assoc, ← List.flatten_append,
      ← List.reverse_append, List.take_append_drop]
  · refine ⟨[], _, _, h.grow hdue, ?_⟩
    simp

theorem contiguous (h : site.Shelved (site.content? t) current older) : site.Contiguous t := by
  intro i hi hlast hsome
  obtain ⟨i, rfl⟩ := Nat.exists_eq_add_one.mpr hi
  rw [h.older_eq (i + 1) hlast, Option.isSome_map] at hsome
  rw [h.older_eq i (Nat.lt_of_succ_lt hlast), Option.isSome_map]
  simp only [isSome_getElem?] at hsome ⊢
  omega

theorem advances (h : site.Shelved (site.content? t) current older)
    (hadded : site.content? t' = site.added (site.content? t) w.flatten) :
    site.Advances t t' w.flatten := by
  by_cases hdue : site.Due (site.content? t) w.flatten
  · have hturn := h.turn hdue
    rw [← hadded] at hturn
    by_cases hroom : (current :: older).length < site.slots
    · refine .inl ?_
      rw [h.history_eq, hturn.history_eq, List.take_of_length_le (Nat.le_sub_one_of_lt hroom)]
      simp
    · have hfull : (current :: older).length = site.slots :=
        Nat.le_antisymm h.length_lt (Nat.le_of_not_lt hroom)
      obtain ⟨front, oldest, hshelf⟩ : ∃ front oldest, current :: older = front ++ [oldest] :=
        ⟨_, _, (List.dropLast_append_getLast (List.cons_ne_nil _ _)).symm⟩
      have hcontent {i : Nat} (hi : i < site.slots) :
          site.content? t i = (front ++ [oldest])[i]?.map List.flatten := by
        rw [h.content_eq (isSome_of_due hdue) hi, hshelf]
      have hfront : site.slots - 1 = front.length := by
        rw [← hfull, hshelf, List.length_append]
        rfl
      rw [hshelf, hfront, List.take_left] at hturn
      refine .inr ⟨fun i _ hi => ?_, fun i hi => ?_, oldest.flatten, front.reverse.flatten.flatten,
        ?_, ?_, ?_⟩
      · rw [hcontent hi, Option.isSome_map, ← hshelf, isSome_getElem?, hfull]
        exact hi
      · rw [hadded, added, if_pos hdue, Function.update_of_ne i.succ_ne_zero, turned, if_pos hi]
      · rw [hcontent (Nat.sub_one_lt_of_lt site.slots_pos), hfront, List.getElem?_concat_length]
        rfl
      · rw [h.history_eq, hshelf]
        simp
      · rw [hturn.history_eq]
        simp
  · have hgrow := h.grow hdue
    rw [← hadded] at hgrow
    refine .inl ?_
    rw [h.history_eq, hgrow.history_eq]
    simp

end Shelved

theorem shelved_of_contiguous (h : site.Contiguous t) :
    ∃ current older, site.Shelved (site.content? t) current older ∧
      (current :: older).reverse.flatten = site.files t := by
  obtain ⟨rest, hlength, hrest⟩ := exists_eq_getElem? (n := site.slots - 1)
    (d := fun i => site.content? t (i + 1))
    fun i hi hsome => h (i + 1) i.succ_pos (by omega) hsome
  have hshelved :
      site.Shelved (site.content? t) (site.content? t 0).toList (rest.map fun x => [x]) := by
    refine ⟨?_, fun i hi => ?_, ?_⟩
    · cases site.content? t 0 <;> simp
    · have hcontent : site.content? t (i + 1) = rest[i]? := hrest i (by omega)
      rw [hcontent, List.getElem?_map]
      cases rest[i]? <;> simp
    · have hpos := site.slots_pos
      rw [List.length_map]
      omega
  refine ⟨_, _, hshelved, ?_⟩
  have hpieces : (rest.reverse.map fun x => [x]).flatten = rest.reverse := by
    rw [← List.flatMap_def, List.flatMap_singleton']
  rw [hshelved.files_eq]
  simp [Function.comp_def, ← List.map_reverse, hpieces]

/-! ## Any number of uses -/

/-- What has been given up and what is held, together, are what was there and what was written. -/
theorem shelved_run {files : FileTree} {uses : List LogUse} {s : RotatingLog × FileTree}
    (hcontiguous : site.Contiguous (site.prepared files)) (hok : site.run files uses = .ok s) :
    site.Tracks s.1 s.2 ∧ ∃ given current older,
      site.Shelved (site.content? s.2) current older ∧
        given ++ (current :: older).reverse.flatten =
          site.files (site.prepared files) ++ uses.flatMap LogUse.writes := by
  obtain ⟨first, firsts, hfirst, hfiles⟩ := shelved_of_contiguous hcontiguous
  refine run_induction (motive := fun uses s => ∃ given current older,
    site.Shelved (site.content? s.2) current older ∧
      given ++ (current :: older).reverse.flatten =
        site.files (site.prepared files) ++ uses.flatMap LogUse.writes) ?_ ?_ hok
  · intro s hstart _
    obtain ⟨given, current, older, hshelved, hpieces⟩ := hfirst.add []
    refine ⟨given, current, older, ?_, ?_⟩
    · rw [(becomes_opening hstart).2.content]
      exact hshelved
    · rw [hpieces, hfiles]
      rfl
  · rintro uses s u s' ⟨given, current, older, hshelved, hpieces⟩ htracks huse
    obtain ⟨more, current', older', hshelved', hpieces'⟩ := hshelved.add u.writes
    refine ⟨given ++ more, current', older', ?_, ?_⟩
    · rw [(becomes_use htracks huse).2.content]
      exact hshelved'
    · rw [List.append_assoc, hpieces', ← List.append_assoc, hpieces, List.append_assoc,
        List.flatMap_append, List.flatMap_singleton]

/-- The history is kept by every run in which no file operation fails. -/
theorem keepsHistory_run (site : LogSite) (files : FileTree) (uses : List LogUse)
    (hcontiguous : site.Contiguous (site.prepared files))
    (hfiles : ∀ fault, site.run files uses ≠ .error (.file fault)) :
    ∃ s, site.run files uses = .ok s ∧ site.KeepsHistory files uses s := by
  obtain ⟨s, hok⟩ := exists_run hfiles
  refine ⟨s, hok, ?_⟩
  obtain ⟨htracks, given, current, older, hshelved, hpieces⟩ := shelved_run hcontiguous hok
  have hthere : (site.content? s.2 0).isSome := by
    obtain ⟨bytes, hbytes, -⟩ := htracks.current
    rw [hbytes]
    rfl
  refine ⟨hshelved.contiguous, ?_, ?_, ?_, ?_⟩
  · refine ⟨given.flatten, ?_⟩
    rw [hshelved.history_eq, ← List.flatten_append, hpieces, List.flatten_append]
    rfl
  · exact ⟨given, current :: older, hpieces, fun i hi => hshelved.content_eq hthere hi⟩
  · intro s₀ hstart
    obtain ⟨first, firsts, hfirst, -⟩ := shelved_of_contiguous hcontiguous
    exact hfirst.advances (w := []) (becomes_opening hstart).2.content
  · intro u s' huse
    exact hshelved.advances (becomes_use htracks huse).2.content

/-- A file is given up, and the log is opened again in between. -/
theorem keepsHistory_of_three_files :
    let site : LogSite := ⟨⟨"/l"⟩, "a", 3, 4⟩
    let files : FileTree :=
      ⟨[], [(["l"], .directory), (["a.log.1", "l"], .file "old".toUTF8)]⟩
    let uses := [LogUse.write "abc".toUTF8, .write "de".toUTF8, .reopen, .write "fgh".toUTF8]
    site.Contiguous (site.prepared files) ∧
      (∀ fault, site.run files uses ≠ .error (.file fault)) ∧
        ∃ s, site.run files uses = .ok s ∧ site.KeepsHistory files uses s := by
  intro site files uses
  have hcontiguous : site.Contiguous (site.prepared files) := by
    intro i hi hlast _
    obtain rfl : i = 1 := Nat.le_antisymm (Nat.le_of_lt_succ (Nat.lt_of_succ_lt_succ hlast)) hi
    decide +kernel
  have hfiles : ∀ fault, site.run files uses ≠ .error (.file fault) := by
    intro fault hfail
    have hok : (site.run files uses).toOption.isSome = true := by decide +kernel
    rw [hfail] at hok
    cases hok
  exact ⟨hcontiguous, hfiles, keepsHistory_run site files uses hcontiguous hfiles⟩

end LogSite

end CheckWorker
