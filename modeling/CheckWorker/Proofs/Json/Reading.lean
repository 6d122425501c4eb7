import CheckWorker.Proofs.Json.Document

/-!
# Reading documents

Reading the items between two brackets is folding over the written items, whatever is made of them:
this describes the loops over arrays and over objects for every reader. From it follows that every
document is read, as the value that it spells.
-/

namespace CheckWorker.Json

/-! ## Scalars -/

theorem readScalar_number {m : Numeral} {n : Number} {rest : List Char} (h : m.number? = some n)
    (hrest : Ends rest) : readScalar (m.text ++ rest) = .ok (.number n, rest) := by
  have hn : takeNumber m.negative (m.unsigned ++ rest) = .ok (n, rest) := by
    rw [← toOption_eq_some_iff, toOption_takeNumber m hrest, h]
    rfl
  obtain ⟨c, text, htext, hc⟩ := m.unsigned_eq
  rw [Numeral.text]
  cases hneg : m.negative with
  | true =>
      rw [hneg] at hn
      simp [readScalar, hn, Except.map]
  | false =>
      rw [hneg, htext, List.cons_append] at hn
      simp [readScalar, htext, ne_of_isDigit hc, hc, hn, Except.map]

theorem readScalar_of_scalar {v : Value} {text rest : List Char} (h : Scalar v text rest)
    (hrest : Ends rest) : readScalar text = .ok (v, rest) := by
  cases h with
  | null => rfl
  | yes => rfl
  | no => rfl
  | number hn => exact readScalar_number hn hrest
  | text hs =>
      cases hs with
      | mk hchars => simp [readScalar, takeText_of_chars hchars, Except.map]

/-! ## The loops over items -/

theorem takeColon_of_gap {text behind : List Char} (h : Gap text (':' :: behind)) :
    takeColon text = .ok behind := by
  have hskip : skipSpace text = ':' :: behind := h.skipSpace_cons (by decide)
  simp [takeColon, hskip]

theorem Keyed.takeColon_eq {P : Value → List Char → List Char → Prop} {v : Value}
    {text rest : List Char} (h : Keyed P v text rest) :
    ∃ behind core, takeColon text = .ok behind ∧ Gap behind core ∧ P v core rest := by
  cases h with
  | mk hcolon hgap hv => exact ⟨_, _, takeColon_of_gap hcolon, hgap, hv⟩

section

variable {α : Type} {P : α → List Char → List Char → Prop} {first : Bool} {a : α} {as : List α}
  {text rest : List Char}

theorem nextItem_of_nil (h : Items ']' P first [] text rest) :
    nextItem first text = .ok (false, rest) := by
  cases h with
  | done hgap =>
      have hskip := hgap.skipSpace_cons (by decide)
      simp [nextItem, hskip]

/-- Where there is a further item the reader goes to its first character. -/
theorem nextItem_of_cons (hstarts : ∀ {a text rest}, P a text rest → Starts text)
    (h : Items ']' P first (a :: as) text rest) :
    ∃ core more, nextItem first text = .ok (true, core) ∧ P a core more ∧
      Items ']' P false as more rest := by
  cases h with
  | @first _ _ _ core more _ hgap ha hmore =>
      have hskip := hgap.skipSpace_of_starts (hstarts ha)
      obtain ⟨c, chars, rfl, -, -, hc, -⟩ := hstarts ha
      exact ⟨c :: chars, more, by simp [nextItem, hskip, hc], ha, hmore⟩
  | @next _ _ _ behind core more _ hcomma hgap ha hmore =>
      have hskip := hcomma.skipSpace_cons (by decide)
      have hbehind := hgap.skipSpace_of_starts (hstarts ha)
      obtain ⟨c, chars, rfl, -, -, hc, -⟩ := hstarts ha
      exact ⟨c :: chars, more, by simp [nextItem, hskip, hbehind, hc], ha, hmore⟩

/-- Reading written items one after another is folding over the items, if each step reads its item
and leaves what is behind. -/
theorem toOption_foldItems {σ : Type} {step : σ → Reader σ} (next : σ → α → Option σ)
    (hstarts : ∀ {a text rest}, P a text rest → Starts text)
    (hstep : ∀ {a text rest}, P a text rest → Ends rest →
      ∀ s, (step s text).toOption = (next s a).map fun s => (s, rest))
    (h : Items ']' P first as text rest) {rounds : List Char}
    (hrounds : as.length < rounds.length) (s : σ) :
    (foldItems step rounds first s text).toOption =
      (as.foldlM next s).map fun s => (s, rest) := by
  induction as generalizing first text rounds s with
  | nil =>
      obtain ⟨_, rounds, rfl⟩ := List.exists_cons_of_length_pos hrounds
      simp [foldItems, nextItem_of_nil h, bind, Except.bind, pure, Except.pure]
  | cons a as ih =>
      obtain ⟨r, rounds, rfl⟩ := List.exists_cons_of_length_pos (Nat.zero_lt_of_lt hrounds)
      obtain ⟨core, more, hnext, ha, hmore⟩ := nextItem_of_cons hstarts h
      have hround : foldItems step (r :: rounds) first s text =
          step s core >>= fun read => foldItems step rounds false read.1 read.2 := by
        rw [foldItems, hnext]
        rfl
      rw [hround, toOption_bind, hstep ha (hmore.ends (.inl rfl)), List.foldlM_cons]
      cases next s a with
      | none => rfl
      | some s => exact ih hmore (Nat.lt_of_succ_lt_succ hrounds) s

end

section

variable {α : Type} {P B : α → List Char → List Char → Prop} {key : α → String}
  {first : Bool} {a : α} {as : List α} {text rest : List Char}

theorem nextKey_of_nil (h : Items '}' P first [] text rest) :
    nextKey first text = .ok (none, rest) := by
  cases h with
  | done hgap =>
      have hskip := hgap.skipSpace_cons (by decide)
      simp [nextKey, hskip]

/-- Where there is a further item, its key is taken. -/
theorem nextKey_of_item
    (hkey : ∀ {a text rest}, P a text rest →
      ∃ colon, Quoted (key a) text colon ∧ B a colon rest)
    (h : Items '}' P first (a :: as) text rest) :
    ∃ colon more, nextKey first text = .ok (some (key a), colon) ∧ B a colon more ∧
      Items '}' P false as more rest := by
  cases h with
  | first hgap ha hmore =>
      obtain ⟨colon, hk, hbehind⟩ := hkey ha
      obtain ⟨chars, rfl, hchars⟩ := hk.exists_chars
      have hskip := hgap.skipSpace_cons (by decide)
      exact ⟨_, _, by simp [nextKey, hskip, takeText_of_chars hchars, Except.map], hbehind, hmore⟩
  | next hcomma hgap ha hmore =>
      obtain ⟨colon, hk, hbehind⟩ := hkey ha
      obtain ⟨chars, rfl, hchars⟩ := hk.exists_chars
      have hskip := hcomma.skipSpace_cons (by decide)
      have hnext := hgap.skipSpace_cons (by decide)
      exact ⟨_, _, by simp [nextKey, hskip, hnext, takeText_of_chars hchars, Except.map], hbehind,
        hmore⟩

/-- Reading written items with keys one after another is folding over them, if each step reads what
belongs to its key and leaves what is behind. -/
theorem toOption_foldKeys {σ : Type} {step : String → σ → Reader σ} (next : σ → α → Option σ)
    (hkey : ∀ {a text rest}, P a text rest →
      ∃ colon, Quoted (key a) text colon ∧ B a colon rest)
    (hstep : ∀ {a colon rest}, a ∈ as → B a colon rest → Ends rest →
      ∀ s, (step (key a) s colon).toOption = (next s a).map fun s => (s, rest))
    (h : Items '}' P first as text rest) {rounds : List Char}
    (hrounds : as.length < rounds.length) (s : σ) :
    (foldEntries step rounds first s text).toOption =
      (as.foldlM next s).map fun s => (s, rest) := by
  induction as generalizing first text rounds s with
  | nil =>
      obtain ⟨_, rounds, rfl⟩ := List.exists_cons_of_length_pos hrounds
      simp [foldEntries, nextKey_of_nil h, bind, Except.bind, pure, Except.pure]
  | cons a as ih =>
      obtain ⟨r, rounds, rfl⟩ := List.exists_cons_of_length_pos (Nat.zero_lt_of_lt hrounds)
      obtain ⟨colon, more, hnext, hbehind, hmore⟩ := nextKey_of_item (P := P) hkey h
      have hround : foldEntries step (r :: rounds) first s text =
          step (key a) s colon >>= fun read => foldEntries step rounds false read.1 read.2 := by
        rw [foldEntries, hnext]
        rfl
      rw [hround, toOption_bind,
        hstep (List.mem_cons_self ..) hbehind (hmore.ends (.inr rfl)), List.foldlM_cons]
      cases next s a with
      | none => rfl
      | some s =>
          exact ih (fun hmem => hstep (List.mem_cons_of_mem _ hmem)) hmore
            (Nat.lt_of_succ_lt_succ hrounds) s

end

section

variable {P : Value → List Char → List Char → Prop} {first : Bool} {k : String} {v : Value}
  {entries : List (String × Value)} {text rest : List Char}

theorem Entry.exists_keyed {e : String × Value} (h : Entry P e text rest) :
    ∃ colon, Quoted e.1 text colon ∧ Keyed P e.2 colon rest := by
  cases h with
  | mk hk hv => exact ⟨_, hk, hv⟩

/-- Where there is a further entry its key is taken. -/
theorem nextKey_of_cons (h : Items '}' (Entry P) first ((k, v) :: entries) text rest) :
    ∃ colon more, nextKey first text = .ok (some k, colon) ∧ Keyed P v colon more ∧
      Items '}' (Entry P) false entries more rest :=
  nextKey_of_item (P := Entry P) (B := fun e => Keyed P e.2) Entry.exists_keyed h

/-- Reading written entries one after another is folding over them, if each step reads what belongs
to its key and leaves what is behind. -/
theorem toOption_foldEntries {σ : Type} {step : String → σ → Reader σ}
    (next : σ → String × Value → Option σ)
    (hstep : ∀ {k v colon rest}, (k, v) ∈ entries → Keyed P v colon rest → Ends rest →
      ∀ s, (step k s colon).toOption = (next s (k, v)).map fun s => (s, rest))
    (h : Items '}' (Entry P) first entries text rest) {rounds : List Char}
    (hrounds : entries.length < rounds.length) (s : σ) :
    (foldEntries step rounds first s text).toOption =
      (entries.foldlM next s).map fun s => (s, rest) :=
  toOption_foldKeys (P := Entry P) (B := fun e => Keyed P e.2) next Entry.exists_keyed hstep h
    hrounds s

end

/-! ## Reading a document -/

theorem readValue_scalar {depth : Nat} {v : Value} {text core rest : List Char}
    (h : Scalar v core rest) (hgap : Gap text core) (hrest : Ends rest) :
    readValue depth text = .ok (v, rest) := by
  have hskip := hgap.skipSpace_of_starts h.starts
  have hread := readScalar_of_scalar h hrest
  -- No bracket stands first, so whether one may still be opened does not count.
  cases depth <;>
    · rw [readValue, hskip]
      split
      · exact absurd rfl (h.ne_bracket _).1
      · exact absurd rfl (h.ne_bracket _).2
      · exact hread

/-- Folding items onto a list gives them backwards. -/
theorem foldlM_cons_eq {α : Type} (as done : List α) :
    as.foldlM (fun done a => some (a :: done)) done = some (as.reverse ++ done) := by
  induction as generalizing done with
  | nil => rfl
  | cons a as ih => simp [ih]

/-- What spells a value is read as that value, up to what ends it. -/
theorem readValue_of_spells {depth : Nat} {v : Value} {text core rest : List Char}
    (h : Spells depth v core rest) (hgap : Gap text core) (hrest : Ends rest) :
    readValue depth text = .ok (v, rest) := by
  induction depth generalizing v text core rest with
  | zero => exact readValue_scalar h hgap hrest
  | succ depth ih =>
      cases h with
      | scalar hs => exact readValue_scalar hs hgap hrest
      | @array items body _ hitems =>
          have hskip : skipSpace text = '[' :: body := hgap.skipSpace_cons (by decide)
          have hlt := hitems.length_lt (takes_spells depth)
          rw [← toOption_eq_some_iff]
          simp only [readValue, hskip]
          rw [toOption_bind,
            toOption_foldItems (P := Spells depth) (fun done v => some (v :: done))
              (fun h => h.starts) _ hitems (by omega)]
          · simp [foldlM_cons_eq]
            rfl
          · intro v core rest hv hends s
            simp [ih hv (Gap.refl core) hends, bind, Except.bind, pure, Except.pure]
      | @object entries body _ hentries =>
          have hskip : skipSpace text = '{' :: body := hgap.skipSpace_cons (by decide)
          have hlt := hentries.length_lt (Takes.entry (takes_spells depth))
          rw [← toOption_eq_some_iff]
          simp only [readValue, hskip]
          rw [toOption_bind,
            toOption_foldEntries (P := Spells depth) (fun done e => some (e :: done)) _ hentries
              (by omega)]
          · simp [foldlM_cons_eq]
            rfl
          · intro k v colon rest _ hkeyed hends s
            obtain ⟨behind, core, hcolon, hgap, hv⟩ := hkeyed.takeColon_eq
            simp [hcolon, ih hv hgap hends, bind, Except.bind, pure, Except.pure]

end CheckWorker.Json
