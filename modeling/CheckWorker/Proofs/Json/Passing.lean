import CheckWorker.Proofs.Json.Reading

/-!
# Passing over a value

Passing over keeps the open brackets on a list and takes one step after another. `Passes` says that
steps lead from one configuration to another, whatever number of them was granted, so long as it was
the length of the text. A step from one text to a shorter one passes, and passages compose; so what
has the form of a value is passed over, with the brackets open that were open before.
-/

namespace CheckWorker.Json

/-- Steps enough for the text lead from one configuration to another, and steps enough for what is
left of it remain. -/
def Passes (p : Passage) (opened : List Bracket) (text : List Char) (p' : Passage)
    (opened' : List Bracket) (rest : List Char) : Prop :=
  ∀ steps : List Char, text.length ≤ steps.length → ∃ steps' : List Char,
    rest.length ≤ steps'.length ∧ skipFrom p opened steps text = skipFrom p' opened' steps' rest

section

variable {p p' p'' : Passage} {opened opened' opened'' : List Bracket} {text more rest : List Char}

theorem Passes.trans (h : Passes p opened text p' opened' more)
    (h' : Passes p' opened' more p'' opened'' rest) : Passes p opened text p'' opened'' rest := by
  intro steps hsteps
  obtain ⟨steps', hsteps', heq⟩ := h steps hsteps
  obtain ⟨steps'', hsteps'', heq'⟩ := h' steps' hsteps'
  exact ⟨steps'', hsteps'', heq.trans heq'⟩

/-- The run goes on as long as a value is due or a bracket is open. -/
theorem passes_of_step (hgo : p = .value ∨ opened ≠ [])
    (h : skipStep p opened text = .ok (p', opened', rest)) (hlt : rest.length < text.length) :
    Passes p opened text p' opened' rest := by
  intro steps hsteps
  obtain ⟨c, steps, rfl⟩ := List.exists_cons_of_length_pos (Nat.lt_of_le_of_lt (Nat.zero_le _)
    (Nat.lt_of_lt_of_le hlt hsteps))
  refine ⟨steps, by simp only [List.length_cons] at hsteps; omega, ?_⟩
  cases p with
  | value => simp [skipFrom, h, bind, Except.bind]
  | after =>
      cases opened with
      | nil => simp at hgo
      | cons b opened => simp [skipFrom, h, bind, Except.bind]

end

/-! ## Scalars -/

theorem skipNumber_text {m : Numeral} {rest : List Char} (hrest : Ends rest) {c : Char}
    {text : List Char} (h : m.text ++ rest = c :: text) : skipScalar c text = .ok rest := by
  have hskip := skipNumber_unsigned m hrest
  obtain ⟨d, digits, hdigits, hd⟩ := m.unsigned_eq
  rw [Numeral.text] at h
  split at h
  · cases h
    simp [skipScalar, hskip]
  · rw [hdigits, List.cons_append] at h hskip
    cases h
    simp [skipScalar, ne_of_isDigit hd, hd, hskip]

theorem skipScalar_of_raw {c : Char} {text rest : List Char} (h : RawScalar (c :: text) rest)
    (hrest : Ends rest) : skipScalar c text = .ok rest := by
  generalize hwhole : c :: text = whole at h
  cases h with
  | null => cases hwhole; rfl
  | yes => cases hwhole; rfl
  | no => cases hwhole; rfl
  | number => exact skipNumber_text hrest hwhole.symm
  | text hchars =>
      cases hwhole
      simp [skipScalar, skipText_of_rawChars hchars]

theorem passes_scalar {text core rest : List Char} (h : RawScalar core rest)
    (hgap : Gap text core) (hrest : Ends rest) (opened : List Bracket) :
    Passes .value opened text .after opened rest := by
  have hskip := hgap.skipSpace_of_starts h.starts
  have hle := hgap.length_le
  have hlt := h.length_lt
  obtain ⟨c, chars, rfl, -⟩ := h.starts
  have hne := h.ne_bracket chars
  simp only [ne_eq, List.cons.injEq, and_true] at hne
  have hstep : skipStep .value opened text = .ok (.after, opened, rest) := by
    simp [skipStep, hskip, hne, skipScalar_of_raw h hrest, Except.map]
  exact passes_of_step (.inl rfl) hstep (by omega)

/-! ## Between brackets -/

/-- An item between brackets is passed over: what comes before its value, and then the value. -/
def PassesItem (b : Bracket) (text rest : List Char) : Prop :=
  ∃ behind, skipLead b text = .ok behind ∧ behind.length ≤ text.length ∧
    ∀ opened, Passes .value opened behind .after opened rest

theorem Bracket.close_ne (b : Bracket) : b.close ≠ ',' ∧ isSpace b.close = false := by
  cases b <;> decide

theorem Bracket.close_eq (b : Bracket) : b.close = ']' ∨ b.close = '}' := by
  cases b <;> decide

section

variable {α : Type} {P : α → List Char → List Char → Prop} {b : Bracket} {opened : List Bracket}
  {as : List α} {text rest : List Char}

/-- After an item, the items still to come are passed over, and then their bracket is closed. -/
theorem passes_items
    (hitem : ∀ {a text core more}, Gap text core → P a core more → Ends more →
      PassesItem b text more)
    (h : Items b.close P false as text rest) :
    Passes .after (b :: opened) text .after opened rest := by
  generalize hfirst : false = first at h
  induction h with
  | @done _ text rest hgap =>
      have hskip := hgap.skipSpace_cons b.close_ne.2
      have hlen := hgap.length_le
      have hstep : skipStep .after (b :: opened) text = .ok (.after, opened, rest) := by
        simp [skipStep, hskip, b.close_ne.1]
      exact passes_of_step (.inr (by simp)) hstep hlen
  | first _ _ _ _ => cases hfirst
  | @next a as text behind core more rest hcomma hgap ha hmore ih =>
      have hskip : skipSpace text = ',' :: behind := hcomma.skipSpace_cons (by decide)
      have hlen := hcomma.length_le
      obtain ⟨left, hlead, hleft, hvalue⟩ := hitem hgap ha (hmore.ends b.close_eq)
      have hstep : skipStep .after (b :: opened) text = .ok (.value, b :: opened, left) := by
        simp [skipStep, hskip, hlead, Except.map]
      have hlt : left.length < text.length := by
        simp only [List.length_cons] at hlen
        omega
      exact ((passes_of_step (.inr (by simp)) hstep hlt).trans (hvalue (b :: opened))).trans
        (ih rfl)

/-- Behind an opening bracket all is passed over up to and with the closing one. -/
theorem passes_bracketed {body : List Char}
    (hclosed : ∀ {left}, skipOpening b body = .ok (.after, left) →
      skipStep .value opened text = .ok (.after, opened, left))
    (hopened : ∀ {left}, skipOpening b body = .ok (.value, left) →
      skipStep .value opened text = .ok (.value, b :: opened, left))
    (hbody : body.length < text.length)
    (hstarts : ∀ {a core more}, P a core more → Starts core)
    (hitem : ∀ {a text core more}, Gap text core → P a core more → Ends more →
      PassesItem b text more)
    (h : Items b.close P true as body rest) : Passes .value opened text .after opened rest := by
  cases h with
  | done hgap =>
      have hskip := hgap.skipSpace_cons b.close_ne.2
      have hlen := hgap.length_le
      have hclose : skipOpening b body = .ok (.after, rest) := by simp [skipOpening, hskip]
      simp only [List.length_cons] at hlen
      exact passes_of_step (.inl rfl) (hclosed hclose) (by omega)
  | @first a as _ core more _ hgap ha hmore =>
      have hskip := hgap.skipSpace_of_starts (hstarts ha)
      have hlen := hgap.length_le
      obtain ⟨left, hlead, hleft, hvalue⟩ := hitem (Gap.refl core) ha (hmore.ends b.close_eq)
      have hfirst : skipOpening b body = .ok (.value, left) := by
        obtain ⟨c, chars, rfl, -, -, harray, hobject⟩ := hstarts ha
        have hc : c ≠ b.close := by
          rcases b.close_eq with hb | hb <;> simpa [hb]
        simp [skipOpening, hskip, hc, hlead, Except.map]
      exact ((passes_of_step (.inl rfl) (hopened hfirst) (by omega)).trans
        (hvalue (b :: opened))).trans (passes_items hitem hmore)

end

/-! ## Values -/

theorem skipLead_entry {text chars colon behind : List Char} (hgap : Gap text ('"' :: chars))
    (hk : RawChars chars colon) (hcolon : Gap colon (':' :: behind)) :
    skipLead .object text = .ok behind ∧ behind.length ≤ text.length := by
  have hlen := hgap.length_le
  have hlt := hk.length_lt
  have hle := hcolon.length_le
  simp only [List.length_cons] at hlen hle
  have hskip : skipSpace text = '"' :: chars := hgap.skipSpace_cons (by decide)
  refine ⟨?_, by omega⟩
  simp [skipLead, hskip, skipText_of_rawChars hk, takeColon_of_gap hcolon, bind, Except.bind]

/-- What has the form of a value is passed over, up to what ends it. -/
theorem passes_of_wellFormed {depth : Nat} {text core rest : List Char}
    (h : WellFormed depth core rest) (hgap : Gap text core) (hrest : Ends rest)
    (opened : List Bracket) : Passes .value opened text .after opened rest := by
  induction depth generalizing text core rest opened with
  | zero => exact passes_scalar h hgap hrest opened
  | succ depth ih =>
      have hle := hgap.length_le
      cases h with
      | scalar hs => exact passes_scalar hs hgap hrest opened
      | @array items body _ hitems =>
          have hskip : skipSpace text = '[' :: body := hgap.skipSpace_cons (by decide)
          refine passes_bracketed (b := .array) ?_ ?_ hle (fun hv => hv.starts) ?_ hitems
          · intro left hclosed
            simp [skipStep, hskip, hclosed, bind, Except.bind, pure, Except.pure]
          · intro left hopened
            simp [skipStep, hskip, hopened, bind, Except.bind, pure, Except.pure]
          · intro _ text core more hgap hv hmore
            exact ⟨text, rfl, Nat.le_refl _, ih hv hgap hmore⟩
      | @object entries body _ hentries =>
          have hskip : skipSpace text = '{' :: body := hgap.skipSpace_cons (by decide)
          refine passes_bracketed (b := .object) ?_ ?_ hle (fun he => he.starts) ?_ hentries
          · intro left hclosed
            simp [skipStep, hskip, hclosed, bind, Except.bind, pure, Except.pure]
          · intro left hopened
            simp [skipStep, hskip, hopened, bind, Except.bind, pure, Except.pure]
          · rintro _ text core more hgap ⟨hk, hcolon, hvgap, hv⟩ hmore
            have hlen := skipLead_entry hgap hk hcolon
            exact ⟨_, hlen.1, hlen.2, ih hv hvgap hmore⟩

theorem skipValue_of_wellFormed {depth : Nat} {text core rest : List Char}
    (h : WellFormed depth core rest) (hgap : Gap text core) (hrest : Ends rest) :
    skipValue text = .ok rest := by
  obtain ⟨steps, hsteps, hrun⟩ := passes_of_wellFormed h hgap hrest [] text (Nat.le_refl _)
  rw [skipValue, hrun]
  cases steps <;> rfl

end CheckWorker.Json
