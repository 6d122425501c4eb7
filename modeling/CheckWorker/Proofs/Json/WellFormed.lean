import CheckWorker.Proofs.Json.Numeral
import CheckWorker.Proofs.Json.Quoted

/-!
# The form of JSON texts

What has the form of a JSON value, whether or not it stands for one: numbers may be of any size,
texts may hold halves of surrogate pairs, and brackets may be nested to any depth. Blanks may stand
around every part. Each relation stands between the text that begins with a value and the text left.

`Items` gives the contents of an array and of an object alike. Where a value can start no value can
end, and every value takes at least one character.
-/

namespace CheckWorker.Json

/-! ## The grammar -/

/-- Blanks, possibly none, before what is left. -/
def Gap (text rest : List Char) : Prop :=
  ∃ blanks, (∀ c ∈ blanks, isSpace c = true) ∧ text = blanks ++ rest

section

variable {α : Type} (close : Char) (P : α → List Char → List Char → Prop)

/-- The items still to come between two brackets, up to and with the closing one. Each but the first
item has a comma before it. -/
inductive Items : (first : Bool) → List α → List Char → List Char → Prop
  | done {first : Bool} {text rest : List Char} :
      Gap text (close :: rest) → Items first [] text rest
  | first {a : α} {as : List α} {text core more rest : List Char} :
      Gap text core → P a core more → Items false as more rest → Items true (a :: as) text rest
  | next {a : α} {as : List α} {text behind core more rest : List Char} :
      Gap text (',' :: behind) → Gap behind core → P a core more → Items false as more rest →
        Items false (a :: as) text rest

end

/-- A value that is neither array nor object. -/
inductive RawScalar : List Char → List Char → Prop
  | null {rest : List Char} : RawScalar ('n' :: 'u' :: 'l' :: 'l' :: rest) rest
  | yes {rest : List Char} : RawScalar ('t' :: 'r' :: 'u' :: 'e' :: rest) rest
  | no {rest : List Char} : RawScalar ('f' :: 'a' :: 'l' :: 's' :: 'e' :: rest) rest
  | number {m : Numeral} {rest : List Char} : RawScalar (m.text ++ rest) rest
  | text {chars rest : List Char} : RawChars chars rest → RawScalar ('"' :: chars) rest

section

variable (R : List Char → List Char → Prop)

/-- A key, a colon and a value. -/
inductive RawEntry : List Char → List Char → Prop
  | mk {chars colon behind core rest : List Char} :
      RawChars chars colon → Gap colon (':' :: behind) → Gap behind core → R core rest →
        RawEntry ('"' :: chars) rest

/-- A value whose parts have the form `R`. -/
inductive RawNested : List Char → List Char → Prop
  | scalar {text rest : List Char} : RawScalar text rest → RawNested text rest
  | array {items : List Unit} {text rest : List Char} :
      Items ']' (fun _ => R) true items text rest → RawNested ('[' :: text) rest
  | object {entries : List Unit} {text rest : List Char} :
      Items '}' (fun _ => RawEntry R) true entries text rest → RawNested ('{' :: text) rest

end

/-- The texts that begin with something in the form of a value, with at most `depth` brackets open
at once. -/
def WellFormed : (depth : Nat) → List Char → List Char → Prop
  | 0 => RawScalar
  | depth + 1 => RawNested (WellFormed depth)

/-- No blank, comma or closing bracket stands first, but something does. -/
def Starts (text : List Char) : Prop :=
  ∃ c rest, text = c :: rest ∧ isSpace c = false ∧ c ≠ ',' ∧ c ≠ ']' ∧ c ≠ '}'

/-- What stands between brackets, seen as something else. -/
theorem Items.map {α β : Type} {close : Char} {P : α → List Char → List Char → Prop}
    {Q : β → List Char → List Char → Prop} (f : α → β)
    (hf : ∀ {a text rest}, P a text rest → Q (f a) text rest) {first : Bool} {as : List α}
    {text rest : List Char} (h : Items close P first as text rest) :
    Items close Q first (as.map f) text rest := by
  induction h with
  | done hgap => exact .done hgap
  | first hgap ha _ ih => exact .first hgap (hf ha) ih
  | next hcomma hgap ha _ ih => exact .next hcomma hgap (hf ha) ih

/-! ## Blanks -/

theorem Gap.refl (text : List Char) : Gap text text :=
  ⟨[], by simp, rfl⟩

theorem Gap.skipSpace_eq {text rest : List Char} (h : Gap text rest) :
    skipSpace text = skipSpace rest := by
  obtain ⟨blanks, hblanks, rfl⟩ := h
  exact List.dropWhile_append_of_pos hblanks

theorem Gap.skipSpace_cons {text rest : List Char} {c : Char} (h : Gap text (c :: rest))
    (hc : isSpace c = false) : skipSpace text = c :: rest := by
  rw [h.skipSpace_eq]
  simp [skipSpace, hc]

theorem Gap.skipSpace_of_starts {text rest : List Char} (h : Gap text rest) (hrest : Starts rest) :
    skipSpace text = rest := by
  obtain ⟨c, rest, rfl, hc, -⟩ := hrest
  exact h.skipSpace_cons hc

theorem Gap.ends {text rest : List Char} {c : Char} (h : Gap text (c :: rest))
    (hc : c = ',' ∨ c = ']' ∨ c = '}') : Ends text := by
  obtain ⟨blanks, hblanks, rfl⟩ := h
  intro d hd
  cases blanks with
  | nil =>
      cases hd
      exact .inr hc
  | cons b blanks =>
      cases hd
      exact .inl (hblanks d (by simp))

theorem Items.ends {α : Type} {close : Char} {P : α → List Char → List Char → Prop} {as : List α}
    {text rest : List Char} (h : Items close P false as text rest)
    (hclose : close = ']' ∨ close = '}') : Ends text := by
  cases h with
  | done hgap => exact hgap.ends (.inr hclose)
  | next hgap _ _ _ => exact hgap.ends (.inl rfl)

/-! ## How values start -/

theorem starts_of_isDigit {c : Char} (h : c.isDigit = true) (rest : List Char) :
    Starts (c :: rest) := by
  have hends : ¬ (isSpace c = true ∨ c = ',' ∨ c = ']' ∨ c = '}') := by
    intro hc
    have hends : Ends (c :: rest) := by
      intro d hd
      cases hd
      exact hc
    rw [hends.ne.1] at h
    cases h
  simp only [not_or, Bool.not_eq_true] at hends
  exact ⟨c, rest, rfl, hends⟩

theorem Numeral.unsigned_eq (m : Numeral) :
    ∃ c text, m.unsigned = c :: text ∧ c.isDigit = true := by
  obtain ⟨c, whole, hwhole⟩ := List.exists_cons_of_ne_nil m.whole_ne
  have hc : c.isDigit = true := m.isDigit_whole c (by simp [hwhole])
  exact ⟨c, _, by rw [Numeral.unsigned, hwhole, List.cons_append], hc⟩

theorem Numeral.starts (m : Numeral) (rest : List Char) : Starts (m.text ++ rest) := by
  obtain ⟨c, text, htext, hc⟩ := m.unsigned_eq
  rw [Numeral.text, htext]
  split
  · exact ⟨_, _, rfl, by decide⟩
  · exact starts_of_isDigit hc _

theorem ne_of_isDigit {c : Char} (h : c.isDigit = true) :
    c ≠ 'n' ∧ c ≠ 't' ∧ c ≠ 'f' ∧ c ≠ '"' ∧ c ≠ '[' ∧ c ≠ '{' ∧ c ≠ '-' := by
  refine ⟨?_, ?_, ?_, ?_, ?_, ?_, ?_⟩ <;>
    · rintro rfl
      revert h
      decide

theorem RawScalar.starts {text rest : List Char} (h : RawScalar text rest) : Starts text := by
  cases h with
  | null => exact ⟨_, _, rfl, by decide⟩
  | yes => exact ⟨_, _, rfl, by decide⟩
  | no => exact ⟨_, _, rfl, by decide⟩
  | number => exact Numeral.starts _ _
  | text _ => exact ⟨_, _, rfl, by decide⟩

theorem RawScalar.ne_bracket {text rest : List Char} (h : RawScalar text rest)
    (body : List Char) : text ≠ '[' :: body ∧ text ≠ '{' :: body := by
  cases h with
  | null => simp
  | yes => simp
  | no => simp
  | @number m _ =>
      obtain ⟨c, text, htext, hc⟩ := m.unsigned_eq
      rw [Numeral.text, htext]
      split
      · simp
      · simp [ne_of_isDigit hc]
  | text _ => simp

theorem WellFormed.starts {depth : Nat} {text rest : List Char} (h : WellFormed depth text rest) :
    Starts text := by
  cases depth with
  | zero => exact RawScalar.starts h
  | succ depth =>
      cases h with
      | scalar hs => exact hs.starts
      | array _ => exact ⟨_, _, rfl, by decide⟩
      | object _ => exact ⟨_, _, rfl, by decide⟩

theorem RawEntry.starts {R : List Char → List Char → Prop} {text rest : List Char}
    (h : RawEntry R text rest) : Starts text := by
  cases h with
  | mk _ _ _ _ => exact ⟨_, _, rfl, by decide⟩

/-! ## Every part takes a character -/

theorem Gap.length_le {text rest : List Char} (h : Gap text rest) : rest.length ≤ text.length := by
  obtain ⟨blanks, -, rfl⟩ := h
  simp

theorem RawChar.length_lt {text rest : List Char} (h : RawChar text rest) :
    rest.length < text.length := by
  cases h <;> (simp only [List.length_cons]; omega)

theorem RawChars.length_lt {text rest : List Char} (h : RawChars text rest) :
    rest.length < text.length := by
  induction h with
  | close => simp
  | char hc _ ih => exact Nat.lt_trans ih hc.length_lt

theorem Numeral.text_ne (m : Numeral) : m.text ≠ [] := by
  obtain ⟨c, text, htext, -⟩ := m.unsigned_eq
  rw [Numeral.text, htext]
  split <;> simp

theorem RawScalar.length_lt {text rest : List Char} (h : RawScalar text rest) :
    rest.length < text.length := by
  cases h with
  | null => simp; omega
  | yes => simp; omega
  | no => simp; omega
  | @number m _ =>
      have hpos := List.length_pos_iff.mpr m.text_ne
      simp only [List.length_append]
      omega
  | text hchars => exact Nat.lt_succ_of_lt hchars.length_lt

/-- `P` takes at least one character. -/
def Takes {α : Type} (P : α → List Char → List Char → Prop) : Prop :=
  ∀ {a text rest}, P a text rest → rest.length < text.length

theorem Items.length_lt {α : Type} {close : Char} {P : α → List Char → List Char → Prop}
    (hP : Takes P) {first : Bool} {as : List α} {text rest : List Char}
    (h : Items close P first as text rest) : as.length + rest.length < text.length := by
  induction h with
  | done hgap =>
      have hlen := hgap.length_le
      simp only [List.length_cons] at hlen
      simp only [List.length_nil]
      omega
  | first hgap ha _ ih =>
      have hlen := hgap.length_le
      have hlt := hP ha
      simp only [List.length_cons]
      omega
  | next hcomma hgap ha _ ih =>
      have hlen := hcomma.length_le
      have hle := hgap.length_le
      have hlt := hP ha
      simp only [List.length_cons] at hlen ⊢
      omega

theorem RawEntry.length_lt {R : List Char → List Char → Prop}
    (hR : ∀ {text rest}, R text rest → rest.length < text.length) {text rest : List Char}
    (h : RawEntry R text rest) : rest.length < text.length := by
  obtain ⟨hchars, hcolon, hgap, hv⟩ := h
  have hlt := hchars.length_lt
  have hlen := hcolon.length_le
  have hle := hgap.length_le
  have hvalue := hR hv
  simp only [List.length_cons] at hlen ⊢
  omega

theorem WellFormed.length_lt {depth : Nat} {text rest : List Char}
    (h : WellFormed depth text rest) : rest.length < text.length := by
  induction depth generalizing text rest with
  | zero => exact RawScalar.length_lt h
  | succ depth ih =>
      cases h with
      | scalar hs => exact hs.length_lt
      | array hitems =>
          have hlt := hitems.length_lt ih
          simp only [List.length_cons]
          omega
      | object hentries =>
          have hlt := hentries.length_lt (RawEntry.length_lt ih)
          simp only [List.length_cons]
          omega

end CheckWorker.Json
