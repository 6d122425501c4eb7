import CheckWorker.Json.Reading
import CheckWorker.Proofs.Json.WellFormed

/-!
# Documents

The grammar of JSON documents, told without any reader. A value is a word, a number in range, a text
between quotes, or items between brackets, and blanks may stand around every part of it. As with
texts, each relation stands between what is written, the text that begins with it and the text left.

What spells a value has the form of one, so how it starts and how much it takes is known from that.
-/

namespace CheckWorker.Json

/-! ## The grammar -/

inductive Scalar : Value → List Char → List Char → Prop
  | null {rest : List Char} : Scalar .null ('n' :: 'u' :: 'l' :: 'l' :: rest) rest
  | yes {rest : List Char} : Scalar (.boolean true) ('t' :: 'r' :: 'u' :: 'e' :: rest) rest
  | no {rest : List Char} : Scalar (.boolean false) ('f' :: 'a' :: 'l' :: 's' :: 'e' :: rest) rest
  | number {m : Numeral} {n : Number} {rest : List Char} :
      m.number? = some n → Scalar (.number n) (m.text ++ rest) rest
  | text {s : String} {text rest : List Char} : Quoted s text rest → Scalar (.text s) text rest

section

variable (P : Value → List Char → List Char → Prop)

/-- A colon and a value. -/
inductive Keyed : Value → List Char → List Char → Prop
  | mk {v : Value} {text behind core rest : List Char} :
      Gap text (':' :: behind) → Gap behind core → P v core rest → Keyed v text rest

/-- A key with what belongs to it. -/
inductive Entry : String × Value → List Char → List Char → Prop
  | mk {k : String} {v : Value} {text colon rest : List Char} :
      Quoted k text colon → Keyed P v colon rest → Entry (k, v) text rest

/-- A value whose parts are spelled by `P`. -/
inductive Nested : Value → List Char → List Char → Prop
  | scalar {v : Value} {text rest : List Char} : Scalar v text rest → Nested v text rest
  | array {items : List Value} {text rest : List Char} :
      Items ']' P true items text rest → Nested (.array items) ('[' :: text) rest
  | object {entries : List (String × Value)} {text rest : List Char} :
      Items '}' (Entry P) true entries text rest → Nested (.object entries) ('{' :: text) rest

end

/-- The texts that begin with a value in which at most `depth` brackets are open at once. -/
def Spells : (depth : Nat) → Value → List Char → List Char → Prop
  | 0 => Scalar
  | depth + 1 => Nested (Spells depth)

/-- A whole text that spells a value, with nothing else but blanks. -/
def Document (v : Value) (text : List Char) : Prop :=
  ∃ core behind, Gap text core ∧ Spells depthLimit v core behind ∧ Gap behind []

/-! ## Values have the form of values -/

theorem Quoted.exists_raw {s : String} {text rest : List Char} (h : Quoted s text rest) :
    ∃ chars, text = '"' :: chars ∧ RawChars chars rest := by
  obtain ⟨chars, htext, hchars⟩ := h.exists_chars
  exact ⟨chars, htext, hchars.raw⟩

theorem Quoted.starts {s : String} {text rest : List Char} (h : Quoted s text rest) :
    Starts text := by
  obtain ⟨chars, rfl, -⟩ := h.exists_raw
  exact ⟨_, _, rfl, by decide⟩

theorem Quoted.length_lt {s : String} {text rest : List Char} (h : Quoted s text rest) :
    rest.length < text.length := by
  obtain ⟨chars, rfl, hchars⟩ := h.exists_raw
  exact Nat.lt_succ_of_lt hchars.length_lt

theorem Scalar.raw {v : Value} {text rest : List Char} (h : Scalar v text rest) :
    RawScalar text rest := by
  cases h with
  | null => exact .null
  | yes => exact .yes
  | no => exact .no
  | number _ => exact .number
  | text hs =>
      obtain ⟨chars, rfl, hchars⟩ := hs.exists_raw
      exact .text hchars

theorem Entry.raw {P : Value → List Char → List Char → Prop} {R : List Char → List Char → Prop}
    (hP : ∀ {v text rest}, P v text rest → R text rest) {e : String × Value}
    {text rest : List Char} (h : Entry P e text rest) : RawEntry R text rest := by
  obtain ⟨hkey, hcolon, hgap, hv⟩ := h
  obtain ⟨chars, rfl, hchars⟩ := hkey.exists_raw
  exact .mk hchars hcolon hgap (hP hv)

theorem Spells.wellFormed {depth : Nat} {v : Value} {text rest : List Char}
    (h : Spells depth v text rest) : WellFormed depth text rest := by
  induction depth generalizing v text rest with
  | zero => exact Scalar.raw h
  | succ depth ih =>
      cases h with
      | scalar hs => exact .scalar hs.raw
      | array hitems => exact .array (hitems.map (fun _ => ()) ih)
      | object hentries =>
          exact .object
            (hentries.map (fun _ => ()) (Entry.raw (P := Spells depth) (R := WellFormed depth) ih))

theorem Scalar.starts {v : Value} {text rest : List Char} (h : Scalar v text rest) :
    Starts text :=
  h.raw.starts

theorem Scalar.ne_bracket {v : Value} {text rest : List Char} (h : Scalar v text rest)
    (body : List Char) : text ≠ '[' :: body ∧ text ≠ '{' :: body :=
  h.raw.ne_bracket body

theorem Spells.starts {depth : Nat} {v : Value} {text rest : List Char}
    (h : Spells depth v text rest) : Starts text :=
  h.wellFormed.starts

theorem Scalar.length_lt {v : Value} {text rest : List Char} (h : Scalar v text rest) :
    rest.length < text.length :=
  h.raw.length_lt

theorem Takes.entry {P : Value → List Char → List Char → Prop} (hP : Takes P) :
    Takes (Entry P) :=
  fun h => (Entry.raw (P := P) (R := fun text rest => rest.length < text.length) hP h).length_lt id

theorem takes_spells (depth : Nat) : Takes (Spells depth) :=
  fun h => h.wellFormed.length_lt

end CheckWorker.Json
