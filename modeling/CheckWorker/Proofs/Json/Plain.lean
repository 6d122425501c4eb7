import CheckWorker.Json.Shape.Tree
import CheckWorker.Proofs.Json.Passing

/-!
# Plain shapes on documents

A shape is read from a text directly, and from a value that was read before; here both ways are
shown to agree for the shapes that have no parts. The first character of what is written tells the
kind of its value, so that a reader looking at that character refuses just the values of other kinds.
-/

namespace CheckWorker.Json

/-- A reader of texts and a reader of values agree on everything that spells a value. -/
def Agree {α : Type} (depth : Nat) (reader : Reader α) (ofValue : Value → Except Cause α) : Prop :=
  ∀ {v text core rest}, Gap text core → Spells depth v core rest → Ends rest →
    (reader text).toOption = (ofValue v).toOption.map fun a => (a, rest)

/-! ## The first character -/

/-- The characters that a value of its kind begins with. -/
def Value.OpensWith : Value → Char → Prop
  | .null, c => c = 'n'
  | .boolean b, c => b = true ∧ c = 't' ∨ b = false ∧ c = 'f'
  | .number _, c => c = '-' ∨ c.isDigit = true
  | .text _, c => c = '"'
  | .array _, c => c = '['
  | .object _, c => c = '{'

theorem Scalar.opensWith {v : Value} {c : Char} {text rest : List Char}
    (h : Scalar v (c :: text) rest) : v.OpensWith c := by
  generalize hwhole : c :: text = whole at h
  cases h with
  | null => exact (List.cons.inj hwhole).1
  | yes => exact .inl ⟨rfl, (List.cons.inj hwhole).1⟩
  | no => exact .inr ⟨rfl, (List.cons.inj hwhole).1⟩
  | @number m _ _ _ =>
      obtain ⟨d, digits, hdigits, hd⟩ := m.unsigned_eq
      rw [Numeral.text, hdigits] at hwhole
      split at hwhole
      · exact .inl (List.cons.inj hwhole).1
      · rw [← (List.cons.inj hwhole).1] at hd
        exact .inr hd
  | text hs =>
      obtain ⟨chars, rfl, -⟩ := hs.exists_chars
      exact (List.cons.inj hwhole).1

theorem Spells.opensWith {depth : Nat} {v : Value} {c : Char} {text rest : List Char}
    (h : Spells depth v (c :: text) rest) : v.OpensWith c := by
  cases depth with
  | zero => exact Scalar.opensWith h
  | succ depth =>
      cases h with
      | scalar hs => exact hs.opensWith
      | array _ => exact rfl
      | object _ => exact rfl

section

variable {α : Type} {depth : Nat} {v : Value} {text core rest : List Char}

/-- The first character behind the blanks, of the kind that the value begins with. -/
theorem Spells.exists_cons (h : Spells depth v core rest) (hgap : Gap text core) :
    ∃ c chars, core = c :: chars ∧ skipSpace text = c :: chars ∧ v.OpensWith c := by
  have hskip := hgap.skipSpace_of_starts h.starts
  obtain ⟨c, chars, rfl, -⟩ := h.starts
  exact ⟨c, chars, rfl, hskip, h.opensWith⟩

theorem Spells.scalar_of_ne (h : Spells depth v core rest) (harray : ∀ items, v ≠ .array items)
    (hobject : ∀ entries, v ≠ .object entries) : Scalar v core rest := by
  cases depth with
  | zero => exact h
  | succ depth =>
      cases h with
      | scalar hs => exact hs
      | array _ => exact absurd rfl (harray _)
      | object _ => exact absurd rfl (hobject _)

theorem Spells.exists_chars {s : String} (h : Spells depth (.text s) core rest) :
    ∃ chars, core = '"' :: chars ∧ Chars s.toList chars rest := by
  cases h.scalar_of_ne (by simp) (by simp) with
  | text hs => exact hs.exists_chars

theorem Spells.exists_numeral {n : Number} (h : Spells depth (.number n) core rest) :
    ∃ m : Numeral, m.number? = some n ∧ core = m.text ++ rest := by
  cases h.scalar_of_ne (by simp) (by simp) with
  | @number m _ _ hn => exact ⟨m, hn, rfl⟩

theorem Spells.exists_items {items : List Value} (h : Spells depth (.array items) core rest) :
    ∃ inner body, depth = inner + 1 ∧ core = '[' :: body ∧
      Items ']' (Spells inner) true items body rest := by
  cases depth with
  | zero => cases h
  | succ depth =>
      cases h with
      | scalar hs => cases hs
      | array hitems => exact ⟨depth, _, rfl, rfl, hitems⟩

theorem Spells.exists_entries {entries : List (String × Value)}
    (h : Spells depth (.object entries) core rest) :
    ∃ inner body, depth = inner + 1 ∧ core = '{' :: body ∧
      Items '}' (Entry (Spells inner)) true entries body rest := by
  cases depth with
  | zero => cases h
  | succ depth =>
      cases h with
      | scalar hs => cases hs
      | object hentries => exact ⟨depth, _, rfl, rfl, hentries⟩

end

/-! ## Plain shapes -/

def Value.text? : Value → Option String
  | .text s => some s
  | _ => none

def Value.flag? : Value → Option Bool
  | .boolean b => some b
  | _ => none

def Value.number? : Value → Option Number
  | .number n => some n
  | _ => none

section

variable {depth : Nat} {v : Value} {text core rest : List Char}

theorem toOption_readText (expected : String) (hgap : Gap text core)
    (h : Spells depth v core rest) :
    (readText expected text).toOption = v.text?.map fun s => (s, rest) := by
  obtain ⟨c, chars, hcore, hskip, hc⟩ := h.exists_cons hgap
  cases v with
  | text s =>
      obtain ⟨chars', hcore', hchars⟩ := h.exists_chars
      obtain ⟨rfl, rfl⟩ := List.cons.inj (hcore.symm.trans hcore')
      simp [readText, hskip, takeText_of_chars hchars, Value.text?]
  | _ =>
      have hne : c ≠ '"' := by
        rintro rfl
        simp [Value.OpensWith] at hc
      simp [readText, hskip, hne, Value.text?]

theorem toOption_readFlag (hgap : Gap text core) (h : Spells depth v core rest) :
    (readFlag text).toOption = v.flag?.map fun b => (b, rest) := by
  obtain ⟨c, chars, hcore, hskip, hc⟩ := h.exists_cons hgap
  cases v with
  | boolean b =>
      cases h.scalar_of_ne (by simp) (by simp) <;>
        · obtain ⟨rfl, rfl⟩ := List.cons.inj hcore
          simp [readFlag, hskip, takeWord, Except.map, Value.flag?]
  | _ =>
      have hne : c ≠ 't' ∧ c ≠ 'f' := by
        constructor <;>
          · rintro rfl
            simp [Value.OpensWith] at hc
      simp [readFlag, hskip, hne, Value.flag?]

theorem toOption_place {α : Type} (rest : List Char) (x : Except Cause α) :
    (place rest x).toOption = x.toOption.map fun a => (a, rest) := by
  cases x <;> rfl

theorem toOption_readWhole? (width : Width) (hgap : Gap text core) (h : Spells depth v core rest)
    (hrest : Ends rest) : (readWhole? width text).toOption =
      (v.number?.bind fun n => (width.ofNumber n).toOption).map fun d => (d, rest) := by
  obtain ⟨c, chars, hcore, hskip, hc⟩ := h.exists_cons hgap
  cases v with
  | number n =>
      obtain ⟨m, hn, hm⟩ := h.exists_numeral
      have hread : takeNumber m.negative (m.unsigned ++ rest) = .ok (n, rest) := by
        rw [← toOption_eq_some_iff, toOption_takeNumber m hrest, hn]
        rfl
      obtain ⟨d, digits, hdigits, hd⟩ := m.unsigned_eq
      rw [hcore, Numeral.text] at hm
      cases hneg : m.negative with
      | true =>
          rw [hneg] at hm hread
          obtain ⟨rfl, rfl⟩ := List.cons.inj hm
          simpa [readWhole?, hskip, Value.number?, hread, bind, Except.bind]
            using toOption_place rest (width.ofNumber n)
      | false =>
          rw [hneg, hdigits, List.cons_append] at hread
          simp only [hneg, hdigits] at hm
          obtain ⟨rfl, rfl⟩ := List.cons.inj hm
          have hminus : c ≠ '-' := by
            rintro rfl
            revert hd
            decide
          simpa [readWhole?, hskip, Value.number?, hd, hread, bind, Except.bind]
            using toOption_place rest (width.ofNumber n)
  | _ =>
      have hminus : c ≠ '-' := by
        rintro rfl
        simp [Value.OpensWith] at hc
      have hdigit : c.isDigit = false := by
        cases hd : c.isDigit with
        | false => rfl
        | true => simp [Value.OpensWith, ne_of_isDigit hd] at hc
      simp [readWhole?, hskip, hdigit, Value.number?]

end

theorem toOption_ofValue_text (origin : Origin) (v : Value) :
    (Shape.ofValue origin .text v).toOption = v.text? := by
  cases v <;> rfl

theorem toOption_ofValue_flag (origin : Origin) (v : Value) :
    (Shape.ofValue origin .flag v).toOption = v.flag? := by
  cases v <;> rfl

theorem toOption_ofValue_whole (origin : Origin) (width : Width) (v : Value) :
    (Shape.ofValue origin (.whole width) v).toOption =
      v.number?.bind fun n => (width.ofNumber n).toOption := by
  cases v <;> rfl

theorem agree_text (depth : Nat) (origin : Origin) :
    Agree depth (Shape.read .text depth) (Shape.ofValue origin .text) := by
  intro v text core rest hgap h _
  rw [toOption_ofValue_text]
  exact toOption_readText "a string" hgap h

theorem agree_flag (depth : Nat) (origin : Origin) :
    Agree depth (Shape.read .flag depth) (Shape.ofValue origin .flag) := by
  intro v text core rest hgap h _
  rw [toOption_ofValue_flag]
  exact toOption_readFlag hgap h

theorem agree_whole (depth : Nat) (origin : Origin) (width : Width) :
    Agree depth (Shape.read (.whole width) depth) (Shape.ofValue origin (.whole width)) := by
  intro v text core rest hgap h hrest
  rw [toOption_ofValue_whole]
  exact toOption_readWhole? width hgap h hrest

theorem agree_anything (depth : Nat) (origin : Origin) :
    Agree depth (Shape.read .anything depth) (Shape.ofValue origin .anything) := by
  intro v text core rest hgap h hrest
  exact congrArg Except.toOption (readValue_of_spells h hgap hrest)

end CheckWorker.Json
