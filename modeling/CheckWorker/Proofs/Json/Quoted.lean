import CheckWorker.Json.Token

/-!
# Texts between quotes

The written forms of a character between quotes, and of a whole text. Every relation here stands
between what is written, the text that begins with a written form, and the text that it leaves.

A character outside the quote, the backslash and the controls may stand for itself, some have a
short escape, and each may be given by its number in hexadecimal: by one escape, or beyond
`0xFFFF` by a pair of surrogates. Reading takes every form of a text back to it.

Passing over asks less: an escape may give any number, a half of a pair too. So what is passed over
has a grammar of its own, in which every written text is one.
-/

namespace CheckWorker.Json

/-- One written form of a character, with what is left behind it. -/
inductive CharText : Char → List Char → List Char → Prop
  | plain {c : Char} {rest : List Char} :
      0x20 ≤ c.toNat → c ≠ '"' → c ≠ '\\' → CharText c (c :: rest) rest
  | short {c e : Char} {rest : List Char} :
      plainEscape? e = some c → CharText c ('\\' :: e :: rest) rest
  | hex {c w x y z : Char} {rest : List Char} :
      hexValue4? w x y z = some c.toNat → CharText c ('\\' :: 'u' :: w :: x :: y :: z :: rest) rest
  | pair {c w x y z w' x' y' z' : Char} {rest : List Char} :
      0x10000 ≤ c.toNat →
      hexValue4? w x y z = some (0xD800 + (c.toNat - 0x10000) / 0x400) →
      hexValue4? w' x' y' z' = some (0xDC00 + (c.toNat - 0x10000) % 0x400) →
      CharText c
        ('\\' :: 'u' :: w :: x :: y :: z :: '\\' :: 'u' :: w' :: x' :: y' :: z' :: rest) rest

/-- Written forms of characters one after another, up to and with the closing quote. -/
inductive Chars : List Char → List Char → List Char → Prop
  | close {rest : List Char} : Chars [] ('"' :: rest) rest
  | char {c : Char} {cs text more rest : List Char} :
      CharText c text more → Chars cs more rest → Chars (c :: cs) text rest

/-- A text with its quotes. -/
inductive Quoted : String → List Char → List Char → Prop
  | mk {s : String} {text rest : List Char} :
      Chars s.toList text rest → Quoted s ('"' :: text) rest

/-- One character, or half of a pair, of a text that is not kept. -/
inductive RawChar : List Char → List Char → Prop
  | plain {c : Char} {rest : List Char} :
      0x20 ≤ c.toNat → c ≠ '"' → c ≠ '\\' → RawChar (c :: rest) rest
  | short {c e : Char} {rest : List Char} :
      plainEscape? e = some c → RawChar ('\\' :: e :: rest) rest
  | hex {n : Nat} {w x y z : Char} {rest : List Char} :
      hexValue4? w x y z = some n → RawChar ('\\' :: 'u' :: w :: x :: y :: z :: rest) rest

/-- What is between the quotes of a text that is not kept, up to and with the closing one. -/
inductive RawChars : List Char → List Char → Prop
  | close {rest : List Char} : RawChars ('"' :: rest) rest
  | char {text more rest : List Char} :
      RawChar text more → RawChars more rest → RawChars text rest

theorem Quoted.exists_chars {s : String} {text rest : List Char} (h : Quoted s text rest) :
    ∃ chars, text = '"' :: chars ∧ Chars s.toList chars rest := by
  cases h with
  | mk hchars => exact ⟨_, rfl, hchars⟩

/-! ## Escapes -/

theorem takeHex_of_hexValue4? {w x y z : Char} {n : Nat} (h : hexValue4? w x y z = some n)
    (rest : List Char) : takeHex (w :: x :: y :: z :: rest) = .ok (n, rest) := by
  simp only [takeHex, h]

/-- The numbers of characters leave out the surrogates and end at `0x10FFFF`. -/
theorem toNat_range (c : Char) : c.toNat < 0xD800 ∨ 0xDFFF < c.toNat ∧ c.toNat < 0x110000 :=
  c.valid

theorem takeLowSurrogate_eq {c w x y z : Char} (hc : 0x10000 ≤ c.toNat)
    (h : hexValue4? w x y z = some (0xDC00 + (c.toNat - 0x10000) % 0x400)) (rest : List Char) :
    takeLowSurrogate (0xD800 + (c.toNat - 0x10000) / 0x400)
      ('\\' :: 'u' :: w :: x :: y :: z :: rest) = .ok (c, rest) := by
  have hlow : 0xDC00 ≤ 0xDC00 + (c.toNat - 0x10000) % 0x400 ∧
      0xDC00 + (c.toNat - 0x10000) % 0x400 ≤ 0xDFFF := by omega
  have hvalue : (0xD800 + (c.toNat - 0x10000) / 0x400 - 0xD800) * 0x400 +
      (0xDC00 + (c.toNat - 0x10000) % 0x400 - 0xDC00) + 0x10000 = c.toNat := by omega
  simp only [takeLowSurrogate, takePairMark, takeHex_of_hexValue4? h, bind, Except.bind, if_true]
  rw [if_pos hlow, hvalue, Char.ofNat_toNat]
  rfl

theorem ne_u_of_plainEscape? {e c : Char} (h : plainEscape? e = some c) : e ≠ 'u' := by
  rintro rfl
  simp [plainEscape?] at h

theorem takeEscape_of_plainEscape? {e c : Char} (h : plainEscape? e = some c) (rest : List Char) :
    takeEscape (e :: rest) = .ok (c, rest) := by
  have hu := ne_u_of_plainEscape? h
  rw [takeEscape]
  · rw [h]
  · exact hu

theorem takeEscape_of_charText {c : Char} {text rest : List Char}
    (h : CharText c ('\\' :: text) rest) : takeEscape text = .ok (c, rest) := by
  cases h with
  | plain _ _ hne => exact absurd rfl hne
  | short he => exact takeEscape_of_plainEscape? he rest
  | hex hn =>
      have hrange := toNat_range c
      have hlow : ¬ (0xDC00 ≤ c.toNat ∧ c.toNat ≤ 0xDFFF) := by omega
      have hhigh : ¬ (0xD800 ≤ c.toNat ∧ c.toNat ≤ 0xDBFF) := by omega
      simp only [takeEscape, takeHex_of_hexValue4? hn, bind, Except.bind]
      rw [if_neg hlow, if_neg hhigh, Char.ofNat_toNat]
      rfl
  | pair hc hhigh hlow =>
      have hrange := toNat_range c
      have hnot : ¬ (0xDC00 ≤ 0xD800 + (c.toNat - 0x10000) / 0x400 ∧
          0xD800 + (c.toNat - 0x10000) / 0x400 ≤ 0xDFFF) := by omega
      have hfirst : 0xD800 ≤ 0xD800 + (c.toNat - 0x10000) / 0x400 ∧
          0xD800 + (c.toNat - 0x10000) / 0x400 ≤ 0xDBFF := by omega
      simp only [takeEscape, takeHex_of_hexValue4? hhigh, bind, Except.bind]
      rw [if_neg hnot, if_pos hfirst, takeLowSurrogate_eq hc hlow]

/-! ## Reading -/

theorem takeTextFrom_of_charText {c : Char} {text rest : List Char} (h : CharText c text rest)
    (done : List Char) : takeTextFrom done text = takeTextFrom (c :: done) rest := by
  by_cases hslash : ∃ text', text = '\\' :: text'
  · obtain ⟨text', rfl⟩ := hslash
    rw [takeTextFrom]
    split
    · next c' rest' he =>
        simp only [takeEscape_of_charText h, Except.ok.injEq, Prod.mk.injEq] at he
        rw [← he.1, ← he.2]
    · next f he => simp [takeEscape_of_charText h] at he
  · cases h with
    | plain hc hquote hback =>
        rw [takeTextFrom]
        · rw [if_neg (by omega)]
        · exact hquote
        · exact hback
    | short _ => exact absurd ⟨_, rfl⟩ hslash
    | hex _ => exact absurd ⟨_, rfl⟩ hslash
    | pair _ _ _ => exact absurd ⟨_, rfl⟩ hslash

theorem takeTextFrom_of_chars {cs text rest : List Char} (h : Chars cs text rest)
    (done : List Char) : takeTextFrom done text = .ok (done.reverse ++ cs, rest) := by
  induction h generalizing done with
  | close => simp [takeTextFrom]
  | @char c cs text more rest hc _ ih =>
      calc takeTextFrom done text
          = takeTextFrom (c :: done) more := takeTextFrom_of_charText hc done
        _ = .ok ((c :: done).reverse ++ cs, rest) := ih (c :: done)
        _ = .ok (done.reverse ++ c :: cs, rest) := by simp

theorem takeText_of_chars {s : String} {text rest : List Char} (h : Chars s.toList text rest) :
    takeText text = .ok (s, rest) := by
  simp [takeText, takeTextFrom_of_chars h, bind, Except.bind, pure, Except.pure]

/-! ## Passing over -/

theorem skipText_escape {text rest : List Char} (h : skipEscape text = .ok rest) :
    skipText ('\\' :: text) = skipText rest := by
  rw [skipText]
  split
  · next rest' he =>
      rw [h, Except.ok.injEq] at he
      rw [he]
  · next f he => simp [h] at he

theorem skipEscape_of_plainEscape? {e c : Char} (h : plainEscape? e = some c) (rest : List Char) :
    skipEscape (e :: rest) = .ok rest := by
  have hu := ne_u_of_plainEscape? h
  rw [skipEscape]
  · simp [h]
  · exact hu

theorem skipEscape_of_hexValue4? {w x y z : Char} {n : Nat} (h : hexValue4? w x y z = some n)
    (rest : List Char) : skipEscape ('u' :: w :: x :: y :: z :: rest) = .ok rest := by
  simp [skipEscape, takeHex_of_hexValue4? h, Except.map]

theorem skipText_of_rawChar {text rest : List Char} (h : RawChar text rest) :
    skipText text = skipText rest := by
  cases h with
  | plain hc hquote hback =>
      rw [skipText]
      · rw [if_neg (by omega)]
      · exact hquote
      · exact hback
  | short he => exact skipText_escape (skipEscape_of_plainEscape? he rest)
  | hex hn => exact skipText_escape (skipEscape_of_hexValue4? hn rest)

theorem skipText_of_rawChars {text rest : List Char} (h : RawChars text rest) :
    skipText text = .ok rest := by
  induction h with
  | close => simp [skipText]
  | char hc _ ih => rw [skipText_of_rawChar hc, ih]

theorem CharText.raw {c : Char} {text more rest : List Char} (h : CharText c text more)
    (hmore : RawChars more rest) : RawChars text rest := by
  cases h with
  | plain hc hquote hback => exact .char (.plain hc hquote hback) hmore
  | short he => exact .char (.short he) hmore
  | hex hn => exact .char (.hex hn) hmore
  | pair _ hhigh hlow => exact .char (.hex hhigh) (.char (.hex hlow) hmore)

theorem Chars.raw {cs text rest : List Char} (h : Chars cs text rest) : RawChars text rest := by
  induction h with
  | close => exact .close
  | char hc _ ih => exact hc.raw ih

end CheckWorker.Json
