import CheckWorker.Json.Cause

/-!
# The smallest parts of a JSON text

Blanks, the words null, true and false, texts between quotes, and numbers. A failure at a character
that was only looked at counts one byte of it; one at a character that was taken counts it whole.
-/

namespace CheckWorker.Json

def isSpace (c : Char) : Bool :=
  c = ' ' || c = '\n' || c = '\t' || c = '\r'

def skipSpace (text : List Char) : List Char :=
  text.dropWhile isSpace

def Failure.atNext (cause : Cause) (rest : List Char) : Failure :=
  ⟨cause, rest, 1⟩

def Failure.before (cause : Cause) (rest : List Char) : Failure :=
  ⟨cause, rest, 0⟩

def takeWord : List Char → List Char → Except Failure (List Char)
  | [], text => .ok text
  | _ :: _, [] => .error (.before .endInValue [])
  | w :: word, c :: text =>
      if c = w then takeWord word text else .error (.atNext .noWord (c :: text))

/-! ## Texts between quotes -/

def hexValue? (c : Char) : Option Nat :=
  if '0' ≤ c && c ≤ '9' then some (c.toNat - '0'.toNat)
  else if 'a' ≤ c && c ≤ 'f' then some (c.toNat - 'a'.toNat + 10)
  else if 'A' ≤ c && c ≤ 'F' then some (c.toNat - 'A'.toNat + 10)
  else none

def hexValue4? (a b c d : Char) : Option Nat := do
  return (← hexValue? a) * 0x1000 + (← hexValue? b) * 0x100 + (← hexValue? c) * 0x10 +
    (← hexValue? d)

/-- The failure of an escape whose next four bytes, if there are four, are no hexadecimal digits. -/
def hexFailure (text : List Char) : Failure :=
  if byteCount 0 text < 4 then .before .endInText [] else ⟨.badEscape, text, 4⟩

def takeHex : Reader Nat
  | a :: b :: c :: d :: text =>
      match hexValue4? a b c d with
      | some n => .ok (n, text)
      | none => .error (hexFailure (a :: b :: c :: d :: text))
  | text => .error (hexFailure text)

theorem length_takeHex {text rest : List Char} {n : Nat} (h : takeHex text = .ok (n, rest)) :
    rest.length < text.length := by
  unfold takeHex at h
  split at h
  · split at h
    · simp only [Except.ok.injEq, Prod.mk.injEq] at h
      rw [← h.2]
      simp
      omega
    · simp at h
  · simp at h

/-- Takes one given character that goes on with a pair of surrogates. -/
def takePairMark (mark : Char) : List Char → Except Failure (List Char)
  | [] => .error (.before .endInText [])
  | c :: text => if c = mark then .ok text else .error (.atNext .halfPair (c :: text))

theorem length_takePairMark {mark : Char} {text rest : List Char}
    (h : takePairMark mark text = .ok rest) : rest.length < text.length := by
  unfold takePairMark at h
  split at h
  · simp at h
  · split at h
    · simp only [Except.ok.injEq] at h
      simp [h]
    · simp at h

/-- Takes the second half of a pair of surrogates, after the first half `high`. -/
def takeLowSurrogate (high : Nat) : Reader Char := fun text => do
  let text ← takePairMark '\\' text
  let text ← takePairMark 'u' text
  let (low, text) ← takeHex text
  if 0xDC00 ≤ low ∧ low ≤ 0xDFFF then
    return (Char.ofNat ((high - 0xD800) * 0x400 + (low - 0xDC00) + 0x10000), text)
  else throw (.before .loneSurrogate text)

def plainEscape? : Char → Option Char
  | '"' => some '"'
  | '\\' => some '\\'
  | '/' => some '/'
  | 'b' => some '\x08'
  | 'f' => some '\x0c'
  | 'n' => some '\n'
  | 'r' => some '\r'
  | 't' => some '\t'
  | _ => none

def takeEscape : Reader Char
  | [] => .error (.before .endInText [])
  | 'u' :: text => do
      let (n, text) ← takeHex text
      if 0xDC00 ≤ n ∧ n ≤ 0xDFFF then throw (.before .loneSurrogate text)
      else if 0xD800 ≤ n ∧ n ≤ 0xDBFF then takeLowSurrogate n text
      else return (Char.ofNat n, text)
  | c :: text =>
      match plainEscape? c with
      | some d => .ok (d, text)
      | none => .error (.atNext .badEscape (c :: text))

theorem length_takeLowSurrogate {high : Nat} {text rest : List Char} {c : Char}
    (h : takeLowSurrogate high text = .ok (c, rest)) : rest.length < text.length := by
  unfold takeLowSurrogate at h
  cases h₁ : takePairMark '\\' text with
  | error e => simp [h₁, bind, Except.bind] at h
  | ok t₁ =>
      cases h₂ : takePairMark 'u' t₁ with
      | error e => simp [h₁, h₂, bind, Except.bind] at h
      | ok t₂ =>
          cases h₃ : takeHex t₂ with
          | error e => simp [h₁, h₂, h₃, bind, Except.bind] at h
          | ok p =>
              have l₁ := length_takePairMark h₁
              have l₂ := length_takePairMark h₂
              have l₃ := length_takeHex h₃
              simp only [h₁, h₂, h₃, bind, Except.bind] at h
              split at h
              · simp only [pure, Except.pure, Except.ok.injEq, Prod.mk.injEq] at h
                rw [← h.2]
                omega
              · simp [throw, throwThe, MonadExceptOf.throw] at h

theorem length_takeEscape {text rest : List Char} {c : Char}
    (h : takeEscape text = .ok (c, rest)) : rest.length < text.length := by
  unfold takeEscape at h
  split at h
  · simp at h
  · next text =>
      cases h₁ : takeHex text with
      | error e => simp [h₁, bind, Except.bind] at h
      | ok p =>
          have l₁ := length_takeHex h₁
          simp only [h₁, bind, Except.bind] at h
          split at h
          · simp [throw, throwThe, MonadExceptOf.throw] at h
          · split at h
            · have l₂ := length_takeLowSurrogate h
              simp only [List.length_cons]
              omega
            · simp only [pure, Except.pure, Except.ok.injEq, Prod.mk.injEq] at h
              rw [← h.2]
              simp only [List.length_cons]
              omega
  · split at h
    · simp only [Except.ok.injEq, Prod.mk.injEq] at h
      simp [h.2]
    · simp at h

/-- Takes a text up to and with its closing quote; `done`, held backwards, was taken before. -/
def takeTextFrom (done : List Char) (text : List Char) : Except Failure (List Char × List Char) :=
  match text with
  | [] => .error (.before .endInText [])
  | '"' :: rest => .ok (done.reverse, rest)
  | '\\' :: rest =>
      match _h : takeEscape rest with
      | .ok (c, rest') => takeTextFrom (c :: done) rest'
      | .error f => .error f
  | c :: rest =>
      if c.toNat < 0x20 then .error (.before .controlInText rest)
      else takeTextFrom (c :: done) rest
termination_by text.length
decreasing_by
  · have := length_takeEscape _h
    simp only [List.length_cons]
    omega
  · simp

def takeText : Reader String := fun text => do
  let (s, rest) ← takeTextFrom [] text
  return (String.ofList s, rest)

/-- Passes over an escape that is not kept, after its backslash: halves of pairs may stand alone. -/
def skipEscape : List Char → Except Failure (List Char)
  | [] => .error (.before .endInText [])
  | 'u' :: text => (takeHex text).map Prod.snd
  | c :: text =>
      if (plainEscape? c).isSome then .ok text else .error (.atNext .badEscape (c :: text))

theorem length_skipEscape {text rest : List Char} (h : skipEscape text = .ok rest) :
    rest.length < text.length := by
  unfold skipEscape at h
  split at h
  · simp at h
  · next text =>
      cases h₁ : takeHex text with
      | error e => simp [h₁, Except.map] at h
      | ok p =>
          have l₁ := length_takeHex h₁
          simp only [h₁, Except.map, Except.ok.injEq] at h
          simp only [← h, List.length_cons]
          omega
  · split at h
    · simp only [Except.ok.injEq] at h
      simp [h]
    · simp at h

/-- Passes over a text that is not kept, up to and with its closing quote. -/
def skipText (text : List Char) : Except Failure (List Char) :=
  match text with
  | [] => .error (.before .endInText [])
  | '"' :: rest => .ok rest
  | '\\' :: rest =>
      match _h : skipEscape rest with
      | .ok rest' => skipText rest'
      | .error f => .error f
  | c :: rest =>
      if c.toNat < 0x20 then .error (.before .controlInText (c :: rest)) else skipText rest
termination_by text.length
decreasing_by
  · have := length_skipEscape _h
    simp only [List.length_cons]
    omega
  · simp

/-! ## Numbers -/

def digitValue (c : Char) : Nat :=
  c.toNat - '0'.toNat

def maxWhole : Nat :=
  18446744073709551615

/-- The greatest magnitude of a negative integer that is read exactly. -/
def maxNegative : Nat :=
  9223372036854775808

def maxExponent : Nat :=
  2147483647

/-- The significand of a number so far: it takes digits while it stays exact. -/
def takeDigits (significand : Nat) : List Char → Nat × List Char
  | [] => (significand, [])
  | d :: digits =>
      if significand * 10 + digitValue d ≤ maxWhole then
        takeDigits (significand * 10 + digitValue d) digits
      else (significand, d :: digits)

def takeInteger : Reader (List Char)
  | [] => .error (.before .endInValue [])
  | c :: text =>
      if c = '0' then
        match text with
        | d :: _ => if d.isDigit then .error (.atNext .badNumber text) else .ok ([c], text)
        | [] => .ok ([c], text)
      else if c.isDigit then
        .ok (c :: text.takeWhile Char.isDigit, text.dropWhile Char.isDigit)
      else .error (.atNext .badNumber (c :: text))

/-- The digits of an exponent as a number, or the text left where it grows beyond the greatest. -/
def exponentFrom (value : Nat) : List Char → Except (List Char) (Nat × List Char)
  | [] => .ok (value, [])
  | c :: text =>
      if c.isDigit then
        if value * 10 + digitValue c ≤ maxExponent then
          exponentFrom (value * 10 + digitValue c) text
        else .error text
      else .ok (value, c :: text)

/-- The double of a significand and a power of ten, read up to `text`. -/
def doubleOf (negative : Bool) (significand : Nat) (exponent : Int) : Reader Number := fun text =>
  match Double.ofDecimal? negative significand exponent with
  | some d => .ok (.double d, text)
  | none => .error (.before .numberTooLarge text)

def takeExponent (negative : Bool) (significand : Nat) (exponent : Int) : Reader Number :=
  fun text =>
    let (down, text) := match text with
      | '+' :: rest => (false, rest)
      | '-' :: rest => (true, rest)
      | rest => (false, rest)
    match text with
    | [] => .error (.before .endInValue [])
    | c :: rest =>
        if c.isDigit then
          match exponentFrom (digitValue c) rest with
          | .ok (n, rest) =>
              doubleOf negative significand (if down then exponent - n else exponent + n) rest
          | .error rest =>
              if significand ≠ 0 ∧ down = false then .error (.before .numberTooLarge rest)
              else .ok (.double (.zeroOf negative), rest.dropWhile Char.isDigit)
        else .error (.atNext .badNumber (c :: rest))

/-- Takes what follows the digits of a number that is no integer: an exponent or nothing. -/
def takeScale (negative : Bool) (significand : Nat) (exponent : Int) : Reader Number
  | 'e' :: rest => takeExponent negative significand exponent rest
  | 'E' :: rest => takeExponent negative significand exponent rest
  | text => doubleOf negative significand exponent text

def takeDecimals (negative : Bool) (significand : Nat) (exponent : Int) : Reader Number :=
  fun text =>
    let digits := text.takeWhile Char.isDigit
    let rest := text.dropWhile Char.isDigit
    if digits.isEmpty then
      .error (if rest.isEmpty then .before .endInValue [] else .atNext .badNumber rest)
    else
      let (significand, dropped) := takeDigits significand digits
      takeScale negative significand (exponent - (digits.length - dropped.length : Nat)) rest

def takeNumber (negative : Bool) : Reader Number := fun text => do
  let (digits, rest) ← takeInteger text
  let (significand, dropped) := takeDigits 0 digits
  match rest with
  | '.' :: rest => takeDecimals negative significand dropped.length rest
  | 'e' :: _ => takeScale negative significand dropped.length rest
  | 'E' :: _ => takeScale negative significand dropped.length rest
  | _ =>
      if !dropped.isEmpty then doubleOf negative significand dropped.length rest
      else if !negative then return (.whole significand, rest)
      else if 0 < significand ∧ significand ≤ maxNegative then return (.whole (-significand), rest)
      else doubleOf true significand 0 rest

/-- Passes over the digits of a number and what belongs to it; every fault is one of form. -/
def skipExponent : List Char → Except Failure (List Char)
  | text =>
    let text := match text with
      | '+' :: rest => rest
      | '-' :: rest => rest
      | rest => rest
    match text with
    | [] => .error (.before .badNumber [])
    | c :: rest =>
        if c.isDigit then .ok (rest.dropWhile Char.isDigit)
        else .error (.atNext .badNumber (c :: rest))

def skipScale : List Char → Except Failure (List Char)
  | 'e' :: rest => skipExponent rest
  | 'E' :: rest => skipExponent rest
  | text => .ok text

def skipNumber (text : List Char) : Except Failure (List Char) :=
  match takeInteger text with
  | .error f => .error { f with cause := .badNumber }
  | .ok (_, '.' :: rest) =>
      match rest with
      | d :: _ =>
          if d.isDigit then skipScale (rest.dropWhile Char.isDigit)
          else .error (.atNext .badNumber rest)
      | [] => .error (.atNext .badNumber [])
  | .ok (_, rest) => skipScale rest

end CheckWorker.Json
