import CheckWorker.Json.Token

/-!
# Numbers as written

A number is written as an optional minus, whole digits, optional decimals behind a point and an
optional exponent. `Numeral` holds these parts and `Numeral.number?` is the number that they stand
for, unless that is out of range. Reading a number finds exactly this, whatever value or bracket is
behind it: the text is left as it was behind the last digit.

Results are compared without their faults: two readers agree if they succeed on the same texts with
the same data.
-/

namespace CheckWorker.Json

/-! ## Results without their faults -/

section

variable {ε α β : Type}

@[simp] theorem toOption_ok (a : α) : (Except.ok a : Except ε α).toOption = some a := rfl

@[simp] theorem toOption_error (e : ε) : (Except.error e : Except ε α).toOption = none := rfl

theorem toOption_bind (x : Except ε α) (f : α → Except ε β) :
    (x >>= f).toOption = x.toOption.bind fun a => (f a).toOption := by
  cases x <;> rfl

theorem toOption_map (f : α → β) (x : Except ε α) :
    (x.map f).toOption = x.toOption.map f := by
  cases x <;> rfl

theorem toOption_eq_some_iff {x : Except ε α} {a : α} : x.toOption = some a ↔ x = .ok a := by
  cases x <;> simp

end

/-! ## The parts of a number -/

/-- An exponent: its mark, its sign if it has one, and its digits. -/
structure Scale where
  mark : Char
  sign : Option Char
  digits : List Char
  mark_eq : mark = 'e' ∨ mark = 'E'
  sign_eq : ∀ c ∈ sign, c = '+' ∨ c = '-'
  digits_ne : digits ≠ []
  isDigit_digits : ∀ c ∈ digits, c.isDigit = true

/-- The number that digits stand for behind others that stand for `value`. -/
def valueFrom (value : Nat) (digits : List Char) : Nat :=
  digits.foldl (fun n c => n * 10 + digitValue c) value

structure Numeral where
  negative : Bool
  whole : List Char
  decimals : List Char
  scale : Option Scale
  whole_ne : whole ≠ []
  isDigit_whole : ∀ c ∈ whole, c.isDigit = true
  /-- A zero in front of other digits is not written. -/
  whole_eq_zero : whole.head? = some '0' → whole = ['0']
  isDigit_decimals : ∀ c ∈ decimals, c.isDigit = true

def Scale.text (s : Scale) : List Char :=
  s.mark :: (s.sign.toList ++ s.digits)

/-- The text of a number behind its sign. -/
def Numeral.unsigned (m : Numeral) : List Char :=
  m.whole ++ ((if m.decimals = [] then [] else '.' :: m.decimals) ++
    (m.scale.map Scale.text).getD [])

def Numeral.text (m : Numeral) : List Char :=
  if m.negative then '-' :: m.unsigned else m.unsigned

/-- A significand times ten to the exponent, scaled once more. An exponent beyond the greatest makes
the number zero if it points down or the significand is zero, and puts it out of range otherwise. -/
def double? (negative : Bool) (significand : Nat) (exponent : Int) : Option Scale → Option Number
  | none => (Double.ofDecimal? negative significand exponent).map .double
  | some s =>
      if valueFrom 0 s.digits ≤ maxExponent then
        (Double.ofDecimal? negative significand
          (if s.sign = some '-' then exponent - valueFrom 0 s.digits
            else exponent + valueFrom 0 s.digits)).map .double
      else if significand ≠ 0 ∧ s.sign ≠ some '-' then none
      else some (.double (.zeroOf negative))

/-- An integer whose digits were all taken. -/
def integer? (negative : Bool) (significand : Nat) : Option Number :=
  if negative = false then some (.whole significand)
  else if 0 < significand ∧ significand ≤ maxNegative then some (.whole (-significand))
  else (Double.ofDecimal? true significand 0).map .double

/-- The number that a numeral stands for, if it is in range. A significand takes digits while it
stays exact; whole digits beyond it count as zeros, and decimals beyond it do not count. -/
def Numeral.number? (m : Numeral) : Option Number :=
  let (significand, dropped) := takeDigits 0 m.whole
  if m.decimals = [] ∧ m.scale.isNone ∧ dropped = [] then integer? m.negative significand
  else
    let (significand, left) := takeDigits significand m.decimals
    double? m.negative significand (dropped.length - (m.decimals.length - left.length : Nat))
      m.scale

/-- What may stand behind a value: nothing, or a text that starts with a blank, a comma or a closing
bracket. -/
def Ends (rest : List Char) : Prop :=
  ∀ c ∈ rest.head?, isSpace c = true ∨ c = ',' ∨ c = ']' ∨ c = '}'

/-- No digit stands first. -/
def NoDigit (rest : List Char) : Prop :=
  ∀ c ∈ rest.head?, c.isDigit = false

/-! ## Reading the parts -/

theorem Ends.ne {c : Char} {rest : List Char} (h : Ends (c :: rest)) :
    c.isDigit = false ∧ c ≠ '.' ∧ c ≠ 'e' ∧ c ≠ 'E' := by
  have hc := h c rfl
  simp only [isSpace, Bool.or_eq_true, decide_eq_true_eq] at hc
  rcases hc with ((((rfl | rfl) | rfl) | rfl) | rfl | rfl | rfl) <;> decide

theorem Ends.noDigit {rest : List Char} (h : Ends rest) : NoDigit rest := by
  intro c hc
  cases rest with
  | nil => cases hc
  | cons d rest =>
      cases hc
      exact h.ne.1

theorem takeWhile_isDigit_append {digits rest : List Char} (h : ∀ c ∈ digits, c.isDigit = true)
    (hrest : NoDigit rest) : (digits ++ rest).takeWhile Char.isDigit = digits := by
  rw [List.takeWhile_append_of_pos h]
  cases rest with
  | nil => simp
  | cons c rest => simp [hrest c rfl]

theorem dropWhile_isDigit_append {digits rest : List Char} (h : ∀ c ∈ digits, c.isDigit = true)
    (hrest : NoDigit rest) : (digits ++ rest).dropWhile Char.isDigit = rest := by
  rw [List.dropWhile_append_of_pos h]
  cases rest with
  | nil => rfl
  | cons c rest => simp [hrest c rfl]

theorem toOption_doubleOf (negative : Bool) (significand : Nat) (exponent : Int)
    (rest : List Char) :
    (doubleOf negative significand exponent rest).toOption =
      (double? negative significand exponent none).map fun n => (n, rest) := by
  rw [doubleOf, double?]
  cases Double.ofDecimal? negative significand exponent <;> rfl

theorem le_valueFrom (value : Nat) (digits : List Char) : value ≤ valueFrom value digits := by
  induction digits generalizing value with
  | nil => exact Nat.le_refl value
  | cons c digits ih =>
      have hstep : value ≤ value * 10 + digitValue c := by omega
      exact Nat.le_trans hstep (ih (value * 10 + digitValue c))

theorem exponentFrom_of_le {value : Nat} {digits rest : List Char}
    (hdigits : ∀ c ∈ digits, c.isDigit = true) (hrest : NoDigit rest)
    (hle : valueFrom value digits ≤ maxExponent) :
    exponentFrom value (digits ++ rest) = .ok (valueFrom value digits, rest) := by
  induction digits generalizing value with
  | nil =>
      cases rest with
      | nil => rfl
      | cons c rest => simp [exponentFrom, hrest c rfl, valueFrom]
  | cons c digits ih =>
      have hc : c.isDigit = true := hdigits c (by simp)
      have hstep : value * 10 + digitValue c ≤ maxExponent :=
        Nat.le_trans (le_valueFrom _ digits) hle
      have htail : ∀ d ∈ digits, d.isDigit = true := fun d hd => hdigits d (by simp [hd])
      rw [List.cons_append, exponentFrom, if_pos hc, if_pos hstep, ih htail hle]
      rfl

theorem exponentFrom_of_lt {value : Nat} {digits : List Char} (rest : List Char)
    (hdigits : ∀ c ∈ digits, c.isDigit = true) (hvalue : value ≤ maxExponent)
    (hlt : maxExponent < valueFrom value digits) :
    ∃ left, exponentFrom value (digits ++ rest) = .error (left ++ rest) ∧
      ∀ c ∈ left, c.isDigit = true := by
  induction digits generalizing value with
  | nil => exact absurd hlt (Nat.not_lt.mpr hvalue)
  | cons c digits ih =>
      have hc : c.isDigit = true := hdigits c (by simp)
      have htail : ∀ d ∈ digits, d.isDigit = true := fun d hd => hdigits d (by simp [hd])
      rw [List.cons_append, exponentFrom, if_pos hc]
      by_cases hstep : value * 10 + digitValue c ≤ maxExponent
      · rw [if_pos hstep]
        exact ih htail hstep hlt
      · rw [if_neg hstep]
        exact ⟨digits, rfl, htail⟩

theorem ne_sign {c : Char} (h : c.isDigit = true) : c ≠ '+' ∧ c ≠ '-' := by
  constructor <;>
    · rintro rfl
      revert h
      decide

theorem digitValue_le {c : Char} (h : c.isDigit = true) : digitValue c ≤ maxExponent := by
  have hc : 48 ≤ c.val ∧ c.val ≤ 57 := by simpa [Char.isDigit] using h
  have hle : c.toNat ≤ 57 := UInt32.le_iff_toNat_le.mp hc.2
  rw [digitValue, maxExponent]
  omega

section

variable {negative : Bool} {significand : Nat} {exponent : Int} {sign : Option Char} {c : Char}
  {text rest : List Char}

theorem takeExponent_of_ok (hsign : ∀ c ∈ sign, c = '+' ∨ c = '-') (hc : c.isDigit = true) {n : Nat}
    (h : exponentFrom (digitValue c) text = .ok (n, rest)) :
    takeExponent negative significand exponent (sign.toList ++ c :: text) =
      doubleOf negative significand (if sign = some '-' then exponent - n else exponent + n)
        rest := by
  cases sign with
  | none =>
      simp [takeExponent, hc, ne_sign hc, h]
  | some sign => rcases hsign sign rfl with rfl | rfl <;> simp [takeExponent, hc, h]

theorem takeExponent_of_error (hsign : ∀ c ∈ sign, c = '+' ∨ c = '-') (hc : c.isDigit = true)
    (h : exponentFrom (digitValue c) text = .error rest) :
    takeExponent negative significand exponent (sign.toList ++ c :: text) =
      if significand ≠ 0 ∧ sign ≠ some '-' then .error (.before .numberTooLarge rest)
      else .ok (.double (.zeroOf negative), rest.dropWhile Char.isDigit) := by
  cases sign with
  | none =>
      simp [takeExponent, hc, ne_sign hc, h]
  | some sign => rcases hsign sign rfl with rfl | rfl <;> simp [takeExponent, hc, h]

end

/-- An exponent is read behind its mark. -/
theorem toOption_takeExponent (negative : Bool) (significand : Nat) (exponent : Int) (s : Scale)
    {rest : List Char} (hrest : NoDigit rest) :
    (takeExponent negative significand exponent (s.sign.toList ++ (s.digits ++ rest))).toOption =
      (double? negative significand exponent (some s)).map fun n => (n, rest) := by
  obtain ⟨c, digits, hs⟩ := List.exists_cons_of_ne_nil s.digits_ne
  have hc : c.isDigit = true := s.isDigit_digits c (by simp [hs])
  have htail : ∀ d ∈ digits, d.isDigit = true := fun d hd => s.isDigit_digits d (by simp [hs, hd])
  have hvalue : valueFrom 0 s.digits = valueFrom (digitValue c) digits := by simp [valueFrom, hs]
  rw [double?, hvalue, hs, List.cons_append]
  by_cases hle : valueFrom (digitValue c) digits ≤ maxExponent
  · rw [takeExponent_of_ok s.sign_eq hc (exponentFrom_of_le htail hrest hle), if_pos hle]
    exact toOption_doubleOf _ _ _ rest
  · obtain ⟨left, hleft, hall⟩ := exponentFrom_of_lt rest htail (digitValue_le hc)
      (Nat.lt_of_not_le hle)
    rw [takeExponent_of_error s.sign_eq hc hleft, if_neg hle, dropWhile_isDigit_append hall hrest]
    split <;> rfl

theorem toOption_takeScale (negative : Bool) (significand : Nat) (exponent : Int)
    (scale : Option Scale) {rest : List Char} (hrest : Ends rest) :
    (takeScale negative significand exponent
        ((scale.map Scale.text).getD [] ++ rest)).toOption =
      (double? negative significand exponent scale).map fun n => (n, rest) := by
  cases scale with
  | none =>
      have hopen : takeScale negative significand exponent rest =
          doubleOf negative significand exponent rest := by
        cases rest with
        | nil => rfl
        | cons c rest => simp [takeScale, hrest.ne]
      simpa [hopen] using toOption_doubleOf negative significand exponent rest
  | some s =>
      have hs := toOption_takeExponent negative significand exponent s hrest.noDigit
      rcases s.mark_eq with hmark | hmark <;> simpa [Scale.text, takeScale, hmark] using hs

/-- Nothing that goes on with the digits of a number stands behind them. -/
theorem noDigit_scale (scale : Option Scale) {rest : List Char} (hrest : Ends rest) :
    NoDigit ((scale.map Scale.text).getD [] ++ rest) := by
  cases scale with
  | none => simpa using hrest.noDigit
  | some s =>
      intro c hc
      rcases s.mark_eq with hmark | hmark <;>
        · simp [Scale.text, hmark] at hc
          subst hc
          decide

theorem toOption_takeDecimals (negative : Bool) (significand : Nat) (exponent : Int)
    {decimals : List Char} (hne : decimals ≠ []) (hdigits : ∀ c ∈ decimals, c.isDigit = true)
    (scale : Option Scale) {rest : List Char} (hrest : Ends rest) :
    (takeDecimals negative significand exponent
        (decimals ++ ((scale.map Scale.text).getD [] ++ rest))).toOption =
      (double? negative (takeDigits significand decimals).1
        (exponent - (decimals.length - (takeDigits significand decimals).2.length : Nat))
        scale).map fun n => (n, rest) := by
  have hempty : decimals.isEmpty = false := by simpa using hne
  have hscale := noDigit_scale scale hrest
  simp only [takeDecimals, takeWhile_isDigit_append hdigits hscale,
    dropWhile_isDigit_append hdigits hscale, hempty]
  exact toOption_takeScale _ _ _ scale hrest

theorem takeInteger_append {whole rest : List Char} (hne : whole ≠ [])
    (hdigits : ∀ c ∈ whole, c.isDigit = true) (hzero : whole.head? = some '0' → whole = ['0'])
    (hrest : NoDigit rest) : takeInteger (whole ++ rest) = .ok (whole, rest) := by
  obtain ⟨c, whole, rfl⟩ := List.exists_cons_of_ne_nil hne
  have hc : c.isDigit = true := hdigits c (by simp)
  have htail : ∀ d ∈ whole, d.isDigit = true := fun d hd => hdigits d (by simp [hd])
  by_cases h : c = '0'
  · subst h
    have hwhole : whole = [] := by simpa using hzero rfl
    subst hwhole
    cases rest with
    | nil => rfl
    | cons d rest => simp [takeInteger, hrest d rfl]
  · simp [takeInteger, h, hc, takeWhile_isDigit_append htail hrest,
      dropWhile_isDigit_append htail hrest]

/-! ## Reading a number -/

/-- What stands behind the whole digits of a number. -/
def Numeral.behind (m : Numeral) (rest : List Char) : List Char :=
  (if m.decimals = [] then [] else '.' :: m.decimals) ++ ((m.scale.map Scale.text).getD [] ++ rest)

theorem Numeral.unsigned_append (m : Numeral) (rest : List Char) :
    m.unsigned ++ rest = m.whole ++ m.behind rest := by
  simp [Numeral.unsigned, Numeral.behind]

theorem Numeral.takeInteger_unsigned (m : Numeral) {rest : List Char} (hrest : Ends rest) :
    takeInteger (m.unsigned ++ rest) = .ok (m.whole, m.behind rest) := by
  rw [m.unsigned_append]
  apply takeInteger_append m.whole_ne m.isDigit_whole m.whole_eq_zero
  rw [Numeral.behind]
  split
  · exact noDigit_scale m.scale hrest
  · intro c hc
    cases hc
    decide

/-- Behind whole digits that end there, a number is an integer unless digits were dropped. -/
theorem toOption_takeNumber_of_ends {negative : Bool} {text whole rest : List Char}
    (h : takeInteger text = .ok (whole, rest)) (hrest : Ends rest) :
    (takeNumber negative text).toOption =
      (if (takeDigits 0 whole).2 = [] then integer? negative (takeDigits 0 whole).1
        else double? negative (takeDigits 0 whole).1 (takeDigits 0 whole).2.length none).map
          fun n => (n, rest) := by
  rcases htaken : takeDigits 0 whole with ⟨significand, dropped⟩
  have hopen : takeNumber negative text =
      if !dropped.isEmpty then doubleOf negative significand dropped.length rest
      else if !negative then .ok (.whole significand, rest)
      else if 0 < significand ∧ significand ≤ maxNegative then .ok (.whole (-significand), rest)
      else doubleOf true significand 0 rest := by
    simp only [takeNumber, h, htaken, bind, Except.bind]
    cases rest with
    | nil => rfl
    | cons c rest => simp [hrest.ne]; rfl
  rw [hopen]
  cases dropped with
  | cons d dropped => exact toOption_doubleOf _ _ _ rest
  | nil =>
      cases negative with
      | false => rfl
      | true =>
          simp only [integer?]
          by_cases hsmall : 0 < significand ∧ significand ≤ maxNegative
          · simp [hsmall]
          · simpa [hsmall, double?] using toOption_doubleOf true significand 0 rest

/-- A number is read from its text exactly when it is in range, and as the number it stands for. -/
theorem toOption_takeNumber (m : Numeral) {rest : List Char} (hrest : Ends rest) :
    (takeNumber m.negative (m.unsigned ++ rest)).toOption = m.number?.map fun n => (n, rest) := by
  have hwhole := m.takeInteger_unsigned hrest
  by_cases hdecimals : m.decimals = []
  · cases hscale : m.scale with
    | none =>
        have hbehind : m.behind rest = rest := by simp [Numeral.behind, hdecimals, hscale]
        rw [hbehind] at hwhole
        rw [toOption_takeNumber_of_ends hwhole hrest]
        simp [Numeral.number?, hdecimals, hscale, takeDigits]
    | some s =>
        have hs := toOption_takeScale m.negative (takeDigits 0 m.whole).1
          (takeDigits 0 m.whole).2.length (some s) hrest
        simp only [takeNumber, hwhole, bind, Except.bind, Numeral.behind]
        rcases s.mark_eq with hmark | hmark <;>
          simpa [Numeral.number?, Scale.text, hmark, hdecimals, hscale, takeDigits] using hs
  · have hs := toOption_takeDecimals m.negative (takeDigits 0 m.whole).1
      (takeDigits 0 m.whole).2.length hdecimals m.isDigit_decimals m.scale hrest
    simp only [takeNumber, hwhole, bind, Except.bind, Numeral.behind]
    simpa [Numeral.number?, hdecimals] using hs

theorem skipScale_append (scale : Option Scale) {rest : List Char} (hrest : Ends rest) :
    skipScale ((scale.map Scale.text).getD [] ++ rest) = .ok rest := by
  cases scale with
  | none =>
      cases rest with
      | nil => rfl
      | cons c rest => simp [skipScale, hrest.ne]
  | some s =>
      have hskip : skipExponent (s.sign.toList ++ (s.digits ++ rest)) = .ok rest := by
        obtain ⟨c, digits, hs⟩ := List.exists_cons_of_ne_nil s.digits_ne
        have hc : c.isDigit = true := s.isDigit_digits c (by simp [hs])
        have htail : ∀ d ∈ digits, d.isDigit = true :=
          fun d hd => s.isDigit_digits d (by simp [hs, hd])
        have hdrop := dropWhile_isDigit_append htail hrest.noDigit
        cases hsign : s.sign with
        | none =>
            simp [skipExponent, hs, hc, ne_sign hc, hdrop]
        | some sign =>
            rcases s.sign_eq sign hsign with rfl | rfl <;> simp [skipExponent, hs, hc, hdrop]
      rcases s.mark_eq with hmark | hmark <;> simpa [Scale.text, skipScale, hmark] using hskip

/-- Passing over a number takes its text, in range or not. -/
theorem skipNumber_unsigned (m : Numeral) {rest : List Char} (hrest : Ends rest) :
    skipNumber (m.unsigned ++ rest) = .ok rest := by
  have hscale := skipScale_append m.scale hrest
  simp only [skipNumber, m.takeInteger_unsigned hrest, Numeral.behind]
  cases hdecimals : m.decimals with
  | nil =>
      have hdot : ∀ text, (m.scale.map Scale.text).getD [] ++ rest ≠ '.' :: text := by
        cases hs : m.scale with
        | none =>
            rintro text rfl
            exact hrest.ne.2.1 rfl
        | some s => rcases s.mark_eq with hmark | hmark <;> simp [Scale.text, hmark]
      simp only [if_true, List.nil_append]
      exact hscale
  | cons d decimals =>
      have hd : d.isDigit = true := m.isDigit_decimals d (by simp [hdecimals])
      have htail : ∀ c ∈ decimals, c.isDigit = true :=
        fun c hc => m.isDigit_decimals c (by simp [hdecimals, hc])
      have hdrop := dropWhile_isDigit_append htail (noDigit_scale m.scale hrest)
      simp [hd, hdrop, hscale]

end CheckWorker.Json
