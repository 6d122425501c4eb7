/-!
# Double-precision numbers

A double is a sign, a mantissa below `2 ^ 53` and a binary exponent of at least `-1074`; its value
is the mantissa times two to the exponent. Arithmetic is exact on natural numbers and then rounded
to the nearest double, a tie going to the even mantissa. A double is written with the fewest digits
that are read back as that double, the nearest of them where several would do.
-/

namespace CheckWorker.Json

structure Double where
  negative : Bool
  mantissa : Nat
  exponent : Int
  deriving DecidableEq

namespace Double

def floorExponent : Int :=
  -1074

def ceilExponent : Int :=
  971

def leastFull : Nat :=
  4503599627370496

def zeroOf (negative : Bool) : Double :=
  ⟨negative, 0, floorExponent⟩

def isZero (d : Double) : Bool :=
  d.mantissa == 0

/-- `a / b` rounded to the nearest natural number, a tie going to the even one. -/
def roundQuotient (a b : Nat) : Nat :=
  let q := a / b
  let twice := 2 * (a % b)
  if twice < b then q
  else if b < twice then q + 1
  else if q % 2 = 0 then q
  else q + 1

def divPowTwo (a b : Nat) (e : Int) : Nat × Nat :=
  if 0 ≤ e then (a, b * Nat.pow 2 e.toNat) else (a * Nat.pow 2 (-e).toNat, b)

/-- The double nearest to `a / b`, or nothing when that is beyond the greatest double. -/
def ofFraction? (negative : Bool) (a b : Nat) : Option Double :=
  if a = 0 then some (zeroOf negative)
  else
    let guess : Int := max ((a.log2 : Int) - b.log2 - 52) floorExponent
    let (num, den) := divPowTwo a b guess
    let e := if num / den < leastFull ∧ floorExponent < guess then guess - 1 else guess
    let (num, den) := divPowTwo a b e
    let m := roundQuotient num den
    let (m, e) := if m = 2 * leastFull then (leastFull, e + 1) else (m, e)
    if e ≤ ceilExponent then some ⟨negative, m, e⟩ else none

def ofNat? (n : Nat) : Option Double :=
  ofFraction? false n 1

def fraction (d : Double) : Nat × Nat :=
  divPowTwo d.mantissa 1 (-d.exponent)

/-- The product of the magnitudes, or nothing when it is too large. -/
def mul? (x y : Double) : Option Double :=
  let (a, b) := x.fraction
  let (c, d) := y.fraction
  ofFraction? false (a * c) (b * d)

/-- The quotient of the magnitudes, or nothing when it is too large. -/
def div? (x y : Double) : Option Double :=
  let (a, b) := x.fraction
  let (c, d) := y.fraction
  ofFraction? false (a * d) (b * c)

def greatestPower : Nat :=
  308

def powTen? (k : Nat) : Option Double :=
  ofNat? (Nat.pow 10 k)

/-- The magnitude `x` divided by ten to the `k`, in steps of the greatest power of ten. -/
def shrink? (x : Double) (k : Nat) : Option Double :=
  if k ≤ greatestPower then powTen? k >>= div? x
  else if x.isZero then some x
  else do shrink? (← div? x (← powTen? greatestPower)) (k - greatestPower)
termination_by k
decreasing_by simp_all [greatestPower]; omega

def grow? (x : Double) (k : Nat) : Option Double :=
  if k ≤ greatestPower then powTen? k >>= mul? x
  else if x.isZero then some x
  else none

/-- The double that stands for `significand` times ten to the `exponent`: the significand is rounded
to a double first, and the scaling rounds again. -/
def ofDecimal? (negative : Bool) (significand : Nat) (exponent : Int) : Option Double := do
  let x ← ofNat? significand
  let d ← if 0 ≤ exponent then grow? x exponent.toNat else shrink? x (-exponent).toNat
  return { d with negative }

/-- The greatest `t` with ten to the `t` at most `a / b`, for a positive fraction. -/
def decimalExponent (a b : Nat) : Int :=
  let guess : Int := ((a.log2 : Int) - b.log2) * 30103 / 100000 - 1
  let atMost (t : Int) : Bool :=
    if 0 ≤ t then Nat.pow 10 t.toNat * b ≤ a else b ≤ a * Nat.pow 10 (-t).toNat
  if atMost (guess + 2) then guess + 2 else if atMost (guess + 1) then guess + 1 else guess

/-- The digits of a positive double and the power of ten that they count: of the decimals with
`17 - left` digits and fewer than eighteen, the first grid with one that reads back, and on it the
nearer of the value's two neighbours. -/
def shortestFrom (d : Double) : Nat → Nat × Int
  | 0 => (0, 0)
  | left + 1 =>
      let n : Nat := 17 - left
      let (a, b) := divPowTwo (4 * d.mantissa) 1 (2 - d.exponent)
      let p : Int := decimalExponent a b - (n - 1 : Nat)
      -- In units of a quarter of the last place, over ten to the `p`.
      let inUnits (quarters : Nat) : Nat × Nat :=
        let (x, y) := divPowTwo quarters 1 (2 - d.exponent)
        if 0 ≤ p then (x, y * Nat.pow 10 p.toNat) else (x * Nat.pow 10 (-p).toNat, y)
      let (v, den) := inUnits (4 * d.mantissa)
      let below := if d.mantissa = leastFull ∧ floorExponent < d.exponent then 1 else 2
      let low := (inUnits (4 * d.mantissa - below)).1
      let high := (inUnits (4 * d.mantissa + 2)).1
      let within (k : Nat) : Bool :=
        if d.mantissa % 2 = 0 then low ≤ k * den && k * den ≤ high
        else low < k * den && k * den < high
      let k := v / den
      match within k, within (k + 1) with
      | true, true =>
          let twice := 2 * (v % den)
          (if twice < den || (twice == den && k % 2 == 0) then k else k + 1, p)
      | true, false => (k, p)
      | false, true => (k + 1, p)
      | false, false => shortestFrom d left

/-- The digits of a number without its trailing zeros, and how many those were. -/
def stripZeros (digits : List Char) : List Char × Nat :=
  let back := digits.reverse
  ((back.dropWhile (· == '0')).reverse, (back.takeWhile (· == '0')).length)

/-- A magnitude with these digits, times ten to the `p`, as text. The text is positional, with at
least one decimal, when the decimal exponent is between -5 and 15. -/
def layOut (digits : List Char) (p : Int) : List Char :=
  let point : Int := digits.length + p
  if 0 ≤ p ∧ point ≤ 16 then digits ++ List.replicate p.toNat '0' ++ ['.', '0']
  else if 0 < point ∧ point ≤ 16 then
    digits.take point.toNat ++ '.' :: digits.drop point.toNat
  else if -5 < point ∧ point ≤ 0 then
    '0' :: '.' :: (List.replicate (-point).toNat '0' ++ digits)
  else
    let decimals := match digits with
      | [] => []
      | [c] => [c]
      | c :: rest => c :: '.' :: rest
    let x := point - 1
    decimals ++ 'e' :: (if 0 ≤ x then '+' else '-') :: Nat.toDigits 10 x.natAbs

def text (d : Double) : String :=
  let magnitude :=
    if d.isZero then ['0', '.', '0']
    else
      let (k, p) := shortestFrom d 17
      let (digits, zeros) := stripZeros (Nat.toDigits 10 k)
      layOut digits (p + zeros)
  String.ofList (if d.negative then '-' :: magnitude else magnitude)

example : (ofDecimal? false 15 (-1)).map text = some "1.5" := by decide +kernel
example : (ofDecimal? false 1 20).map text = some "1e+20" := by decide +kernel
example : (ofDecimal? false 5 (-324)).map text = some "5e-324" := by decide +kernel
example : ofDecimal? false 1 309 = none := by decide +kernel

end Double

end CheckWorker.Json
