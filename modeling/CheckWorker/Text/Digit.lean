/-!
# Decimal digits

A digit is a character of the Unicode general category Nd (decimal number). These come in runs of
ten, zero first, so the table lists the zeros. Only the ASCII digits carry a value in this library:
a number written with others counts as unreadable.
-/

namespace CheckWorker.Text

/-- The code points of the characters that stand for zero, in ascending order. -/
def digitZeros : Array Nat :=
  #[
    0x30, 0x660, 0x6F0, 0x7C0, 0x966, 0x9E6, 0xA66, 0xAE6, 0xB66, 0xBE6, 0xC66, 0xCE6, 0xD66,
    0xDE6, 0xE50, 0xED0, 0xF20, 0x1040, 0x1090, 0x17E0, 0x1810, 0x1946, 0x19D0, 0x1A80, 0x1A90,
    0x1B50, 0x1BB0, 0x1C40, 0x1C50, 0xA620, 0xA8D0, 0xA900, 0xA9D0, 0xA9F0, 0xAA50, 0xABF0,
    0xFF10, 0x104A0, 0x10D30, 0x10D40, 0x11066, 0x110F0, 0x11136, 0x111D0, 0x112F0, 0x11450,
    0x114D0, 0x11650, 0x116C0, 0x116D0, 0x116DA, 0x11730, 0x118E0, 0x11950, 0x11BF0, 0x11C50,
    0x11D50, 0x11DA0, 0x11F50, 0x16130, 0x16A60, 0x16AC0, 0x16B50, 0x16D70, 0x1CCF0, 0x1D7CE,
    0x1D7D8, 0x1D7E2, 0x1D7EC, 0x1D7F6, 0x1E140, 0x1E2F0, 0x1E4F0, 0x1E5F1, 0x1E950, 0x1FBF0]

def isDigit (c : Char) : Bool :=
  let n := c.toNat
  if n < 0x80 then 0x30 ≤ n && n ≤ 0x39
  else digitZeros.any fun first => first ≤ n && n ≤ first + 9

theorem isDigit_of_isDigit {c : Char} (h : c.isDigit = true) : isDigit c = true := by
  have hc : 48 ≤ c.val ∧ c.val ≤ 57 := by simpa [Char.isDigit] using h
  have hl : 48 ≤ c.toNat := UInt32.le_iff_toNat_le.mp hc.1
  have hr : c.toNat ≤ 57 := UInt32.le_iff_toNat_le.mp hc.2
  simp only [isDigit]
  rw [if_pos (by omega)]
  simp [hl, hr]

/-- The value of ASCII digits read in order after a number already read, or nothing when one of the
characters is no ASCII digit. -/
def decimalFrom (value : Nat) : List Char → Option Nat
  | [] => some value
  | c :: text => if c.isDigit then decimalFrom (10 * value + (c.toNat - 48)) text else none

/-- The value of a text of ASCII digits, leading zeros allowed; the empty text has none. -/
def decimal? : List Char → Option Nat
  | [] => none
  | c :: text => decimalFrom 0 (c :: text)

end CheckWorker.Text
