/-!
# Log levels

A level says how grave a line of the log is. A threshold is the least grave level that is let
through, or none if nothing is.
-/

namespace CheckWorker

inductive Level
  | error
  | warn
  | info
  | debug
  | trace
  deriving DecidableEq

abbrev Threshold := Option Level

namespace Level

def depth : Level → Nat
  | .error => 1
  | .warn => 2
  | .info => 3
  | .debug => 4
  | .trace => 5

def column : Level → String
  | .error => "ERROR"
  | .warn => " WARN"
  | .info => " INFO"
  | .debug => "DEBUG"
  | .trace => "TRACE"

def passes (l : Level) : Threshold → Bool
  | none => false
  | some t => l.depth ≤ t.depth

end Level

namespace Threshold

/-- The threshold at a depth; at depth zero nothing is let through. -/
def atDepth? : Nat → Option Threshold
  | 0 => some none
  | 1 => some (some .error)
  | 2 => some (some .warn)
  | 3 => some (some .info)
  | 4 => some (some .debug)
  | 5 => some (some .trace)
  | _ => none

def ofWord? : List Char → Option Threshold
  | ['o', 'f', 'f'] => some none
  | ['e', 'r', 'r', 'o', 'r'] => some (some .error)
  | ['w', 'a', 'r', 'n'] => some (some .warn)
  | ['i', 'n', 'f', 'o'] => some (some .info)
  | ['d', 'e', 'b', 'u', 'g'] => some (some .debug)
  | ['t', 'r', 'a', 'c', 'e'] => some (some .trace)
  | _ => none

def unsigned : List Char → List Char
  | '+' :: digits => digits
  | digits => digits

def depthOf? (digits : List Char) : Option Nat :=
  if digits ≠ [] ∧ digits.all Char.isDigit then
    some (digits.foldl (fun n c => 10 * n + (c.toNat - '0'.toNat)) 0)
  else none

/-- The threshold that a text names, as a word in either case or as a depth. -/
def ofText? (text : List Char) : Option Threshold :=
  ofWord? (text.map Char.toLower) <|> (depthOf? (unsigned text)).bind atDepth?

example : ofText? "Warn".toList = some (some .warn) := by decide
example : ofText? "0".toList = some none := by decide
example : ofText? "6".toList = none := by decide

end Threshold

end CheckWorker
