/-!
# Severities

Three words say how grave a finding is. They are read in any mixture of ASCII cases and written in
lower case.
-/

namespace CheckWorker

inductive Severity
  | error
  | note
  | warning
  deriving DecidableEq

namespace Severity

/-- The severity of a finding that states none. -/
def standard : Severity :=
  .error

def word : Severity → String
  | .error => "error"
  | .note => "note"
  | .warning => "warning"

def all : List Severity :=
  [.error, .note, .warning]

theorem mem_all (s : Severity) : s ∈ all := by
  cases s <;> decide

/-- Lower case for the ASCII letters, all else unchanged. -/
def lower (text : List Char) : List Char :=
  text.map Char.toLower

def ofText? (text : List Char) : Option Severity :=
  all.find? fun s => s.word.toList == lower text

theorem ofText?_word (s : Severity) : ofText? s.word.toList = some s := by
  cases s <;> decide

def refusal (word : String) : String :=
  "Invalid severity: '" ++ word ++ "'. Expected: error, note, or warning"

end Severity

end CheckWorker
