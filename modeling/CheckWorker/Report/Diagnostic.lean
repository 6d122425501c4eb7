import CheckWorker.Report.Severity

/-!
# Diagnostics

A diagnostic is one finding of a type checker: where it is, how grave, what it says, and a code when
the checker gave one.
-/

namespace CheckWorker

structure Diagnostic where
  file : String
  line : UInt32
  column : UInt32
  severity : Severity
  message : String
  /-- Empty when the finding has no code. -/
  code : String
  deriving DecidableEq

namespace Diagnostic

def standardFile : String :=
  "snippet.py"

/-- The code behind a message, in brackets and set off by two spaces. -/
def codeText (code : String) : String :=
  if code.isEmpty then "" else "  [" ++ code ++ "]"

def bodyText (d : Diagnostic) : String :=
  d.severity.word ++ ": " ++ d.message ++ codeText d.code

def toLine (d : Diagnostic) : String :=
  d.file ++ ":" ++ toString d.line.toNat ++ ":" ++ toString d.column.toNat ++ ": " ++ d.bodyText

def toLineWithoutColumn (d : Diagnostic) : String :=
  d.file ++ ":" ++ toString d.line.toNat ++ ": " ++ d.bodyText

end Diagnostic

end CheckWorker
