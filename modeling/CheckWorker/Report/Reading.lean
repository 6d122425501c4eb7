import CheckWorker.Report.Diagnostic
import CheckWorker.Text.Blank
import CheckWorker.Text.Digit
import CheckWorker.Text.Lines

/-!
# Reading a report

A report is read line by line. A line is a diagnostic when a number between colons stands in it:
what is before is the file, the number is the line, and the rest is read from left to right: a
column if a number and a colon follow at once, blanks, a severity word with its colon, blanks, and
then the message, with a code at its end if the last word is one in brackets.

A message stays on one line. A text that holds line feeds can therefore be refused at one number and
read at a later one; on a single line the first number between colons always decides.
-/

namespace CheckWorker

open Text

namespace Report

/-- A number that a colon ends, at the front of a text, and what follows the colon. -/
def number? (text : List Char) : Option (List Char × List Char) :=
  match text.takeWhile isDigit, text.dropWhile isDigit with
  | d :: digits, ':' :: rest => some (d :: digits, rest)
  | _, _ => none

/-- The value of a position: numbers that are zero, too large or not written in ASCII digits count
as one. -/
def position (digits : List Char) : UInt32 :=
  match decimal? digits with
  | some n => if 0 < n ∧ n < UInt32.size then UInt32.ofNat n else 1
  | none => 1

/-- A severity word that a colon ends, at the front of a text, and what follows the colon. -/
def severity? (text : List Char) : Option (Severity × List Char) :=
  Severity.all.findSome? fun s =>
    let n := s.word.length
    match text.drop n with
    | ':' :: rest =>
        if Severity.lower (text.take n) = s.word.toList then some (s, rest) else none
    | _ => none

def isCodeChar (c : Char) : Bool :=
  ('a' ≤ c && c ≤ 'z') || ('0' ≤ c && c ≤ '9') || c == '-'

/-- A text cut into message and code. A code stands at the end, in brackets, after a blank; all the
blanks before it belong to neither part. -/
def splitCode (text : List Char) : List Char × List Char :=
  match text.reverse with
  | ']' :: back =>
      match back.takeWhile isCodeChar, back.dropWhile isCodeChar with
      | c :: code, '[' :: b :: before =>
          if isBlank b then ((before.dropWhile isBlank).reverse, (c :: code).reverse)
          else (text, [])
      | _, _ => (text, [])
  | _ => (text, [])

structure Body where
  severity : Severity
  message : List Char
  code : List Char
  deriving DecidableEq

/-- The body of a line, refused when its message would hold a line feed. -/
def body? (text : List Char) : Option Body :=
  let text := trimStart text
  let (severity, text) := (severity? text).getD (.standard, text)
  let (message, code) := splitCode (trimStart text)
  if '\n' ∈ message then none else some ⟨severity, message, code⟩

/-- The diagnostic of a line when the file, held backwards, and the colon after it have been read.
-/
def afterFile? (file text : List Char) : Option Diagnostic := do
  let (line, text) ← number? text
  let (column, text) := (number? text).getD ([], text)
  let body ← body? text
  return {
    file := if file.isEmpty then Diagnostic.standardFile else String.ofList file.reverse
    line := position line
    column := position column
    severity := body.severity
    message := String.ofList body.message
    code := String.ofList body.code }

/-- The diagnostic of a line, when `file`, held backwards, has been read of it. The file is as short
as possible and holds no line feed. -/
def diagnosticFrom (file : List Char) : List Char → Option Diagnostic
  | [] => none
  | c :: text =>
      match if c = ':' then afterFile? file text else none with
      | some d => some d
      | none => if c = '\n' then none else diagnosticFrom (c :: file) text

end Report

def Diagnostic.ofLine? (line : String) : Option Diagnostic :=
  Report.diagnosticFrom [] line.toList

/-- The diagnostics that a report holds, in order. Other lines are passed over. -/
def Diagnostic.ofReport (text : String) : List Diagnostic :=
  text.textLines.filterMap ofLine?

end CheckWorker
