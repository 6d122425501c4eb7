import CheckWorker.Text.Blank
import CheckWorker.Text.Digit

/-!
# The pattern of a report line

The form of a report line can also be told by a pattern. Matching a pattern means to choose: how
long a run is, whether an optional part is there, which of several words it is. `Pattern.ways` lists
all ways to match the beginning of a text, the preferred ones first, and a line is read in the first
way that reaches its end. This says what a reading is without saying how it is found.
-/

namespace CheckWorker.Report

/-- The parts of a line that its pattern names. -/
inductive Part
  | file
  | line
  | column
  | severity
  | message
  | code
  deriving DecidableEq

abbrev Captures := List (Part × List Char)

inductive Pattern
  | nothing
  | one (kind : Char → Bool)
  /-- Characters of a kind, as many as possible or as few as possible. -/
  | many (greedy : Bool) (kind : Char → Bool)
  | andThen (p q : Pattern)
  /-- The first pattern is preferred. -/
  | orElse (p q : Pattern)
  | part (name : Part) (p : Pattern)
  | atEnd

namespace Pattern

/-- What may be left of a text after a run of characters of a kind, in order of preference. -/
def runs (greedy : Bool) (kind : Char → Bool) : List Char → List (List Char)
  | [] => [[]]
  | c :: text =>
      if !kind c then [c :: text]
      else if greedy then runs greedy kind text ++ [c :: text]
      else (c :: text) :: runs greedy kind text

/-- The ways to match the beginning of a text, in order of preference: the parts, and what is left.
-/
def ways : Pattern → List Char → List (Captures × List Char)
  | nothing, text => [([], text)]
  | one _, [] => []
  | one kind, c :: text => if kind c then [([], text)] else []
  | many greedy kind, text => (runs greedy kind text).map fun rest => ([], rest)
  | andThen p q, text =>
      (p.ways text).flatMap fun (found, rest) =>
        (q.ways rest).map fun (more, rest) => (found ++ more, rest)
  | orElse p q, text => p.ways text ++ q.ways text
  | part name p, text =>
      (p.ways text).map fun (found, rest) =>
        ((name, text.take (text.length - rest.length)) :: found, rest)
  | atEnd, text => if text.isEmpty then [([], [])] else []

def first? (p : Pattern) (text : List Char) : Option Captures :=
  (p.ways text).head?.map Prod.fst

def inOrder : List Pattern → Pattern
  | [] => nothing
  | [p] => p
  | p :: ps => andThen p (inOrder ps)

def maybe (p : Pattern) : Pattern :=
  orElse p nothing

def literal (c : Char) : Pattern :=
  one (· == c)

def some (kind : Char → Bool) : Pattern :=
  andThen (one kind) (many true kind)

def word (w : String) : Pattern :=
  inOrder (w.toList.map fun x => one fun c => c.toLower == x)

def severityWord : Pattern :=
  orElse (word "error") (orElse (word "note") (word "warning"))

def isInLine (c : Char) : Bool :=
  c != '\n'

def isInCode (c : Char) : Bool :=
  ('a' ≤ c && c ≤ 'z') || ('0' ≤ c && c ≤ '9') || c == '-'

def numberPart (name : Part) : Pattern :=
  andThen (part name (some Text.isDigit)) (literal ':')

def codePart : Pattern :=
  inOrder [some Text.isBlank, literal '[', part .code (some isInCode), literal ']']

def line : Pattern :=
  inOrder [
    part .file (many false isInLine),
    literal ':',
    numberPart .line,
    maybe (numberPart .column),
    many true Text.isBlank,
    maybe (andThen (part .severity severityWord) (literal ':')),
    many true Text.isBlank,
    part .message (many false isInLine),
    maybe codePart,
    atEnd]

end Pattern

end CheckWorker.Report
