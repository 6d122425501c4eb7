import CheckWorker.Json.Token

/-!
# Passing over a value

A value that is not kept must still be well formed, but less is asked of it: numbers may be too
large, halves of surrogate pairs may stand alone, and it may be nested to any depth. The brackets
that are open are therefore kept on a list of their own.
-/

namespace CheckWorker.Json

inductive Bracket
  | array
  | object
  deriving DecidableEq

def Bracket.close : Bracket → Char
  | .array => ']'
  | .object => '}'

def Bracket.cut : Bracket → Cause
  | .array => .endInArray
  | .object => .endInObject

/-- The cause when neither a comma nor the closing bracket follows a value. -/
def Bracket.unclosed : Bracket → Cause
  | .array => .noArrayEnd
  | .object => .noObjectEnd

def takeColon (text : List Char) : Except Failure (List Char) :=
  match skipSpace text with
  | [] => .error (.atNext .endInObject [])
  | c :: rest => if c = ':' then .ok rest else .error (.atNext .noColon (c :: rest))

/-- Passes over what comes before a value between brackets: a key and its colon in an object. -/
def skipLead : Bracket → List Char → Except Failure (List Char)
  | .array, text => .ok text
  | .object, text =>
      match skipSpace text with
      | [] => .error (.atNext .endInObject [])
      | c :: rest =>
          if c = '"' then skipText rest >>= takeColon else .error (.atNext .noKey (c :: rest))

/-- Where a passage stands: before a value, or after one. -/
inductive Passage
  | value
  | after

/-- Passes over a value that is neither array nor object and starts with `c`. -/
def skipScalar (c : Char) (rest : List Char) : Except Failure (List Char) :=
  if c = 'n' then takeWord ['u', 'l', 'l'] rest
  else if c = 't' then takeWord ['r', 'u', 'e'] rest
  else if c = 'f' then takeWord ['a', 'l', 's', 'e'] rest
  else if c = '-' then skipNumber rest
  else if c.isDigit then skipNumber (c :: rest)
  else if c = '"' then skipText rest
  else .error (.atNext .noValue (c :: rest))

/-- Passes over an opening bracket's first blanks; `none` when the bracket closes there. -/
def skipOpening (b : Bracket) (text : List Char) :
    Except Failure (Passage × List Char) :=
  match skipSpace text with
  | [] => .error (.atNext b.cut [])
  | c :: rest =>
      if c = b.close then .ok (.after, rest)
      else (skipLead b (c :: rest)).map fun rest => (.value, rest)

/-- One step of a passage: the brackets open after it, and where it stands. -/
def skipStep (p : Passage) (opened : List Bracket) (text : List Char) :
    Except Failure (Passage × List Bracket × List Char) :=
  match p, opened, skipSpace text with
  | .value, _, [] => .error (.atNext .endInValue [])
  | .value, opened, c :: rest =>
      let enter (b : Bracket) : Except Failure (Passage × List Bracket × List Char) := do
        let (p, rest) ← skipOpening b rest
        return (p, match p with | .value => b :: opened | .after => opened, rest)
      if c = '[' then enter .array
      else if c = '{' then enter .object
      else (skipScalar c rest).map fun rest => (.after, opened, rest)
  | .after, [], rest => .ok (.after, [], rest)
  | .after, b :: _, [] => .error (.atNext b.cut [])
  | .after, b :: opened, c :: rest =>
      if c = ',' then (skipLead b rest).map fun rest => (.value, b :: opened, rest)
      else if c = b.close then .ok (.after, opened, rest)
      else .error (.atNext b.unclosed (c :: rest))

/-- Passes on until no bracket is open. Every step takes at least one character, so as many steps as
`steps` has characters suffice when `text` is no longer. -/
def skipFrom (p : Passage) (opened : List Bracket) :
    (steps text : List Char) → Except Failure (List Char)
  | [], text =>
      match p, opened with
      | .after, [] => .ok text
      | .after, b :: _ => .error (.atNext b.cut text)
      | .value, _ => .error (.atNext .endInValue text)
  | _ :: steps, text =>
      match p, opened with
      | .after, [] => .ok text
      | p, opened => do
          let (p, opened, text) ← skipStep p opened text
          skipFrom p opened steps text

def skipValue (text : List Char) : Except Failure (List Char) :=
  skipFrom .value [] text text

end CheckWorker.Json
