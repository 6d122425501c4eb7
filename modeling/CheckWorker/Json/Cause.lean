import CheckWorker.Json.Value

/-!
# Why a JSON text is refused

A cause is either a fault of form, which any reader of the text would find, or a fault of shape: the
text is JSON but not what was expected there.
-/

namespace CheckWorker.Json

inductive Cause
  | endInValue
  | endInText
  | endInArray
  | endInObject
  | noValue
  /-- A word other than null, true and false. -/
  | noWord
  | noColon
  | noArrayEnd
  | noObjectEnd
  | noKey
  | trailingComma
  | trailing
  | badNumber
  | numberTooLarge
  | badEscape
  | controlInText
  /-- A surrogate that no first half precedes, or a first half that no second half follows. -/
  | loneSurrogate
  /-- The first half of a pair of surrogates with no escape behind it. -/
  | halfPair
  | tooDeep
  | wrongKind (found : Found) (expected : String)
  | wrongValue (found : Found) (expected : String)
  | wrongLength (length : Nat) (expected : String)
  | missing (field : String)
  | duplicate (field : String)
  | unknownChoice (name : String) (choices : List String)
  deriving DecidableEq

/-- Names between backticks, as a choice: one, one of two, or one of several. -/
def choiceText : List String → String
  | [] => "there are no variants"
  | [a] => ticked a
  | [a, b] => ticked a ++ " or " ++ ticked b
  | names => "one of " ++ ", ".intercalate (names.map ticked)

def Cause.message : Cause → String
  | .endInValue => "EOF while parsing a value"
  | .endInText => "EOF while parsing a string"
  | .endInArray => "EOF while parsing a list"
  | .endInObject => "EOF while parsing an object"
  | .noValue => "expected value"
  | .noWord => "expected ident"
  | .noColon => "expected " ++ ticked ":"
  | .noArrayEnd => "expected " ++ ticked "," ++ " or " ++ ticked "]"
  | .noObjectEnd => "expected " ++ ticked "," ++ " or " ++ ticked "\x7d"
  | .noKey => "key must be a string"
  | .trailingComma => "trailing comma"
  | .trailing => "trailing characters"
  | .badNumber => "invalid number"
  | .numberTooLarge => "number out of range"
  | .badEscape => "invalid escape"
  | .controlInText => "control character (\\u0000-\\u001F) found while parsing a string"
  | .loneSurrogate => "lone leading surrogate in hex escape"
  | .halfPair => "unexpected end of hex escape"
  | .tooDeep => "recursion limit exceeded"
  | .wrongKind found expected => "invalid type: " ++ found.message ++ ", expected " ++ expected
  | .wrongValue found expected => "invalid value: " ++ found.message ++ ", expected " ++ expected
  | .wrongLength n expected => "invalid length " ++ toString n ++ ", expected " ++ expected
  | .missing field => "missing field " ++ ticked field
  | .duplicate field => "duplicate field " ++ ticked field
  | .unknownChoice name choices =>
      "unknown variant " ++ ticked name ++ ", expected " ++ choiceText choices

/-- A line of a text and the number of bytes on it up to some place, both as a reader counts: the
first line is one. -/
structure Place where
  line : Nat
  column : Nat
  deriving DecidableEq

/-- The place after the first `bytes` bytes of a text, when `place` was reached before it. -/
def Place.after (place : Place) (bytes : Nat) : List Char → Place
  | [] => place
  | c :: text =>
      if bytes = 0 then place
      else if c = '\n' then Place.after ⟨place.line + 1, 0⟩ (bytes - 1) text
      else Place.after ⟨place.line, place.column + min c.utf8Size bytes⟩ (bytes - c.utf8Size) text

def byteCount (n : Nat) : List Char → Nat
  | [] => n
  | c :: text => byteCount (n + c.utf8Size) text

/-- A refusal met while reading: the cause, the text left, and how many bytes of it were looked at
to find the fault. -/
structure Failure where
  cause : Cause
  rest : List Char
  ahead : Nat := 0
  deriving DecidableEq

def Failure.place (f : Failure) (text : List Char) : Place :=
  let offset := byteCount 0 text - byteCount 0 f.rest + f.ahead
  Place.after ⟨1, 0⟩ offset text

def Failure.message (f : Failure) (text : List Char) : String :=
  let place := f.place text
  f.cause.message ++ " at line " ++ toString place.line ++ " column " ++ toString place.column

abbrev Reader (α : Type) :=
  List Char → Except Failure (α × List Char)

end CheckWorker.Json
