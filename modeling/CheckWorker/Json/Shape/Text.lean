import CheckWorker.Json.Shape
import CheckWorker.Json.Reading

/-!
# Reading a shape from text

A record is an object with its fields by name, or an array with its fields in order. In an object
unknown keys are passed over and a field may be given once; in an array fields may be missing from
the end if they are optional, and nothing may follow the last.

A fault of shape is placed after what was taken to find it: after a number or word of the wrong
kind, before a bracket of the wrong kind, after the bracket that closes a record too short.
-/

namespace CheckWorker.Json

/-- The failure at a value of the wrong kind, whose blanks have been skipped. -/
def mismatch (expected : String) : List Char → Failure
  | '[' :: rest => .before (.wrongKind .sequence expected) ('[' :: rest)
  | '{' :: rest => .before (.wrongKind .map expected) ('{' :: rest)
  | text =>
      match readScalar text with
      | .ok (v, rest) => .before (.wrongKind v.found expected) rest
      | .error f => f

def Width.ofNumber (w : Width) (n : Number) : Except Cause w.Data :=
  match n with
  | .whole k =>
      match w.ofInt? k with
      | some d => .ok d
      | none => .error (.wrongValue (.number n) w.name)
  | .double _ => .error (.wrongKind (.number n) w.name)

def place {α : Type} (rest : List Char) : Except Cause α → Except Failure (α × List Char)
  | .ok a => .ok (a, rest)
  | .error cause => .error (.before cause rest)

def readText (expected : String) : Reader String := fun text =>
  match skipSpace text with
  | '"' :: rest => takeText rest
  | text => .error (mismatch expected text)

def readWhole? (w : Width) : Reader w.Data := fun text =>
  match skipSpace text with
  | '-' :: rest => do
      let (n, rest) ← takeNumber true rest
      place rest (w.ofNumber n)
  | c :: rest =>
      if c.isDigit then do
        let (n, rest) ← takeNumber false (c :: rest)
        place rest (w.ofNumber n)
      else .error (mismatch w.name (c :: rest))
  | [] => .error (mismatch w.name [])

def readFlag : Reader Bool := fun text =>
  match skipSpace text with
  | 't' :: rest => (takeWord ['r', 'u', 'e'] rest).map fun rest => (true, rest)
  | 'f' :: rest => (takeWord ['a', 'l', 's', 'e'] rest).map fun rest => (false, rest)
  | text => .error (mismatch "a boolean" text)

def readNull (expected : String) : List Char → Except Failure (List Char) := fun text =>
  match skipSpace text with
  | 'n' :: rest => takeWord ['u', 'l', 'l'] rest
  | text => .error (mismatch expected text)

def wordIndex? (words : List String) (s : String) : Option (Fin words.length) :=
  words.finIdxOf? s

def readWord (words : List String) : Reader (Fin words.length) := fun text => do
  let (s, rest) ← readText "variant identifier" text
  place rest <| match wordIndex? words s with
    | some i => .ok i
    | none => .error (.unknownChoice s words)

/-- Reads one of some words, alone or as the only key of an object over null. -/
def readChoice (words : List String) (depth : Nat) : Reader (Fin words.length) := fun text =>
  match skipSpace text with
  | '{' :: rest =>
      if depth = 0 then .error (.atNext .tooDeep ('{' :: rest))
      else do
        let (i, rest) ← readWord words rest
        let rest ← takeColon rest
        let rest ← readNull "unit" rest
        match skipSpace rest with
        | '}' :: rest => return (i, rest)
        | [] => throw (.before .endInObject [])
        | rest => throw (.before .noValue rest)
  | '"' :: rest => readWord words ('"' :: rest)
  | text => .error (.atNext (if text.isEmpty then .endInValue else .noValue) text)

/-- Takes an opening bracket that may be no deeper than the limit. -/
def openBracket {α : Type} (depth : Nat) (bracket : Char) (rest : List Char)
    (inside : Nat → Except Failure α) : Except Failure α :=
  match depth with
  | 0 => .error (.atNext .tooDeep (bracket :: rest))
  | depth + 1 => inside depth

mutual

/-- Reads data of a shape, in which `depth` more brackets may be open at once. -/
def Shape.read : (shape : Shape) → (depth : Nat) → Reader shape.Data
  | .text, _ => readText "a string"
  | .flag, _ => readFlag
  | .whole width, _ => readWhole? width
  | .maybe shape, depth => fun text =>
      match skipSpace text with
      | 'n' :: rest => (takeWord ['u', 'l', 'l'] rest).map fun rest => (none, rest)
      | text => (shape.read depth text).map fun (d, rest) => (some d, rest)
  | .many shape, depth => fun text =>
      match skipSpace text with
      | '[' :: rest =>
          openBracket depth '[' rest fun depth => do
            let step (done : List shape.Data) : Reader (List shape.Data) := fun text => do
              let (d, text) ← shape.read depth text
              return (d :: done, text)
            let (done, rest) ← foldItems step rest true [] rest
            return (done.reverse, rest)
      | text => .error (mismatch "a sequence" text)
  | .anything, depth => readValue depth
  | .oneOf words, depth => readChoice words depth
  | .record name fields, depth => fun text =>
      match skipSpace text with
      | '[' :: rest =>
          openBracket depth '[' rest fun depth =>
            fields.readItems depth (recordOf name fields) 0 rest
      | '{' :: rest =>
          openBracket depth '{' rest fun depth => do
            let step (k : String) (slots : fields.Slots) : Reader fields.Slots := fun text =>
              match fields.readSlot depth k slots text with
              | some result => result
              | none => do return (slots, ← skipValue (← takeColon text))
            let (slots, rest) ← foldEntries step rest true fields.noSlots rest
            place rest (fields.ofSlots slots)
      | text => .error (mismatch ("struct " ++ name) text)

/-- Reads the value of the field that a key names, if it names one; a second value for one field is
refused. -/
def Fields.readSlot : (fields : Fields) → (depth : Nat) → (key : String) → fields.Slots →
    List Char → Option (Except Failure (fields.Slots × List Char))
  | .nil, _, _, _, _ => none
  | .required name aliases shape rest, depth, key, (slot, slots), text =>
      if key = name ∨ key ∈ aliases then
        some (if slot.isSome then .error (.before (.duplicate name) (afterObject text))
          else do
            let (d, text) ← shape.read depth (← takeColon text)
            return ((some d, slots), text))
      else (rest.readSlot depth key slots text).map fun result =>
        result.map fun (slots, text) => ((slot, slots), text)
  | .optional name aliases shape rest, depth, key, (slot, slots), text =>
      if key = name ∨ key ∈ aliases then
        some (if slot.isSome then .error (.before (.duplicate name) (afterObject text))
          else do
            let (d, text) ← shape.read depth (← takeColon text)
            return ((some d, slots), text))
      else (rest.readSlot depth key slots text).map fun result =>
        result.map fun (slots, text) => ((slot, slots), text)

/-- Reads the fields from the items of an array, `taken` of which have been read, and takes the end
of the array. -/
def Fields.readItems : (fields : Fields) → (depth : Nat) → (expected : String) → (taken : Nat) →
    Reader fields.Data
  | .nil, _, _, _, text => (closeArray text).map fun rest => ((), rest)
  | .required _ _ shape rest, depth, expected, taken, text => do
      let (more, text) ← nextItem (taken == 0) text
      if more then
        let (d, text) ← shape.read depth text
        let (ds, text) ← rest.readItems depth expected (taken + 1) text
        return ((d, ds), text)
      else throw (.before (.wrongLength taken expected) text)
  | .optional _ _ shape rest, depth, expected, taken, text => do
      let (more, text) ← nextItem (taken == 0) text
      if more then
        let (d, text) ← shape.read depth text
        let (ds, text) ← rest.readItems depth expected (taken + 1) text
        return ((some d, ds), text)
      else
        let ds ← (rest.withoutItems taken expected).mapError fun cause => .before cause text
        return ((none, ds), text)

def Fields.withoutItems : (fields : Fields) → (taken : Nat) → (expected : String) →
    Except Cause fields.Data
  | .nil, _, _ => .ok ()
  | .required _ _ _ _, taken, expected => .error (.wrongLength taken expected)
  | .optional _ _ _ rest, taken, expected =>
      (rest.withoutItems taken expected).map fun ds => (none, ds)

end

def Shape.ofText (shape : Shape) (text : String) : Except Failure shape.Data :=
  readWhole (shape.read depthLimit) text.toList

end CheckWorker.Json
