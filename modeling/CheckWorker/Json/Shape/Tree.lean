import CheckWorker.Json.Shape.Text

/-!
# Reading a shape from a value

The same shapes read from a value that has already been read from its text. Faults have no place
then, and an array that is too long for a record is described by where the value came from.
-/

namespace CheckWorker.Json

inductive Origin
  | settled
  /-- A part that was set aside while its surroundings were read. -/
  | setAside

/-- The cause when an array of `length` items is too long for a record of `count` fields. -/
def Origin.surplus : Origin → (length count : Nat) → Cause
  | .settled, length, _ => .wrongLength length "fewer elements in array"
  | .setAside, length, count => .wrongLength length (elements count ++ " in sequence")

def readEach {α : Type} (read : Value → Except Cause α) : List Value → Except Cause (List α)
  | [] => .ok []
  | v :: items => do
      let a ← read v
      let as ← readEach read items
      return a :: as

/-- Reads the entries of an object, each from what the entries before came to. -/
def readEntries {σ : Type} (step : String → Value → σ → Except Cause σ) :
    List (String × Value) → σ → Except Cause σ
  | [], s => .ok s
  | (k, v) :: entries, s => do
      let s ← step k v s
      readEntries step entries s

/-- One of some words, from a text or from an object with one key over nothing. -/
def choiceOfValue (words : List String) (v : Value) : Except Cause (Fin words.length) :=
  let word (s : String) : Except Cause (Fin words.length) :=
    match wordIndex? words s with
    | some i => .ok i
    | none => .error (.unknownChoice s words)
  match v with
  | .text s => word s
  | .object [(k, v)] => do
      let i ← word k
      match v with
      | .null => return i
      | .object [] => return i
      | v => throw (.wrongKind v.found "unit")
  | .object _ => .error (.wrongValue .map "map with a single key")
  | v => .error (.wrongKind v.found "string or map")

mutual

def Shape.ofValue (origin : Origin) : (shape : Shape) → Value → Except Cause shape.Data
  | .text, v =>
      match v with
      | .text s => .ok s
      | v => .error (.wrongKind v.found "a string")
  | .flag, v =>
      match v with
      | .boolean b => .ok b
      | v => .error (.wrongKind v.found "a boolean")
  | .whole width, v =>
      match v with
      | .number n => width.ofNumber n
      | v => .error (.wrongKind v.found width.name)
  | .maybe shape, v =>
      match v with
      | .null => .ok none
      | v => (shape.ofValue origin v).map some
  | .many shape, v =>
      match v with
      | .array items => readEach (shape.ofValue origin) items
      | v => .error (.wrongKind v.found "a sequence")
  | .anything, v => .ok v
  | .oneOf words, v => choiceOfValue words v
  | .record name fields, v =>
      match v with
      | .array items => fields.ofItems origin (recordOf name fields) items.length 0 items
      | .object entries => do
          let step (k : String) (v : Value) (slots : fields.Slots) : Except Cause fields.Slots :=
            (fields.slotOfValue origin k slots v).getD (.ok slots)
          let slots ← readEntries step entries fields.noSlots
          fields.ofSlots slots
      | v => .error (.wrongKind v.found ("struct " ++ name))

def Fields.slotOfValue (origin : Origin) : (fields : Fields) → (key : String) → fields.Slots →
    Value → Option (Except Cause fields.Slots)
  | .nil, _, _, _ => none
  | .required name aliases shape rest, key, (slot, slots), v =>
      if key = name ∨ key ∈ aliases then
        some (if slot.isSome then .error (.duplicate name)
          else (shape.ofValue origin v).map fun d => (some d, slots))
      else (rest.slotOfValue origin key slots v).map fun result =>
        result.map fun slots => (slot, slots)
  | .optional name aliases shape rest, key, (slot, slots), v =>
      if key = name ∨ key ∈ aliases then
        some (if slot.isSome then .error (.duplicate name)
          else (shape.ofValue origin v).map fun d => (some d, slots))
      else (rest.slotOfValue origin key slots v).map fun result =>
        result.map fun slots => (slot, slots)

/-- The fields that the items of an array hold; `length` is the length of the whole array, and
`taken` items of it went before. -/
def Fields.ofItems (origin : Origin) : (fields : Fields) → (expected : String) →
    (length taken : Nat) → List Value → Except Cause fields.Data
  | .nil, _, length, taken, items =>
      if items.isEmpty then .ok () else .error (origin.surplus length taken)
  | .required _ _ shape rest, expected, length, taken, v :: items => do
      let d ← shape.ofValue origin v
      let ds ← rest.ofItems origin expected length (taken + 1) items
      return (d, ds)
  | .required _ _ _ _, expected, _, taken, [] => .error (.wrongLength taken expected)
  | .optional _ _ shape rest, expected, length, taken, v :: items => do
      let d ← shape.ofValue origin v
      let ds ← rest.ofItems origin expected length (taken + 1) items
      return (some d, ds)
  | .optional _ _ _ rest, expected, length, taken, [] => do
      let ds ← rest.ofItems origin expected length taken []
      return (none, ds)

end

end CheckWorker.Json
