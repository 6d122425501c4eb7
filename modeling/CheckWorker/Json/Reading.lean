import CheckWorker.Json.Skip

/-!
# Reading values

Arrays and objects are read by one loop each, which hands every item or every key to a step, so
that the same loops serve values and records. A text is nested at most 127 deep.
-/

namespace CheckWorker.Json

/-- How many brackets may be open at once. -/
def depthLimit : Nat :=
  127

def readScalar : Reader Value
  | [] => .error (.atNext .endInValue [])
  | c :: rest =>
      if c = 'n' then (takeWord ['u', 'l', 'l'] rest).map fun rest => (.null, rest)
      else if c = 't' then (takeWord ['r', 'u', 'e'] rest).map fun rest => (.boolean true, rest)
      else if c = 'f' then
        (takeWord ['a', 'l', 's', 'e'] rest).map fun rest => (.boolean false, rest)
      else if c = '-' then (takeNumber true rest).map fun (n, rest) => (.number n, rest)
      else if c.isDigit then (takeNumber false (c :: rest)).map fun (n, rest) => (.number n, rest)
      else if c = '"' then (takeText rest).map fun (s, rest) => (.text s, rest)
      else .error (.atNext .noValue (c :: rest))

/-! ## Arrays -/

/-- Goes to the next item of an array. The answer is whether there is one; if not, the closing
bracket has been taken. -/
def nextItem (first : Bool) (text : List Char) : Except Failure (Bool × List Char) :=
  match skipSpace text with
  | [] => .error (.atNext .endInArray [])
  | c :: rest =>
      if c = ']' then .ok (false, rest)
      else if first then .ok (true, c :: rest)
      else if c = ',' then
        match skipSpace rest with
        | [] => .error (.atNext .endInValue [])
        | d :: rest =>
            if d = ']' then .error (.atNext .trailingComma (d :: rest)) else .ok (true, d :: rest)
      else .error (.atNext .noArrayEnd (c :: rest))

def closeArray (text : List Char) : Except Failure (List Char) :=
  match skipSpace text with
  | [] => .error (.atNext .endInArray [])
  | c :: rest =>
      if c = ']' then .ok rest
      else if c = ',' then
        match skipSpace rest with
        | ']' :: rest => .error (.atNext .trailingComma (']' :: rest))
        | rest => .error (.atNext .trailing rest)
      else .error (.atNext .trailing (c :: rest))

/-- The text after an attempt to close an array, wherever that ends. -/
def afterArray (text : List Char) : List Char :=
  match skipSpace text with
  | ']' :: rest => rest
  | ',' :: rest => skipSpace rest
  | rest => rest

/-- Reads the items of an array, after its opening bracket, each by `step` from what the items
before came to. Every item takes a character, so as many rounds as `rounds` has suffice. -/
def foldItems {σ : Type} (step : σ → Reader σ) :
    (rounds : List Char) → (first : Bool) → σ → Reader σ
  | [], _, _, text => .error (.atNext .endInArray text)
  | _ :: rounds, first, s, text => do
      let (more, text) ← nextItem first text
      if more then
        let (s, text) ← step s text
        foldItems step rounds false s text
      else return (s, text)

/-! ## Objects -/

/-- Goes to the next key of an object and takes it; without one, the closing bracket has been
taken. -/
def nextKey (first : Bool) : Reader (Option String) := fun text =>
  match skipSpace text with
  | [] => .error (.atNext .endInObject [])
  | c :: rest =>
      if c = '}' then .ok (none, rest)
      else if first then
        if c = '"' then (takeText rest).map fun (k, rest) => (some k, rest)
        else .error (.atNext .noKey (c :: rest))
      else if c = ',' then
        match skipSpace rest with
        | [] => .error (.atNext .endInValue [])
        | d :: rest =>
            if d = '"' then (takeText rest).map fun (k, rest) => (some k, rest)
            else if d = '}' then .error (.atNext .trailingComma (d :: rest))
            else .error (.atNext .noKey (d :: rest))
      else .error (.atNext .noObjectEnd (c :: rest))

/-- The text after an attempt to close an object, wherever that ends. -/
def afterObject (text : List Char) : List Char :=
  match skipSpace text with
  | '}' :: rest => rest
  | rest => rest

/-- Reads the entries of an object, after its opening bracket: `step` gets each key and goes on
right behind it. Every entry takes a character, so as many rounds as `rounds` has suffice. -/
def foldEntries {σ : Type} (step : String → σ → Reader σ) :
    (rounds : List Char) → (first : Bool) → σ → Reader σ
  | [], _, _, text => .error (.atNext .endInObject text)
  | _ :: rounds, first, s, text => do
      let (key, text) ← nextKey first text
      match key with
      | none => return (s, text)
      | some k =>
          let (s, text) ← step k s text
          foldEntries step rounds false s text

/-! ## Values -/

/-- Reads a value, in which `depth` more brackets may be open at once. -/
def readValue : (depth : Nat) → Reader Value
  | 0, text =>
      match skipSpace text with
      | '[' :: rest => .error (.atNext .tooDeep ('[' :: rest))
      | '{' :: rest => .error (.atNext .tooDeep ('{' :: rest))
      | text => readScalar text
  | depth + 1, text =>
      match skipSpace text with
      | '[' :: rest => do
          let step (done : List Value) : Reader (List Value) := fun text => do
            let (v, text) ← readValue depth text
            return (v :: done, text)
          let (done, rest) ← foldItems step rest true [] rest
          return (.array done.reverse, rest)
      | '{' :: rest => do
          let step (k : String) (done : List (String × Value)) : Reader (List (String × Value)) :=
            fun text => do
              let (v, text) ← readValue depth (← takeColon text)
              return ((k, v) :: done, text)
          let (done, rest) ← foldEntries step rest true [] rest
          return (.object done.reverse, rest)
      | text => readScalar text

def closeText (text : List Char) : Except Failure Unit :=
  match skipSpace text with
  | [] => .ok ()
  | rest => .error (.atNext .trailing rest)

def readWhole {α : Type} (reader : Reader α) (text : List Char) : Except Failure α := do
  let (a, rest) ← reader text
  closeText rest
  return a

end CheckWorker.Json
