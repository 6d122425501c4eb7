import CheckWorker.Json.Double
import CheckWorker.Text.Quoted

/-!
# JSON values

A value keeps the entries of an object in the order in which they were written, repeated keys
included. `settle` gives the object that such entries stand for: of entries with one key the last
counts, and keys are in ascending order.
-/

namespace CheckWorker.Json

inductive Number
  /-- An integer from `-2 ^ 63` to `2 ^ 64 - 1`. -/
  | whole (n : Int)
  | double (d : Double)
  deriving DecidableEq

inductive Value
  | null
  | boolean (b : Bool)
  | number (n : Number)
  | text (s : String)
  | array (items : List Value)
  | object (entries : List (String × Value))

/-- The entry of a key put into settled entries, unless the key is there already. -/
def insertEntry (k : String) (v : Value) : List (String × Value) → List (String × Value)
  | [] => [(k, v)]
  | (k', v') :: entries =>
      if k < k' then (k, v) :: (k', v') :: entries
      else if k = k' then (k', v') :: entries
      else (k', v') :: insertEntry k v entries

mutual

def Value.settle : Value → Value
  | .array items => .array (settleItems items)
  | .object entries => .object (settleEntries entries)
  | .null => .null
  | .boolean b => .boolean b
  | .number n => .number n
  | .text s => .text s

def settleItems : List Value → List Value
  | [] => []
  | v :: items => v.settle :: settleItems items

/-- Entries in ascending order of keys, each key with its last value. -/
def settleEntries : List (String × Value) → List (String × Value)
  | [] => []
  | (k, v) :: entries => insertEntry k v.settle (settleEntries entries)

end

/-- What stands where something else was expected. -/
inductive Found
  | null
  | boolean (b : Bool)
  | number (n : Number)
  | text (s : String)
  | sequence
  | map
  deriving DecidableEq

def Value.found : Value → Found
  | .null => .null
  | .boolean b => .boolean b
  | .number n => .number n
  | .text s => .text s
  | .array _ => .sequence
  | .object _ => .map

def ticked (s : String) : String :=
  "\x60" ++ s ++ "\x60"

def Found.message : Found → String
  | .null => "null"
  | .boolean b => "boolean " ++ ticked (toString b)
  | .number (.whole n) => "integer " ++ ticked (toString n)
  | .number (.double d) => "floating point " ++ ticked d.text
  | .text s => "string " ++ s.inQuotes
  | .sequence => "sequence"
  | .map => "map"

end CheckWorker.Json
