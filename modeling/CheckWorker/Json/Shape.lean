import CheckWorker.Json.Cause

/-!
# Shapes

A shape says what a JSON text is expected to hold, and `Shape.Data` is the type of what is read
from it and written for it. Readers and the writer are defined once over all shapes.

A record has named fields in a fixed order. An optional field may be left out, and its data says
whether it was; a field that is required may only be left out when its own shape allows null.
-/

namespace CheckWorker.Json

inductive Width
  | u32
  | i32
  | u64
  deriving DecidableEq

namespace Width

abbrev Data : Width → Type
  | .u32 => UInt32
  | .i32 => Int32
  | .u64 => UInt64

def name : Width → String
  | .u32 => "u32"
  | .i32 => "i32"
  | .u64 => "u64"

def unsigned32? (n : Int) : Option UInt32 :=
  if 0 ≤ n ∧ n < 4294967296 then some (UInt32.ofNat n.toNat) else none

def signed32? (n : Int) : Option Int32 :=
  if -2147483648 ≤ n ∧ n < 2147483648 then some (Int32.ofInt n) else none

def unsigned64? (n : Int) : Option UInt64 :=
  if 0 ≤ n ∧ n < 18446744073709551616 then some (UInt64.ofNat n.toNat) else none

theorem unsigned32?_toNat (n : UInt32) : unsigned32? n.toNat = some n := by
  have h := n.toNat_lt
  rw [unsigned32?, if_pos ⟨by omega, by omega⟩]
  simp

theorem signed32?_toInt (n : Int32) : signed32? n.toInt = some n := by
  have hl := n.le_toInt
  have hr := n.toInt_lt
  rw [signed32?, if_pos ⟨by omega, by omega⟩]
  simp

theorem unsigned64?_toNat (n : UInt64) : unsigned64? n.toNat = some n := by
  have h := n.toNat_lt
  rw [unsigned64?, if_pos ⟨by omega, by omega⟩]
  simp

def ofInt? : (w : Width) → Int → Option w.Data
  | .u32 => unsigned32?
  | .i32 => signed32?
  | .u64 => unsigned64?

def toInt : (w : Width) → w.Data → Int
  | .u32, n => n.toNat
  | .i32, n => n.toInt
  | .u64, n => n.toNat

theorem ofInt?_toInt : (w : Width) → (n : w.Data) → w.ofInt? (w.toInt n) = some n
  | .u32, n => unsigned32?_toNat n
  | .i32, n => signed32?_toInt n
  | .u64, n => unsigned64?_toNat n

end Width

mutual

inductive Shape
  | text
  | flag
  | whole (width : Width)
  | maybe (shape : Shape)
  | many (shape : Shape)
  | anything
  | oneOf (words : List String)
  | record (name : String) (fields : Fields)

/-- The fields of a record, in order. Each has a name and other names that stand for it. -/
inductive Fields
  | nil
  | required (name : String) (aliases : List String) (shape : Shape) (rest : Fields)
  | optional (name : String) (aliases : List String) (shape : Shape) (rest : Fields)

end

mutual

def Shape.Data : Shape → Type
  | .text => String
  | .flag => Bool
  | .whole width => width.Data
  | .maybe shape => Option shape.Data
  | .many shape => List shape.Data
  | .anything => Value
  | .oneOf words => Fin words.length
  | .record _ fields => fields.Data

/-- What is read for the fields of a record; an optional field may be absent. -/
def Fields.Data : Fields → Type
  | .nil => Unit
  | .required _ _ shape rest => shape.Data × rest.Data
  | .optional _ _ shape rest => Option shape.Data × rest.Data

end

/-- The fields of a record while it is being read: each may have been met. -/
def Fields.Slots : Fields → Type
  | .nil => Unit
  | .required _ _ shape rest => Option shape.Data × rest.Slots
  | .optional _ _ shape rest => Option shape.Data × rest.Slots

def Fields.noSlots : (fields : Fields) → fields.Slots
  | .nil => ()
  | .required _ _ _ rest => (none, rest.noSlots)
  | .optional _ _ _ rest => (none, rest.noSlots)

/-- The data of a shape of which nothing was given, if the shape allows that. -/
def Shape.absent? : (shape : Shape) → Option shape.Data
  | .maybe _ => some none
  | _ => none

def Fields.ofSlots : (fields : Fields) → fields.Slots → Except Cause fields.Data
  | .nil, () => .ok ()
  | .required name _ shape rest, (slot, slots) =>
      match slot <|> shape.absent? with
      | some d => (rest.ofSlots slots).map fun ds => (d, ds)
      | none => .error (.missing name)
  | .optional _ _ _ rest, (slot, slots) => (rest.ofSlots slots).map fun ds => (slot, ds)

def Fields.count : Fields → Nat
  | .nil => 0
  | .required _ _ _ rest => rest.count + 1
  | .optional _ _ _ rest => rest.count + 1

def elements (n : Nat) : String :=
  if n = 1 then "1 element" else toString n ++ " elements"

def recordOf (name : String) (fields : Fields) : String :=
  "struct " ++ name ++ " with " ++ elements fields.count

end CheckWorker.Json
