import CheckWorker.Json.Shape

/-!
# Writing JSON

Texts are written without blanks. Between quotes the quote, the backslash and the controls below
the space are escaped, the common ones with one letter and the others with four hexadecimal
digits; every other character stands for itself. So what is written holds no control at all.
-/

namespace CheckWorker.Json

def hexDigit (n : Nat) : Char :=
  if n < 10 then Char.ofNat ('0'.toNat + n) else Char.ofNat ('a'.toNat + (n - 10))

def printChar (c : Char) : List Char :=
  if c = '"' then ['\\', '"']
  else if c = '\\' then ['\\', '\\']
  else if c = '\x08' then ['\\', 'b']
  else if c = '\x0c' then ['\\', 'f']
  else if c = '\n' then ['\\', 'n']
  else if c = '\r' then ['\\', 'r']
  else if c = '\t' then ['\\', 't']
  else if c.toNat < 0x20 then
    ['\\', 'u', '0', '0', hexDigit (c.toNat / 16), hexDigit (c.toNat % 16)]
  else [c]

def printText (s : String) : List Char :=
  '"' :: (s.toList.flatMap printChar ++ ['"'])

def printWhole (n : Int) : List Char :=
  if n < 0 then '-' :: Nat.toDigits 10 n.natAbs else Nat.toDigits 10 n.natAbs

def printList : List (List Char) → List Char
  | [] => []
  | [a] => a
  | a :: parts => a ++ ',' :: printList parts

def printEntry (key : String) (value : List Char) : List Char :=
  printText key ++ ':' :: value

def printObject (entries : List (List Char)) : List Char :=
  '{' :: (printList entries ++ ['}'])

def printArray (items : List (List Char)) : List Char :=
  '[' :: (printList items ++ [']'])

mutual

def Value.print : Value → List Char
  | .null => ['n', 'u', 'l', 'l']
  | .boolean true => ['t', 'r', 'u', 'e']
  | .boolean false => ['f', 'a', 'l', 's', 'e']
  | .number (.whole n) => printWhole n
  | .number (.double d) => d.text.toList
  | .text s => printText s
  | .array items => printArray (printItems items)
  | .object entries => printObject (printEntries entries)

def printItems : List Value → List (List Char)
  | [] => []
  | v :: items => v.print :: printItems items

def printEntries : List (String × Value) → List (List Char)
  | [] => []
  | (k, v) :: entries => printEntry k v.print :: printEntries entries

end

mutual

def Shape.print : (shape : Shape) → shape.Data → List Char
  | .text, s => printText s
  | .flag, b => (Value.boolean b).print
  | .whole width, n => printWhole (width.toInt n)
  | .maybe _, none => ['n', 'u', 'l', 'l']
  | .maybe shape, some d => shape.print d
  | .many shape, ds => printArray (ds.map shape.print)
  | .anything, v => v.print
  | .oneOf words, i => printText (words.get i)
  | .record _ fields, ds => printObject (fields.print ds)

def Fields.print : (fields : Fields) → fields.Data → List (List Char)
  | .nil, () => []
  | .required name _ shape rest, (d, ds) => printEntry name (shape.print d) :: rest.print ds
  | .optional name _ shape rest, (some d, ds) => printEntry name (shape.print d) :: rest.print ds
  | .optional _ _ _ rest, (none, ds) => rest.print ds

end

def Shape.toText (shape : Shape) (d : shape.Data) : String :=
  String.ofList (shape.print d)

end CheckWorker.Json
