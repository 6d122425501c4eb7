/-!
# UTF-8

Bytes are cut into pieces: a character, a sequence that begins no character, or a sequence that the
end of the bytes cuts short. A faulty piece is as long as the longest beginning of a character
found there, and at least one byte. `decode` refuses the first fault and says where it is;
`decodeLossy` puts the replacement character in place of each.
-/

namespace CheckWorker.Utf8

/-- A character, or a fault, at the front of some bytes. -/
inductive Piece
  | char (c : Char)
  /-- Bytes that begin no character. -/
  | invalid (length : Nat)
  /-- A beginning of a character, of this many bytes, at the very end. -/
  | incomplete (length : Nat)
  deriving DecidableEq, Repr

/-- The number of bytes that a character with this first byte has; none begins with other bytes. -/
def width? (a : UInt8) : Option Nat :=
  if a < 0x80 then some 1
  else if 0xC2 ≤ a && a ≤ 0xDF then some 2
  else if 0xE0 ≤ a && a ≤ 0xEF then some 3
  else if 0xF0 ≤ a && a ≤ 0xF4 then some 4
  else none

def isTail (b : UInt8) : Bool :=
  0x80 ≤ b && b ≤ 0xBF

/-- Whether `b` may follow the first byte `a`: overlong forms, surrogates and code points above the
last are shut out at the second byte. -/
def isSecond (a b : UInt8) : Bool :=
  if a = 0xE0 then 0xA0 ≤ b && b ≤ 0xBF
  else if a = 0xED then 0x80 ≤ b && b ≤ 0x9F
  else if a = 0xF0 then 0x90 ≤ b && b ≤ 0xBF
  else if a = 0xF4 then 0x80 ≤ b && b ≤ 0x8F
  else isTail b

def bits (b : UInt8) : Nat :=
  b.toNat - 0x80

/-- The pieces of `bytes`, in order, after those held backwards in `done`. -/
def piecesFrom (done : List Piece) : List UInt8 → List Piece
  | [] => done.reverse
  | a :: rest =>
      match width? a with
      | none => piecesFrom (.invalid 1 :: done) rest
      | some 1 => piecesFrom (.char (Char.ofNat a.toNat) :: done) rest
      | some 2 =>
          match rest with
          | [] => (.incomplete 1 :: done).reverse
          | b :: tail =>
              if isSecond a b then
                piecesFrom (.char (Char.ofNat ((a.toNat - 0xC0) * 0x40 + bits b)) :: done) tail
              else piecesFrom (.invalid 1 :: done) (b :: tail)
      | some 3 =>
          match rest with
          | [] => (.incomplete 1 :: done).reverse
          | [b] =>
              if isSecond a b then (.incomplete 2 :: done).reverse
              else piecesFrom (.invalid 1 :: done) [b]
          | b :: c :: tail =>
              if isSecond a b then
                if isTail c then
                  let n := (a.toNat - 0xE0) * 0x1000 + bits b * 0x40 + bits c
                  piecesFrom (.char (Char.ofNat n) :: done) tail
                else piecesFrom (.invalid 2 :: done) (c :: tail)
              else piecesFrom (.invalid 1 :: done) (b :: c :: tail)
      | some _ =>
          match rest with
          | [] => (.incomplete 1 :: done).reverse
          | [b] =>
              if isSecond a b then (.incomplete 2 :: done).reverse
              else piecesFrom (.invalid 1 :: done) [b]
          | [b, c] =>
              if isSecond a b then
                if isTail c then (.incomplete 3 :: done).reverse
                else piecesFrom (.invalid 2 :: done) [c]
              else piecesFrom (.invalid 1 :: done) [b, c]
          | b :: c :: d :: tail =>
              if isSecond a b then
                if isTail c then
                  if isTail d then
                    let n :=
                      (a.toNat - 0xF0) * 0x40000 + bits b * 0x1000 + bits c * 0x40 + bits d
                    piecesFrom (.char (Char.ofNat n) :: done) tail
                  else piecesFrom (.invalid 3 :: done) (d :: tail)
                else piecesFrom (.invalid 2 :: done) (c :: d :: tail)
              else piecesFrom (.invalid 1 :: done) (b :: c :: d :: tail)
termination_by bytes => bytes.length

def pieces (bytes : List UInt8) : List Piece :=
  piecesFrom [] bytes

/-- The first fault of some bytes: the index of its first byte, and its length unless the end of the
bytes cut it short. -/
structure Fault where
  index : Nat
  length? : Option Nat
  deriving DecidableEq, Repr

/-- The text of some pieces, after the characters held backwards in `done`; `index` bytes went
before. -/
def textFrom (index : Nat) (done : List Char) : List Piece → Except Fault (List Char)
  | [] => .ok done.reverse
  | .char c :: rest => textFrom (index + c.utf8Size) (c :: done) rest
  | .invalid n :: _ => .error ⟨index, some n⟩
  | .incomplete _ :: _ => .error ⟨index, none⟩

def decode (bytes : List UInt8) : Except Fault (List Char) :=
  textFrom 0 [] (pieces bytes)

def Piece.lossy : Piece → Char
  | .char c => c
  | _ => '\uFFFD'

/-- The text that bytes encode, each fault replaced by the replacement character. -/
def decodeLossy (bytes : List UInt8) : List Char :=
  (pieces bytes).map Piece.lossy

def encode (text : List Char) : List UInt8 :=
  text.flatMap String.utf8EncodeChar

@[simp] theorem encode_nil : encode [] = [] := rfl

@[simp] theorem encode_append (s t : List Char) : encode (s ++ t) = encode s ++ encode t := by
  simp [encode]

theorem pieces_nil : pieces [] = [] := by
  simp [pieces, piecesFrom]

def Fault.message (fault : Fault) : String :=
  match fault.length? with
  | some n =>
      "invalid utf-8 sequence of " ++ toString n ++ " bytes from index " ++ toString fault.index
  | none => "incomplete utf-8 byte sequence from index " ++ toString fault.index

end CheckWorker.Utf8

namespace ByteArray

/-- The text that bytes encode, each fault replaced by the replacement character. -/
def decodeLossy (bytes : ByteArray) : String :=
  String.ofList (CheckWorker.Utf8.decodeLossy bytes.toList)

/-- The text that bytes encode, or nothing when they hold a fault. -/
def decode? (bytes : ByteArray) : Option String :=
  (CheckWorker.Utf8.decode bytes.toList).toOption.map String.ofList

end ByteArray
