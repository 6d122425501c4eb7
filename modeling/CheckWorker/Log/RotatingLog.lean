import CheckWorker.Log.Disk

/-!
# Rotating logs

A rotating log writes to one file until that would grow too large. Then the file is set aside under
the number one, those that were set aside before move on by one, and the oldest is given up. A
rotation that fails leaves the log closed; the next write that needs a rotation tries again.
-/

namespace CheckWorker

inductive LogFailure
  | file (e : FileError)
  /-- An earlier rotation has failed. -/
  | closed
  deriving DecidableEq

structure RotatingLog where
  name : String
  maxFiles : Nat
  maxSize : Nat
  isOpen : Bool
  size : Nat
  deriving DecidableEq

namespace RotatingLog

/-- The name of a file: the current one at zero, and above it those that were set aside. -/
def fileName (name : String) : Nat → String
  | 0 => name ++ ".log"
  | k + 1 => name ++ ".log." ++ toString (k + 1)

/-- A step of a rotation. Nothing is done about a file that is not there, save that the current one
is created where it is cleared. -/
inductive Move
  | discard (file : String)
  | shift (source dest : String)
  | clear (file : String)
  deriving DecidableEq

/-- The steps of a rotation that keeps some files beside the current one. -/
def moves (name : String) : Nat → List Move
  | 0 => [.clear (fileName name 0)]
  | k + 1 =>
      .discard (fileName name (k + 1)) ::
        (List.range (k + 1)).reverse.map fun i => .shift (fileName name i) (fileName name (i + 1))

example : moves "a" 2 =
    [.discard "a.log.2", .shift "a.log.1" "a.log.2", .shift "a.log" "a.log.1"] := by decide

variable {δ : Type} (disk : Disk δ)

def Move.run (d : δ) : Move → Except FileError δ
  | .discard file => if disk.holds file d then disk.remove file d else .ok d
  | .shift source dest => if disk.holds source d then disk.rename source dest d else .ok d
  | .clear file => disk.clear file d

def runMoves (d : δ) : List Move → Except FileError Unit × δ
  | [] => (.ok (), d)
  | m :: rest =>
      match m.run disk d with
      | .ok d => runMoves d rest
      | .error e => (.error e, d)

def reopen (l : RotatingLog) (d : δ) : Except FileError Unit × RotatingLog × δ :=
  match disk.openEnd (fileName l.name 0) d with
  | .ok (size, d) => (.ok (), { l with isOpen := true, size }, d)
  | .error e => (.error e, l, d)

def rotate (l : RotatingLog) (d : δ) : Except FileError Unit × RotatingLog × δ :=
  let l := { l with isOpen := false }
  match runMoves disk d (moves l.name (l.maxFiles - 1)) with
  | (.ok (), d) => l.reopen disk d
  | (.error e, d) => (.error e, l, d)

/-- Opens a log; a current file that is too large already is set aside at once. -/
def start (name : String) (maxFiles maxSize : Nat) (d : δ) : Except FileError RotatingLog × δ :=
  match reopen disk ⟨name, maxFiles, maxSize, false, 0⟩ d with
  | (.error e, _, d) => (.error e, d)
  | (.ok (), l, d) =>
      if maxSize < l.size then
        match l.rotate disk d with
        | (.ok (), l, d) => (.ok l, d)
        | (.error e, _, d) => (.error e, d)
      else (.ok l, d)

def put (l : RotatingLog) (bytes : ByteArray) (d : δ) : Except LogFailure Unit × RotatingLog × δ :=
  if !l.isOpen then (.error .closed, l, d)
  else
    match disk.append (fileName l.name 0) bytes d with
    | .ok d => (.ok (), { l with size := l.size + bytes.size }, d)
    | .error e => (.error (.file e), l, d)

/-- Whether a write calls for a rotation. A file that is empty is never set aside. -/
def isDue (l : RotatingLog) (bytes : ByteArray) : Bool :=
  0 < l.size && l.maxSize < l.size + bytes.size

def write (l : RotatingLog) (bytes : ByteArray) (d : δ) :
    Except LogFailure Unit × RotatingLog × δ :=
  if l.isDue bytes then
    match l.rotate disk d with
    | (.ok (), l, d) => l.put disk bytes d
    | (.error e, l, d) => (.error (.file e), l, d)
  else l.put disk bytes d

def isNameChar (c : Char) : Bool :=
  c.isAlphanum || c == '-' || c == '_'

def cleanName (name : String) : String :=
  name.map fun c => if isNameChar c then c else '_'

end RotatingLog

end CheckWorker
