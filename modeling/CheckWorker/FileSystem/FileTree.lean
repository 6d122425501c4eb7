import CheckWorker.FileSystem.FileError
import CheckWorker.FileSystem.FilePath
import CheckWorker.Text.Utf8

/-!
# File trees

A file tree is what a file system holds at one moment: a directory, a file with its bytes or a
program at some locations, and a working directory. A location is the names that lead to it from the
root, innermost first, so that the location of the directory around it is its tail. The root is
always a directory.

A tree is seen through `node?`, and each operation that changes it says what it does to that view at
the location it is about and at all others.
-/

namespace CheckWorker

abbrev Location := List String

inductive Node
  | directory
  | file (bytes : ByteArray)
  | program

structure FileTree where
  here : Location
  entries : List (Location × Node)

namespace FileTree

def node? (t : FileTree) (l : Location) : Option Node :=
  if l = [] then some .directory else t.entries.lookup l

/-- The tree with something else, or something new, at a location. -/
def put (t : FileTree) (l : Location) (n : Node) : FileTree :=
  { t with entries := (l, n) :: t.entries.filter fun e => e.1 ≠ l }

def erase (t : FileTree) (l : Location) : FileTree :=
  { t with entries := t.entries.filter fun e => e.1 ≠ l }

@[simp] theorem node?_root (t : FileTree) : t.node? [] = some .directory := by
  simp [node?]

theorem node?_put_same (t : FileTree) {l : Location} (h : l ≠ []) (n : Node) :
    (t.put l n).node? l = some n := by
  simp [node?, put, h]

theorem lookup_filter_ne (entries : List (Location × Node)) {l m : Location} (h : m ≠ l) :
    (entries.filter fun e => e.1 ≠ l).lookup m = entries.lookup m := by
  induction entries with
  | nil => rfl
  | cons e entries ih =>
      by_cases he : e.1 = l
      · have hm : (m == e.1) = false := by
          simpa [he] using h
        simp only [List.filter_cons, he, ne_eq, not_true_eq_false, decide_false,
          Bool.false_eq_true, if_false]
        rw [List.lookup_cons, hm]
        exact ih
      · simp only [List.filter_cons, ne_eq, he, not_false_eq_true, decide_true, if_true]
        rw [List.lookup_cons, List.lookup_cons, ih]

theorem node?_put_other (t : FileTree) {l m : Location} (h : m ≠ l) (n : Node) :
    (t.put l n).node? m = t.node? m := by
  have hm : (m == l) = false := by simpa using h
  simp only [node?, put, List.lookup_cons, hm, lookup_filter_ne t.entries h]

theorem node?_erase_same (t : FileTree) {l : Location} (h : l ≠ []) :
    (t.erase l).node? l = none := by
  simp only [node?, erase, h, if_false]
  induction t.entries with
  | nil => rfl
  | cons e entries ih =>
      by_cases he : e.1 = l
      · simpa [List.filter_cons, he] using ih
      · have hl : (l == e.1) = false := beq_eq_false_iff_ne.mpr fun h => he h.symm
        simp only [List.filter_cons, ne_eq, he, not_false_eq_true, decide_true, if_true]
        rw [List.lookup_cons, hl]
        exact ih

theorem node?_erase_other (t : FileTree) {l m : Location} (h : m ≠ l) :
    (t.erase l).node? m = t.node? m := by
  simp only [node?, erase, lookup_filter_ne t.entries h]

@[simp] theorem here_put (t : FileTree) (l : Location) (n : Node) : (t.put l n).here = t.here := rfl

@[simp] theorem here_erase (t : FileTree) (l : Location) : (t.erase l).here = t.here := rfl

/-! ## Finding a place -/

def nameLimit : Nat :=
  255

/-- The number of bytes that a path has to stay below. -/
def pathLimit : Nat :=
  4096

def step (t : FileTree) (l : Location) (name : String) : Except FileError Location :=
  match t.node? l with
  | none => .error .notFound
  | some .directory =>
      if name = "." then .ok l
      else if name = ".." then .ok l.tail
      else if nameLimit < name.utf8ByteSize then .error .nameTooLong
      else .ok (name :: l)
  | some _ => .error .notDirectory

/-- Where several steps lead. All but the last place must be there. -/
def walk (t : FileTree) (l : Location) : List String → Except FileError Location
  | [] => .ok l
  | name :: names => do t.walk (← t.step l name) names

/-- The names in a path, with a dot for a slash at the end: what is there must be a directory. -/
def namesOf (p : FilePath) : List String :=
  p.names ++ if p.endsInSlash then ["."] else []

def checkPath (p : FilePath) : Except FileError Unit :=
  if p.text.toList.contains '\x00' then .error .holdsNul
  else if p.isEmpty then .error .notFound
  else if pathLimit ≤ p.text.utf8ByteSize then .error .nameTooLong
  else .ok ()

def start (t : FileTree) (p : FilePath) : Location :=
  if p.isAbsolute then [] else t.here

def find (t : FileTree) (p : FilePath) : Except FileError (Location × Node) := do
  checkPath p
  let l ← t.walk (t.start p) (namesOf p)
  match t.node? l with
  | some n => return (l, n)
  | none => throw .notFound

/-- The directory around the place that a path leads to, and the last name. Without a last name the
path leads to the root. -/
def around (t : FileTree) (p : FilePath) (names : List String) :
    Except FileError (Location × Option String) := do
  checkPath p
  let l ← t.walk (t.start p) names.dropLast
  match t.node? l with
  | some .directory => return (l, names.getLast?)
  | some _ => throw .notDirectory
  | none => throw .notFound

def isThere (t : FileTree) (p : FilePath) : Bool :=
  (t.find p).toBool

def isDirectory (t : FileTree) (p : FilePath) : Bool :=
  match t.find p with
  | .ok (_, .directory) => true
  | _ => false

/-! ## Reading and writing -/

def read (t : FileTree) (p : FilePath) : Except FileError ByteArray := do
  match ← t.find p with
  | (_, .file bytes) => return bytes
  | (_, .program) => return ByteArray.empty
  | (_, .directory) => throw .isDirectory

def readText (t : FileTree) (p : FilePath) : Except FileError String := do
  match (← t.read p).decode? with
  | some s => return s
  | none => throw .notUtf8

/-- The location of a file that is to be written: one that is there or can be created. -/
def target (t : FileTree) (p : FilePath) : Except FileError Location := do
  let (l, name?) ← t.around p p.names
  match name? with
  | none => throw .isDirectory
  | some name =>
      if p.endsInSlash then throw .isDirectory
      else
        let place ← t.step l name
        match t.node? place with
        | some .directory => throw .isDirectory
        | _ => return place

def write (t : FileTree) (p : FilePath) (bytes : ByteArray) : Except FileError FileTree := do
  return t.put (← t.target p) (.file bytes)

/-- The bytes of the file at a location; anything else counts as no bytes. -/
def bytesAt (t : FileTree) (l : Location) : ByteArray :=
  match t.node? l with
  | some (.file bytes) => bytes
  | _ => ByteArray.empty

/-- Creates a file that is not there, and leaves one that is; the answer is its size. -/
def openAppend (t : FileTree) (p : FilePath) : Except FileError (Nat × FileTree) := do
  let l ← t.target p
  match t.node? l with
  | some _ => return ((t.bytesAt l).size, t)
  | none => return (0, t.put l (.file ByteArray.empty))

def append (t : FileTree) (p : FilePath) (bytes : ByteArray) : Except FileError FileTree := do
  let l ← t.target p
  return t.put l (.file (t.bytesAt l ++ bytes))

/-! ## Directories -/

def makeDirectory (t : FileTree) (p : FilePath) : Except FileError FileTree := do
  let (l, name?) ← t.around p p.names
  match name? with
  | none => throw .exists
  | some name =>
      if name = "." ∨ name = ".." then throw .exists
      else
        let place ← t.step l name
        match t.node? place with
        | some _ => throw .exists
        | none => return t.put place .directory

/-- Goes up from a path until a directory is there or can be created; the answer is the paths on the
way that could not be, outermost first. -/
def climb (t : FileTree) (missing : List FilePath) :
    List FilePath → Except FileError (List FilePath × FileTree)
  | [] => .ok (missing, t)
  | p :: above =>
      match t.makeDirectory p with
      | .ok t => .ok (missing, t)
      | .error .notFound => t.climb (p :: missing) above
      | .error .exists => if t.isDirectory p then .ok (missing, t) else .error .exists
      | .error e => .error e

/-- Creates directories in order; those that are there already are left. -/
def makeEach (t : FileTree) : List FilePath → FileTree × Except FileError Unit
  | [] => (t, .ok ())
  | p :: below =>
      match t.makeDirectory p with
      | .ok t => t.makeEach below
      | .error .exists => if t.isDirectory p then t.makeEach below else (t, .error .exists)
      | .error e => (t, .error e)

/-- Creates a directory and the missing ones above it. A failure leaves those that were created. -/
def makeDirectories (t : FileTree) (p : FilePath) : FileTree × Except FileError Unit :=
  match t.climb [] p.upward with
  | .ok (missing, t) => t.makeEach missing
  | .error e => (t, .error e)

/-! ## Removing and moving -/

def removeFile (t : FileTree) (p : FilePath) : Except FileError FileTree := do
  match ← t.find p with
  | (_, .directory) => throw .isDirectory
  | (l, _) => return t.erase l

/-- The names that lead from a location to one below it or to itself. -/
def below? (l m : Location) : Option Location :=
  if l.length ≤ m.length ∧ m.drop (m.length - l.length) = l then
    some (m.take (m.length - l.length))
  else none

def isOccupied (t : FileTree) (l : Location) : Bool :=
  t.entries.any fun e => (below? l e.1).any fun inner => !inner.isEmpty

/-- Moves what is at a location, with all that is below it, to another. -/
def move (t : FileTree) (source dest : Location) : FileTree :=
  { t with
    entries := (t.entries.filter fun e => e.1 ≠ dest).map fun (m, n) =>
      match below? source m with
      | some inner => (inner ++ dest, n)
      | none => (m, n) }

/-- Gives a file or directory another name, in place of a file or an empty directory there. -/
def rename (t : FileTree) (p q : FilePath) : Except FileError FileTree := do
  let (source, n) ← t.find p
  let (l, name?) ← t.around q q.names
  match name? with
  | none => throw .exists
  | some name =>
      let dest ← t.step l name
      if dest = source then return t
      match n, t.node? dest with
      | .directory, some .directory =>
          if t.isOccupied dest then throw .notEmpty else return t.move source dest
      | .directory, some _ => throw .notDirectory
      | _, some .directory => throw .isDirectory
      | _, _ => return t.move source dest

def pathOf (l : Location) : FilePath :=
  if l = [] then ⟨"/"⟩ else ⟨String.join (l.reverse.map ("/" ++ ·))⟩

def absolute (t : FileTree) (p : FilePath) : Except FileError FilePath :=
  match FilePath.absolute? (pathOf t.here) p with
  | some q => .ok q
  | none => .error .emptyPath

end FileTree

end CheckWorker
