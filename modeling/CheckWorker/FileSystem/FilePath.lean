/-!
# File paths

A path is a text whose parts stand between slashes. Empty parts count for nothing, and neither do
parts that are a single dot; a part of two dots leads to the directory above. A path that begins
with a slash starts at the root of all files, any other at the working directory.
-/

namespace CheckWorker

structure FilePath where
  text : String
  deriving DecidableEq

namespace FilePath

/-- The parts of `text` between slashes, after the part held backwards in `part`. -/
def splitFrom (part : List Char) : List Char → List (List Char)
  | [] => [part.reverse]
  | c :: text => if c = '/' then part.reverse :: splitFrom [] text else splitFrom (c :: part) text

def parts (p : FilePath) : List String :=
  (splitFrom [] p.text.toList).map String.ofList

/-- The parts that are not empty. -/
def names (p : FilePath) : List String :=
  p.parts.filter (· != "")

/-- The parts that lead somewhere: neither empty nor a single dot. -/
def steps (p : FilePath) : List String :=
  p.parts.filter fun part => part != "" && part != "."

def isAbsolute (p : FilePath) : Bool :=
  p.text.toList.head? == some '/'

/-- What a part of a path means. -/
inductive Component
  /-- The slash at the beginning. -/
  | root
  /-- A single dot. -/
  | here
  /-- Two dots. -/
  | above
  | name (s : String)
  deriving DecidableEq

def componentOf (part : String) : Component :=
  if part = ".." then .above else .name part

/-- What a path begins with. Of single dots only one at the beginning means anything. -/
def beginning (p : FilePath) : List Component :=
  if p.isAbsolute then [.root] else if p.parts.head? = some "." then [.here] else []

/-- What the parts of a path mean, one after another. -/
def components (p : FilePath) : List Component :=
  p.beginning ++ p.steps.map componentOf

example : components ⟨"./a//../."⟩ = [.here, .name "a", .above] := by decide
example : components ⟨"//.\\a"⟩ = [.root, .name ".\\a"] := by decide

def isEmpty (p : FilePath) : Bool :=
  p.text.isEmpty

def endsInSlash (p : FilePath) : Bool :=
  p.text.toList.getLast? == some '/'

def join (p : FilePath) (s : String) : FilePath :=
  if s.toList.head? = some '/' ∨ p.isEmpty then ⟨s⟩
  else if p.endsInSlash then ⟨p.text ++ s⟩
  else ⟨p.text ++ "/" ++ s⟩

/-- A path held backwards, without slashes and single dots at its end; the root stays, and so does a
single dot at the beginning. -/
def trimBack : List Char → List Char
  | '/' :: back => if back.isEmpty then ['/'] else trimBack back
  | '.' :: '/' :: back => trimBack ('/' :: back)
  | back => back

theorem length_trimBack (back : List Char) : (trimBack back).length ≤ back.length := by
  fun_induction trimBack back with
  | case1 back h => simp
  | case2 back h ih => simp only [List.length_cons]; omega
  | case3 back ih => simp only [List.length_cons] at ih ⊢; omega
  | case4 back h₁ h₂ => exact Nat.le_refl _

/-- The path above, held backwards, of a path held backwards; neither the root nor the empty path
has one. -/
def parentBack? (back : List Char) : Option (List Char) :=
  match trimBack back with
  | [] => none
  | c :: back =>
      if c = '/' then none else some (trimBack (back.dropWhile (· != '/')))

theorem length_parentBack? {back above : List Char} (h : parentBack? back = some above) :
    above.length < back.length := by
  unfold parentBack? at h
  split at h
  · simp at h
  · next c rest hb =>
      split at h
      · simp at h
      · have h₁ := length_trimBack back
        have h₂ := length_trimBack (rest.dropWhile (· != '/'))
        have h₃ := (List.dropWhile_suffix (l := rest) (· != '/')).length_le
        simp only [Option.some.injEq] at h
        rw [hb] at h₁
        simp only [List.length_cons] at h₁
        rw [← h]
        omega

/-- The paths from one held backwards upwards, all held backwards, as long as there is one above. -/
def upwards (back : List Char) : List (List Char) :=
  match _h : parentBack? back with
  | none => []
  | some above => back :: upwards above
termination_by back.length
decreasing_by exact length_parentBack? _h

def parent? (p : FilePath) : Option FilePath :=
  (parentBack? p.text.toList.reverse).map fun back => ⟨String.ofList back.reverse⟩

/-- The path itself and the paths above it, nearest first, without the root and the empty path. -/
def upward (p : FilePath) : List FilePath :=
  (upwards p.text.toList.reverse).map fun back => ⟨String.ofList back.reverse⟩

/-- The absolute form of a path, seen from the working directory `here`: parts that lead nowhere are
dropped, but parts of two dots are kept, and so are a slash at the end and a pair of slashes at the
beginning. The empty path has none. -/
def absolute? (here p : FilePath) : Option FilePath :=
  if p.isEmpty then none
  else
    let start : FilePath :=
      if p.isAbsolute then
        match p.text.toList with
        | '/' :: '/' :: '/' :: _ => ⟨"/"⟩
        | '/' :: '/' :: _ => ⟨"//"⟩
        | _ => ⟨"/"⟩
      else here
    let whole := p.steps.foldl join start
    some (if p.endsInSlash && !whole.endsInSlash then ⟨whole.text ++ "/"⟩ else whole)

example : absolute? ⟨"/w"⟩ ⟨"a/./b/../c/"⟩ = some ⟨"/w/a/b/../c/"⟩ := by decide
example : absolute? ⟨"/w"⟩ ⟨"//x//y"⟩ = some ⟨"//x/y"⟩ := by decide

end FilePath

end CheckWorker
