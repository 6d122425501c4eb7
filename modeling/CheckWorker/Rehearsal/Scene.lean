import CheckWorker.CommandLine
import CheckWorker.FileSystem.FileTree

/-!
# Scenes

A rehearsal takes place in a file tree that is furnished beforehand.
-/

namespace CheckWorker

namespace FileTree

/-- The location that a path names, if every directory on its way is there. -/
def locationOf (t : FileTree) (p : FilePath) : Location :=
  p.steps.reverse ++ t.start p

/-- The tree with a directory at a location and at all above it, where nothing is yet. -/
def makeRoom (t : FileTree) : Location → FileTree
  | [] => t
  | name :: l =>
      let t := t.makeRoom l
      match t.node? (name :: l) with
      | some _ => t
      | none => t.put (name :: l) .directory

def furnish (t : FileTree) (p : FilePath) (n : Node) : FileTree :=
  let l := t.locationOf p
  match n with
  | .directory => t.makeRoom l
  | n => (t.makeRoom l.tail).put l n

def bare (here : FilePath) : FileTree :=
  let t : FileTree := ⟨[], []⟩
  { t.furnish here .directory with here := t.locationOf here }

end FileTree

namespace Scene

def standardUv : FilePath :=
  ⟨"/usr/local/bin/uv"⟩

/-- The tree of a rehearsal: uv where the arguments want it, and the version table that they name.
-/
def ofArguments (here : FilePath) (a : Arguments) (table : Option ByteArray) : FileTree :=
  let uv := ((a.value? .uv).map FilePath.mk).getD standardUv
  let files := (FileTree.bare here).furnish uv .program
  match a.value? .versionTable, table with
  | some path, some bytes => files.furnish ⟨path⟩ (.file bytes)
  | _, _ => files

end Scene

end CheckWorker
