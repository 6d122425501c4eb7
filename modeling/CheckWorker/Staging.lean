import CheckWorker.Engine.Error
import CheckWorker.FileSystem.FileTree
import CheckWorker.Text.Blank

/-!
# The staging area

The code of a check is written to a file so that the engine can read it by path. All files lie
directly below one root, under the names that the checks give; a check may also ask for a cache
directory below the root. Names and directories that would lead elsewhere are refused before
anything is touched.
-/

namespace CheckWorker

/-- The directory below which everything is staged. -/
structure StagingArea where
  root : FilePath
  deriving DecidableEq

namespace StagingArea

def at? (files : FileTree) (root : FilePath) : Except FileError StagingArea :=
  (files.absolute root).map StagingArea.mk

/-- Whether a text is a name of a file and nothing more. -/
def acceptsFilename (name : String) : Bool :=
  if name = "" || name.toList.contains '/' || name.toList.contains '\\' then false
  else
    match FilePath.components ⟨name⟩ with
    | [.name _] => true
    | _ => false

/-- Whether components lead downwards, and not to where they start; `hasName` says whether there was
a name before them. -/
def leadsDown (hasName : Bool) : List FilePath.Component → Bool
  | [] => hasName
  | .name _ :: rest => leadsDown true rest
  | .here :: rest => leadsDown hasName rest
  | .above :: _ => false
  | .root :: _ => false

/-- Whether a text leads to a directory below, and not to the root itself. -/
def acceptsCacheDir (dir : String) : Bool :=
  !dir.isBlank && leadsDown false (FilePath.components ⟨dir⟩)

def prepare (files : FileTree) (p : FilePath) : FileTree × Except EngineError Unit :=
  match files.makeDirectories p with
  | (files, .ok ()) => (files, .ok ())
  | (files, .error e) => (files, .error (.staging p.text e))

/-- Creates directories of the staging area, as far as that succeeds. -/
def prepareAll (files : FileTree) : List FilePath → FileTree × Except EngineError Unit
  | [] => (files, .ok ())
  | p :: rest =>
      match prepare files p with
      | (files, .ok ()) => prepareAll files rest
      | failed => failed

def pathOf (area : StagingArea) (filename : String) : FilePath :=
  area.root.join filename

/-- Writes code to a file of the area and creates the cache directory; the answer is the path of the
file. -/
def stage (area : StagingArea) (files : FileTree) (filename code : String)
    (cacheDir : Option String) : FileTree × Except EngineError FilePath :=
  if !acceptsFilename filename then (files, .error (.invalidFilename filename))
  else
    match cacheDir.filter fun dir => !acceptsCacheDir dir with
    | some dir => (files, .error (.invalidCacheDir dir))
    | none =>
        match prepareAll files (area.root :: (cacheDir.map area.root.join).toList) with
        | (files, .error e) => (files, .error e)
        | (files, .ok ()) =>
            let path := area.pathOf filename
            match files.write path code.toUTF8 with
            | .ok files => (files, .ok path)
            | .error e => (files, .error (.staging path.text e))

end StagingArea

end CheckWorker
