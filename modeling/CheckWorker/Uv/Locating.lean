import CheckWorker.Environment
import CheckWorker.FileSystem.FileTree

/-!
# Looking for uv

The tool is looked for in the directories of the search path, where it has to be a program, and then
at a few customary places, where anything of that name will do.
-/

namespace CheckWorker

namespace Uv

/-- The entries of a search path, held backwards while they are read. -/
def entriesFrom (entry : List Char) : List Char → List (List Char)
  | [] => [entry.reverse]
  | c :: text =>
      if c = ':' then entry.reverse :: entriesFrom [] text else entriesFrom (c :: entry) text

/-- An entry of the search path; a tilde that is its first part stands for the user's home. -/
def searchDirectory (env : Environment) (entry : List Char) : FilePath :=
  match entry, env.home with
  | ['~'], some home => ⟨home⟩
  | '~' :: '/' :: rest, some home => (FilePath.mk home).join (String.ofList rest)
  | entry, _ => ⟨String.ofList entry⟩

def searchPath (env : Environment) : List FilePath :=
  match env.path with
  | none => []
  | some path => (entriesFrom [] path.toList).map (searchDirectory env)

def customaryPlaces (env : Environment) : List FilePath :=
  let home := env.home.getD ""
  [⟨home ++ "/.cargo/bin/uv"⟩, ⟨home ++ "/.local/bin/uv"⟩, ⟨"/usr/local/bin/uv"⟩]

def isProgram (files : FileTree) (p : FilePath) : Bool :=
  match files.find p with
  | .ok (_, .program) => true
  | _ => false

def locate? (env : Environment) (files : FileTree) : Option FilePath :=
  ((searchPath env).map (·.join "uv")).find? (isProgram files) <|>
    (customaryPlaces env).find? files.isThere

def notFoundText : String :=
  "uv not found. Install: curl -LsSf https://astral.sh/uv/install.sh | sh"

end Uv

end CheckWorker
