import CheckWorker.FileSystem.FileError

/-!
# What can go wrong with an engine

Every error ends up as the message of one event. A failure that was met while doing something else
is told with its circumstances in front, outermost first.
-/

namespace CheckWorker

inductive EngineError
  | hostUnavailable (detail : String)
  | install (detail : String)
  | versionMismatch (package expected found : String)
  | query (detail : String)
  | importing (detail : String)
  | invocation (detail : String)
  | notInitialized
  | invalidFilename (name : String)
  | invalidCacheDir (dir : String)
  | staging (path : String) (cause : FileError)
  deriving DecidableEq

def EngineError.message : EngineError → String
  | .hostUnavailable detail => "Package host unavailable: " ++ detail
  | .install detail => "Install failed: " ++ detail
  | .versionMismatch package expected found =>
      "Installed " ++ package ++ " " ++ found ++ ", expected " ++ expected
  | .query detail => "Version query failed: " ++ detail
  | .importing detail => "Engine import failed: " ++ detail
  | .invocation detail => "Engine invocation failed: " ++ detail
  | .notInitialized => "Engine not initialized; send 'init' first"
  | .invalidFilename name =>
      "Invalid filename '" ++ name ++ "': expected a single relative path segment"
  | .invalidCacheDir dir =>
      "Invalid cache directory '" ++ dir ++ "': expected a relative path inside the staging area"
  | .staging path cause => "Failed to stage " ++ path ++ ": " ++ cause.message

/-- A failure with its circumstances: what was being done, outermost first, and what went wrong at
last. The list is never empty where a failure is raised. -/
structure Trouble where
  outer : String
  inner : List String
  deriving DecidableEq

namespace Trouble

def plain (what : String) : Trouble :=
  ⟨what, []⟩

def within (doing : String) (t : Trouble) : Trouble :=
  ⟨doing, t.outer :: t.inner⟩

def line (t : Trouble) : String :=
  ": ".intercalate (t.outer :: t.inner)

/-- A text after a heading, its further lines set in as far as its first. -/
def setIn (heading text : String) : String :=
  let margin := String.ofList (List.replicate heading.length ' ')
  heading ++ ("\n" ++ margin).intercalate (text.splitOn "\n")

/-- What led to a failure, one cause below the other. Several are numbered. -/
def causes : List String → List String
  | [cause] => [setIn "    " cause]
  | causes => causes.zipIdx.map fun (cause, n) => setIn ("    " ++ toString n ++ ": ") cause

def report (t : Trouble) : String :=
  let what := "Error: " ++ t.outer
  if t.inner.isEmpty then what ++ "\n"
  else "\n".intercalate (what :: "" :: "Caused by:" :: causes t.inner) ++ "\n"

end Trouble

end CheckWorker
