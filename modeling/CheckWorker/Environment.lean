import CheckWorker.FileSystem.FilePath

/-!
# The environment

The variables that a worker looks at, and the home that they give it.
-/

namespace CheckWorker

/-- The variables that a worker looks at, as far as they are set. -/
structure Environment where
  home : Option String
  path : Option String
  workerHome : Option String
  uv : Option String
  logFilter : Option String
  accountHome : Option String

namespace Environment

def userHome? (env : Environment) : Option String :=
  env.home.filter (· ≠ "") <|> env.accountHome

/-- The home of a worker that is told no other: the variable for it, a directory in the user's home,
or one in the working directory. -/
def standardHome (env : Environment) : FilePath :=
  match env.workerHome with
  | some home => ⟨home⟩
  | none => (FilePath.mk (env.userHome?.getD ".")).join ".pycheck"

example (env : Environment) (h : env.workerHome = some "") : env.standardHome = ⟨""⟩ := by
  simp [standardHome, h]

end Environment

end CheckWorker
