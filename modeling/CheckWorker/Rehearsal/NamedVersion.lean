/-!
# The version that an installation names

A rehearsal does not install anything, but it remembers which version was asked for.
-/

namespace CheckWorker

def unnamedVersion : String :=
  "0.0.0"

def afterPin? : List Char → Option (List Char)
  | '=' :: '=' :: rest => some rest
  | _ :: rest => afterPin? rest
  | [] => none

/-- The version that an installation names: that of its first package, if it is pinned. -/
def namedVersion (packages : List String) : String :=
  match packages.head?.bind fun p => afterPin? p.toList with
  | some version => String.ofList version
  | none => unnamedVersion

example : namedVersion ["mypy==1.10.0", "typing-extensions"] = "1.10.0" := by decide
example : namedVersion ["mypy @ file:///mypy.whl"] = "0.0.0" := by decide

end CheckWorker
