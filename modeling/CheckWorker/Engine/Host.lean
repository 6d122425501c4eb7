import CheckWorker.Engine.Error
import CheckWorker.Engine.Spec
import CheckWorker.FileSystem.FileTree

/-!
# Hosts

A host installs packages, launches engines and passes calls on to them. To this library it is a
function: it gets a call, its own state and the files, and says how the call ended, what became of
the state and the files, which lines of text it passed on meanwhile, and how long it took. A host
knows an engine by the number of its launch. It does not see who listens to the text it passes on,
so it cannot depend on that.
-/

namespace CheckWorker

/-- What stops a call without an error of its own: it may have left words behind. -/
inductive Panic
  | said (text : String)
  | silent
  deriving DecidableEq

def Panic.message : Panic → String
  | .said text => text
  | .silent => "unknown panic"

inductive Outcome (α : Type)
  | ok (a : α)
  | failed (e : EngineError)
  | panicked (p : Panic)
  deriving DecidableEq

/-- The number of a launch. -/
abbrev Handle := Nat

inductive Call
  | ensureReady
  | install (packages : List String)
  | installedVersion (package : String)
  | hostVersion
  | runtimeVersion
  | launch (spec : EngineSpec) (handle : Handle)
  | importEntry (handle : Handle)
  | run (handle : Handle) (args : List String)
  deriving DecidableEq

abbrev Call.Result : Call → Type
  | .ensureReady => Unit
  | .install _ => Unit
  | .installedVersion _ => String
  | .hostVersion => String
  | .runtimeVersion => String
  | .launch _ _ => Unit
  | .importEntry _ => Unit
  | .run _ _ => EngineOutput

/-- The end of a call, and what it did to the host's state and the files. -/
structure Reply (σ α : Type) where
  outcome : Outcome α
  state : σ
  files : FileTree
  logs : List String := []
  /-- How long the call took, in milliseconds. -/
  millis : UInt64 := 0

structure Host (σ : Type) where
  answer : (call : Call) → σ → FileTree → Reply σ call.Result
  /-- Ends an engine; the text that is left over is passed on. -/
  drop : Handle → σ → σ × List String

end CheckWorker
