/-!
# The engine

Which checker is installed and how it is reached, and what a run of it gives back.
-/

namespace CheckWorker

structure EngineSpec where
  package : String
  module : String
  deriving DecidableEq

namespace EngineSpec

def standard : EngineSpec :=
  ⟨"mypy", "mypy.api"⟩

def standardVersion : String :=
  "1.10.0"

end EngineSpec

structure EngineOutput where
  stdout : String
  stderr : String
  status : Int32
  deriving DecidableEq

/-- All that a run wrote: what went to the first stream and then what went to the second. -/
def EngineOutput.text (o : EngineOutput) : String :=
  o.stdout ++ o.stderr

end CheckWorker
