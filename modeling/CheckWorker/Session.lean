import CheckWorker.Installation
import CheckWorker.Message.Request
import CheckWorker.Report.Reading
import CheckWorker.Staging

/-!
# Sessions

A session holds at most one engine. Initializing gives up the engine that is held before anything
else, and only an initialization that succeeds to its end leaves a new one, which is cold. The
engine is imported once, by a warm-up or by the first check; a failed import may be tried again.
-/

namespace CheckWorker

structure Setup where
  table : VersionTable
  spec : EngineSpec
  area : StagingArea

namespace Session

variable {σ : Type} (host : Host σ) (setup : Setup)

def versions (engine : String) : Act σ Versions := do
  let host' ← Act.ask host .hostVersion
  let hostRuntime ← Act.ask host .runtimeVersion
  return { host := host', hostRuntime, engine }

/-- Installs an engine and launches it, for a session that holds none. -/
def equip (requested : String) : Act σ Versions := do
  let installed ← installEngine host setup.table setup.spec requested
  let handle ← Act.launch host setup.spec
  let versions ← Act.guarding host handle (versions host installed.version)
  Act.alter fun w => { w with engine := .ready handle false }
  return versions

/-- Installs an engine and launches it, in place of any other. -/
def init (requested : String) : Act σ Versions := do
  Act.alter (World.release host)
  equip host setup requested

/-- Imports the engine unless that has been done; the answer is whether it was done now. -/
def warmUp : Act σ Bool := do
  match ← Act.look World.engine with
  | .uninitialized => Act.fail .notInitialized
  | .ready _ true => return false
  | .ready handle false =>
      Act.ask host (.importEntry handle)
      Act.alter fun w => { w with engine := .ready handle true }
      return true

def stage (check : Check) : Act σ FilePath := fun w =>
  match setup.area.stage w.files check.filename check.code check.cacheDir with
  | (files, .ok path) => (.ok path, { w with files })
  | (files, .error e) => (.failed e, { w with files })

def runEngine (args : List String) : Act σ EngineOutput := do
  match ← Act.look World.engine with
  | .uninitialized => Act.fail .notInitialized
  | .ready handle _ => Act.ask host (.run handle args)

def checkStaged (check : Check) : Act σ CheckResult := do
  let path ← stage setup check
  let before ← Act.look World.clock
  let output ← runEngine host (path.text :: check.flags)
  let after ← Act.look World.clock
  return {
    diagnostics := Diagnostic.ofReport output.text
    rawText := output.text
    exitStatus := output.status
    durationMs := after - before }

/-- Runs a check. `started` is done once the engine is warm, before the code is staged. -/
def runCheck (check : Check) (started : Act σ Unit) : Act σ CheckResult := do
  let _ ← warmUp host
  started
  checkStaged host setup check

end Session

end CheckWorker
