import CheckWorker.Engine.Job
import CheckWorker.Shim.Engine
import CheckWorker.Shim.Source
import CheckWorker.Text.Words
import CheckWorker.Uv.Locating

/-!
# The uv host

Packages are installed with uv into one virtual environment, which is created when its interpreter
is missing. The tool is looked for until it is found once. What uv and the engine write beside their
answers is passed on before it is looked at whether they succeeded.
-/

namespace CheckWorker

structure UvSettings where
  home : FilePath
  runtimeDir : FilePath
  uv : Option FilePath
  python : Option String
  deriving DecidableEq

structure UvHost (π : Type) where
  programs : π
  /-- The tool, once it is known. -/
  uv : Option FilePath
  engine : Option ShimEngine

namespace UvHost

def versionScript : String :=
  "import importlib.metadata as md, sys; print(md.version(sys.argv[1]))"

def runtimeScript : String :=
  "import sys; print(sys.version.split()[0])"

def interpreter (runtimeDir : FilePath) : FilePath :=
  runtimeDir.join "bin/python"

/-- The version in what the tool says about itself: the second word if the first is its name. -/
def versionOfText (text : String) : String :=
  match Text.words text.toList with
  | ['u', 'v'] :: version :: _ => String.ofList version
  | _ => text.withoutBlankEnds

def printed (tool : String) (f : Finished) : Except Trouble String :=
  if f.isSuccess then .ok f.stdout.decodeLossy.withoutBlankEnds
  else .error (.plain (tool ++ " exited with " ++ f.statusText ++ ": " ++ f.complaint))

variable {π : Type} (programs : Programs π) (settings : UvSettings) (env : Environment)

def start (p : π) : UvHost π :=
  ⟨p, settings.uv, none⟩

def complete (program : FilePath) (args : List String) :
    Job (UvHost π) (Except FileError Finished) := fun s files =>
  let (result, p, files) := programs.tryComplete program args s.programs files
  { outcome := .ok result, state := { s with programs := p }, files }

def passOnText (bytes : ByteArray) : Job (UvHost π) Unit :=
  Job.passOn bytes.decodeLossy.solidLines

def knownUv : Job (UvHost π) FilePath := do
  match (← Job.state).uv with
  | some uv => return uv
  | none => Job.fail (.hostUnavailable "package host not prepared; call ensure_ready")

def findUv : Job (UvHost π) Unit := do
  match (← Job.state).uv with
  | some _ => return ()
  | none =>
      match Uv.locate? env (← Job.files) with
      | some uv => Job.alter fun s => { s with uv := some uv }
      | none => Job.fail (.hostUnavailable Uv.notFoundText)

def makeRuntimeParent : Job (UvHost π) Unit := do
  match settings.runtimeDir.parent? with
  | none => return ()
  | some parent =>
      let made ← Job.withFiles fun files => (files.makeDirectories parent).swap
      let doing := "Failed to create " ++ parent.text
      Job.orFail (fun e => .hostUnavailable ((Trouble.plain e.message).within doing).line) made

def venvArgs : List String :=
  ["venv", settings.runtimeDir.text] ++ (settings.python.map fun v => ["--python", v]).getD []

def makeRuntime : Job (UvHost π) Unit := do
  let uv ← knownUv
  makeRuntimeParent settings
  match ← complete programs uv (venvArgs settings) with
  | .error e =>
      Job.fail (.hostUnavailable ((Trouble.plain e.message).within "Failed to run uv venv").line)
  | .ok finished =>
      passOnText finished.stderr
      if finished.isSuccess then return ()
      else Job.fail (.hostUnavailable ("uv venv failed: " ++ finished.complaint))

/-- Makes sure that the tool is known and the virtual environment is there. -/
def ensureReady : Job (UvHost π) Unit := do
  findUv env
  if (← Job.files).isThere (interpreter settings.runtimeDir) then return ()
  else makeRuntime programs settings

def install (packages : List String) : Job (UvHost π) Unit := do
  let uv ← knownUv
  let args := ["pip", "install", "--python", (interpreter settings.runtimeDir).text] ++ packages
  match ← complete programs uv args with
  | .error e => Job.fail (.install ("Failed to run uv pip install: " ++ e.message))
  | .ok finished =>
      passOnText finished.stdout
      passOnText finished.stderr
      if finished.isSuccess then return ()
      else
        Job.fail (.install
          ("uv pip install exited with " ++ finished.statusText ++ ": " ++ finished.complaint))

def runPython (script : String) (args : List String) : Job (UvHost π) (Except Trouble String) := do
  let python := interpreter settings.runtimeDir
  match ← complete programs python (["-c", script] ++ args) with
  | .error e =>
      return .error ((Trouble.plain e.message).within ("Failed to run " ++ python.text))
  | .ok finished => return printed "python" finished

def installedVersion (package : String) : Job (UvHost π) String := do
  let result ← runPython programs settings versionScript [package]
  Job.orFail (fun t => .query (package ++ " version: " ++ t.line)) result

def runtimeVersion : Job (UvHost π) String := do
  let result ← runPython programs settings runtimeScript []
  Job.orFail (fun t => .query ("python version: " ++ t.line)) result

def hostVersion : Job (UvHost π) String := do
  let uv ← knownUv
  match ← complete programs uv ["--version"] with
  | .error e => Job.fail (.query ("uv version: " ++ e.message))
  | .ok finished =>
      let text ← Job.orFail (fun t => .query t.line) (printed "uv" finished)
      return versionOfText text

/-! ## Engines -/

/-- Starts the shim and reads its first line; a shim that does not greet well is ended. -/
def startShim (handle : Handle) (python shim : FilePath) (module : String) :
    Job (UvHost π) Unit := fun s files =>
  let (started, p, files) :=
    programs.tryStart handle python ["-u", shim.text, module] s.programs files
  match started with
  | .error e =>
      let trouble := (Trouble.plain e.message).within
        ("Failed to spawn engine shim with " ++ python.text)
      { outcome := .failed (.importing trouble.line), state := { s with programs := p }, files }
  | .ok frame =>
      let (engine, logs) := (ShimEngine.start handle).absorb frame
      match engine.greet with
      | (.ok (), engine) =>
          let state := { s with programs := p, engine := some engine }
          { outcome := .ok (), state, files, logs }
      | (.error t, engine) =>
          { outcome := .failed (.importing t.line)
            state := { s with programs := programs.stop handle p }
            files
            logs := logs ++ engine.errors.close }

def launch (spec : EngineSpec) (handle : Handle) : Job (UvHost π) Unit := do
  let shim ← Job.withFiles (Shim.materialize settings.home)
  let shim ← Job.orFail (fun t => .hostUnavailable t.line) shim
  startShim programs handle (interpreter settings.runtimeDir) shim spec.module

/-- Sends a request to an engine; one that is not running takes no input. -/
def exchange (handle : Handle) (request : Shim.Request) :
    Job (UvHost π) (Except Trouble Shim.Reply) := fun s files =>
  match s.engine.filter (·.handle == handle) with
  | none => { outcome := .ok (.error ShimEngine.closedInput), state := s, files }
  | some engine =>
      let (reply, engine, p, logs) := engine.exchange programs request s.programs
      let state := { s with programs := p, engine := some engine }
      { outcome := .ok reply, state, files, logs }

def importEntry (handle : Handle) : Job (UvHost π) Unit := do
  Job.close (ShimEngine.importOutcome (← exchange programs handle .importEntry))

def run (handle : Handle) (args : List String) : Job (UvHost π) EngineOutput := do
  Job.close (ShimEngine.runOutcome (← exchange programs handle (.run args)))

def drop (handle : Handle) (s : UvHost π) : UvHost π × List String :=
  match s.engine with
  | none => (s, [])
  | some engine =>
      if engine.handle = handle then
        ({ s with programs := programs.stop handle s.programs, engine := none },
          engine.errors.close)
      else (s, [])

def host : Host (UvHost π) where
  answer
    | .ensureReady => ensureReady programs settings env
    | .install packages => install programs settings packages
    | .installedVersion package => installedVersion programs settings package
    | .hostVersion => hostVersion programs
    | .runtimeVersion => runtimeVersion programs settings
    | .launch spec handle => launch programs settings spec handle
    | .importEntry handle => importEntry programs handle
    | .run handle args => run programs handle args
  drop := drop programs

end UvHost

end CheckWorker
