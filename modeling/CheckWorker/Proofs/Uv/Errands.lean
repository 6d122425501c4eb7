import CheckWorker.Proofs.Engine.Jobs
import CheckWorker.Proofs.Programs.Record
import CheckWorker.Proofs.Text.Lines
import CheckWorker.Proofs.World.Fault
import CheckWorker.Uv.Host

/-!
# Errands

What a host has run to install an engine: the virtual environment is made, packages are installed,
and the version of one of them is asked for. Each errand has its command, its lines that are passed
on whether it succeeds or not, and its way to fail. The calls of the host are told by the errands
that they run.
-/

namespace CheckWorker.UvHost

inductive Errand
  | venv
  | install (packages : List String)
  | version (package : String)
  deriving DecidableEq

namespace Errand

variable (settings : UvSettings)

def program (uv : FilePath) : Errand → FilePath
  | .venv => uv
  | .install _ => uv
  | .version _ => interpreter settings.runtimeDir

def args : Errand → List String
  | .venv => ["venv", settings.runtimeDir.text] ++
      (settings.python.map fun version => ["--python", version]).getD []
  | .install packages =>
      ["pip", "install", "--python", (interpreter settings.runtimeDir).text] ++ packages
  | .version package => ["-c", versionScript, package]

/-- The lines that are passed on of what was written. -/
def passedOn : Errand → Except FileError Finished → List String
  | .venv, .ok f => f.stderr.decodeLossy.solidPieces
  | .install _, .ok f => f.stdout.decodeLossy.solidPieces ++ f.stderr.decodeLossy.solidPieces
  | .version _, .ok _ => []
  | _, .error _ => []

/-- The error of a command that could not be run, or that did not succeed. -/
def error? : Errand → Except FileError Finished → Option EngineError
  | .venv, .error e => some (.hostUnavailable ("Failed to run uv venv: " ++ e.message))
  | .venv, .ok f =>
      if f.isSuccess then none else some (.hostUnavailable ("uv venv failed: " ++ f.complaint))
  | .install _, .error e => some (.install ("Failed to run uv pip install: " ++ e.message))
  | .install _, .ok f =>
      if f.isSuccess then none
      else some (.install ("uv pip install exited with " ++ f.statusText ++ ": " ++ f.complaint))
  | .version package, .error e =>
      some (.query (package ++ " version: " ++
        ("Failed to run " ++ (interpreter settings.runtimeDir).text ++ ": " ++ e.message)))
  | .version package, .ok f =>
      if f.isSuccess then none
      else some (.query (package ++ " version: " ++
        ("python exited with " ++ f.statusText ++ ": " ++ f.complaint)))

/-- Without the virtual environment the host is of no use. -/
theorem exists_of_error?_venv {settings : UvSettings} {result : Except FileError Finished}
    {e : EngineError} (h : error? settings .venv result = some e) :
    ∃ detail, e = .hostUnavailable detail := by
  cases result with
  | error cause => exact ⟨_, (Option.some.inj h).symm⟩
  | ok f =>
      rw [error?] at h
      split at h
      · cases h
      · exact ⟨_, (Option.some.inj h).symm⟩

end Errand

/-- An errand that was run with a tool, and what came of it. -/
structure Run where
  errand : Errand
  uv : FilePath
  result : Except FileError Finished

namespace Run

variable (settings : UvSettings)

/-- What is written down of an errand. -/
def deeds (run : Run) : List Deed :=
  Programs.deedsOf (run.errand.program settings run.uv) (run.errand.args settings) run.result

def logs (run : Run) : List String :=
  run.errand.passedOn run.result

def error? (run : Run) : Option EngineError :=
  run.errand.error? settings run.result

end Run

variable {π α : Type} {programs : Programs π} {settings : UvSettings} {env : Environment}
  {s : UvHost (Recorded π)} {files : FileTree} {uv : FilePath}

/-- A call of the host has run some errands: they are on record and their lines were passed on, and
one that failed was the last of them and gave the call its error. -/
structure Ran (settings : UvSettings) (s : UvHost (Recorded π))
    (reply : Reply (UvHost (Recorded π)) α) (runs : List Run) : Prop where
  deeds_eq : reply.state.programs.deeds = s.programs.deeds ++ runs.flatMap (Run.deeds settings)
  logs_eq : reply.logs = runs.flatMap Run.logs
  last : ∀ run ∈ runs, ∀ e, run.error? settings = some e →
    runs.getLast? = some run ∧ reply.outcome.fault? = some (.error e)

theorem Ran.nil {reply : Reply (UvHost (Recorded π)) α}
    (hdeeds : reply.state.programs.deeds = s.programs.deeds) (hlogs : reply.logs = []) :
    Ran settings s reply [] where
  deeds_eq := by
    rw [hdeeds, List.flatMap_nil, List.append_nil]
  logs_eq := hlogs
  last _ hrun := absurd hrun List.not_mem_nil

/-- A call of the host has run one errand, and has its error from it. -/
structure RanOne (settings : UvSettings) (s : UvHost (Recorded π))
    (reply : Reply (UvHost (Recorded π)) α) (run : Run) : Prop where
  deeds_eq : reply.state.programs.deeds = s.programs.deeds ++ run.deeds settings
  logs_eq : reply.logs = run.logs
  uv_eq : reply.state.uv = s.uv
  fault_eq : reply.outcome.fault? = (run.error? settings).map .error

theorem RanOne.ran {reply : Reply (UvHost (Recorded π)) α} {run : Run}
    (h : RanOne settings s reply run) : Ran settings s reply [run] where
  deeds_eq := by
    rw [List.flatMap_singleton]
    exact h.deeds_eq
  logs_eq := by
    rw [List.flatMap_singleton]
    exact h.logs_eq
  last run' hrun e herror := by
    obtain rfl := List.mem_singleton.mp hrun
    refine ⟨rfl, ?_⟩
    rw [h.fault_eq, herror]
    rfl

/-! ## One command -/

/-- The state and the files after a command, and what came of it. -/
theorem exists_complete (programs : Programs π) (program : FilePath) (args : List String)
    (s : UvHost (Recorded π)) (files : FileTree) : ∃ result state' files',
      complete programs.recording program args s files =
        { outcome := .ok result, state := state', files := files' } ∧
      state'.programs.deeds = s.programs.deeds ++ Programs.deedsOf program args result ∧
      state'.uv = s.uv := by
  refine ⟨_, _, _, rfl, ?_, rfl⟩
  exact Programs.deeds_tryComplete programs program args s.programs files

/-- What a call does with the outcome of an errand: it passes on the lines of the errand, changes
nothing, and fails if the errand did. -/
def Reports (settings : UvSettings) (errand : Errand)
    (k : Except FileError Finished → Job (UvHost (Recorded π)) α) : Prop :=
  ∀ result s files, ∃ outcome,
    k result s files = { outcome, state := s, files, logs := errand.passedOn result } ∧
      outcome.fault? = (errand.error? settings result).map .error

theorem exists_ranOne_of_reports (programs : Programs π) (errand : Errand)
    {k : Except FileError Finished → Job (UvHost (Recorded π)) α}
    (h : Reports settings errand k) (uv : FilePath) (s : UvHost (Recorded π)) (files : FileTree) :
    ∃ result, RanOne settings s ((complete programs.recording (errand.program settings uv)
      (errand.args settings) >>= k) s files) ⟨errand, uv, result⟩ := by
  obtain ⟨result, state', files', hcomplete, hdeeds, huv⟩ := exists_complete programs
    (errand.program settings uv) (errand.args settings) s files
  obtain ⟨outcome, hreply, hfault⟩ := h result state' files'
  rw [Job.bind_of_silent hcomplete, hreply]
  exact ⟨result, hdeeds, rfl, huv, hfault⟩

/-! ## Calls -/

theorem fault_ite (c : Bool) (e : EngineError) :
    (if c then Outcome.ok () else .failed e).fault? =
      (if c then none else some e).map Fault.error := by
  cases c <;> rfl

theorem knownUv_of_known (h : s.uv = some uv) (files : FileTree) :
    knownUv s files = { outcome := .ok uv, state := s, files } := by
  have hstate : Job.state s files = { outcome := .ok s, state := s, files } := rfl
  rw [knownUv, Job.bind_of_silent hstate, h]
  rfl

theorem exists_ranOne_install (programs : Programs π) (settings : UvSettings) (h : s.uv = some uv)
    (packages : List String) (files : FileTree) :
    ∃ result, RanOne settings s (install programs.recording settings packages s files)
      ⟨.install packages, uv, result⟩ := by
  rw [install, Job.bind_of_silent (knownUv_of_known h files)]
  refine exists_ranOne_of_reports programs (.install packages) ?_ uv s files
  rintro (e | f) s files
  · exact ⟨_, rfl, rfl⟩
  · refine ⟨_, ?_, fault_ite f.isSuccess _⟩
    simp only [passOnText, String.solidLines_eq_solidPieces, Job.passOn_bind, Job.ite_fail,
      Job.close, List.append_nil]
    rfl

/-- What the directory of the virtual environment is put into, if it can be made. -/
def makeRoom (settings : UvSettings) (files : FileTree) : FileTree × Except FileError Unit :=
  match settings.runtimeDir.parent? with
  | none => (files, .ok ())
  | some parent => files.makeDirectories parent

theorem makeRuntimeParent_of_ok {files' : FileTree}
    (h : makeRoom settings files = (files', .ok ())) (s : UvHost (Recorded π)) :
    makeRuntimeParent settings s files = { outcome := .ok (), state := s, files := files' } := by
  unfold makeRoom at h
  unfold makeRuntimeParent
  cases hparent : settings.runtimeDir.parent? with
  | none =>
      rw [hparent] at h
      cases h
      rfl
  | some parent =>
      simp only [hparent] at h
      have hmade : Job.withFiles (fun files => (files.makeDirectories parent).swap) s files =
          { outcome := .ok (.ok ()), state := s, files := files' } := by
        simp only [Job.withFiles, h, Prod.swap_prod_mk]
      exact Job.bind_of_silent hmade

theorem exists_makeRuntimeParent_of_error {files' : FileTree} {e : FileError}
    (h : makeRoom settings files = (files', .error e)) (s : UvHost (Recorded π)) :
    ∃ detail, makeRuntimeParent settings s files =
      { outcome := .failed (.hostUnavailable detail), state := s, files := files' } := by
  unfold makeRoom at h
  unfold makeRuntimeParent
  cases hparent : settings.runtimeDir.parent? with
  | none =>
      rw [hparent] at h
      cases h
  | some parent =>
      simp only [hparent] at h
      have hmade : Job.withFiles (fun files => (files.makeDirectories parent).swap) s files =
          { outcome := .ok (.error e), state := s, files := files' } := by
        simp only [Job.withFiles, h, Prod.swap_prod_mk]
      exact ⟨_, Job.bind_of_silent hmade⟩

theorem exists_ranOne_makeRuntime (programs : Programs π) (h : s.uv = some uv)
    {files' : FileTree}
    (hroom : makeRoom settings files = (files', .ok ())) :
    ∃ result, RanOne settings s (makeRuntime programs.recording settings s files)
      ⟨.venv, uv, result⟩ := by
  rw [makeRuntime, Job.bind_of_silent (knownUv_of_known h files),
    Job.bind_of_silent (makeRuntimeParent_of_ok hroom s)]
  refine exists_ranOne_of_reports programs .venv ?_ uv s files'
  rintro (e | f) s files
  · exact ⟨_, rfl, rfl⟩
  · refine ⟨_, ?_, fault_ite f.isSuccess _⟩
    simp only [passOnText, String.solidLines_eq_solidPieces, Job.passOn_bind, Job.ite_fail,
      Job.close, List.append_nil]
    rfl

theorem exists_ranOne_installedVersion (programs : Programs π) (settings : UvSettings)
    (uv : FilePath) (package : String) (s : UvHost (Recorded π)) (files : FileTree) :
    ∃ result, RanOne settings s (installedVersion programs.recording settings package s files)
      ⟨.version package, uv, result⟩ := by
  rw [installedVersion, runPython, Job.bind_assoc]
  refine exists_ranOne_of_reports programs (.version package) ?_ uv s files
  rintro (e | f) s files <;> dsimp only <;> rw [Job.pure_bind]
  · exact ⟨_, rfl, rfl⟩
  · rw [printed, Errand.error?]
    cases f.isSuccess with
    | true => exact ⟨_, rfl, rfl⟩
    | false => exact ⟨_, rfl, rfl⟩

end CheckWorker.UvHost
