import CheckWorker.Proofs.Gateway.Answers
import CheckWorker.Proofs.Session.Custody
import CheckWorker.Proofs.Staging.Confinement

/-!
# Checks do not depend on what was before

An engine that sees nothing but its arguments and the file that the first of them names sees the
same in every check of the same text: the path, the flags and the code of that check, whatever was
staged, installed or run before. So two checks of the same text that get as far as the engine end
alike, in whatever state they find the session, the host and the files. Only the time that they take
may differ.
-/

namespace CheckWorker

open Act

/-- What an engine is if it sees only its arguments and what it reads from one file. -/
abbrev EngineFunction :=
  List String → Except FileError ByteArray → Outcome EngineOutput

/-- A run of the engine is a function of its arguments and of what, at the moment of the call, is
read from the file that the first of them names. -/
structure Host.RunsBy {σ : Type} (host : Host σ) (run : EngineFunction) : Prop where
  answer : ∀ handle file flags state files,
    (host.answer (.run handle (file :: flags)) state files).outcome =
      run (file :: flags) (files.read ⟨file⟩)

/-- A host on which nothing goes wrong, with a given function for its engine. -/
def Host.running (run : EngineFunction) : Host Unit where
  answer call _ files :=
    match call with
    | .ensureReady => { outcome := .ok (), state := (), files }
    | .install _ => { outcome := .ok (), state := (), files }
    | .installedVersion _ => { outcome := .ok EngineSpec.standardVersion, state := (), files }
    | .hostVersion => { outcome := .ok "0.4.18", state := (), files }
    | .runtimeVersion => { outcome := .ok "3.12.1", state := (), files }
    | .launch _ _ => { outcome := .ok (), state := (), files }
    | .importEntry _ => { outcome := .ok (), state := (), files }
    | .run _ args =>
        { outcome := run args (files.read ⟨args.head?.getD ""⟩), state := (), files }
  drop _ _ := ((), [])

theorem runsBy_running (run : EngineFunction) : (Host.running run).RunsBy run :=
  ⟨fun _ _ _ _ _ => rfl⟩

namespace Outcome

variable {α β : Type}

def map (f : α → β) : Outcome α → Outcome β
  | .ok a => .ok (f a)
  | .failed e => .failed e
  | .panicked p => .panicked p

def isOk : Outcome α → Bool
  | .ok _ => true
  | .failed _ => false
  | .panicked _ => false

end Outcome

/-- The result without the time that the check took. -/
def CheckResult.untimed (r : CheckResult) : CheckResult :=
  { r with durationMs := 0 }

/-- The event without the time that a check took. -/
def Event.untimed : Event → Event
  | .result r => .result r.untimed
  | e => e

/-- What a check tells of what the engine gave back, but for the time. -/
def EngineOutput.findings (o : EngineOutput) : CheckResult where
  diagnostics := Diagnostic.ofReport o.text
  rawText := o.text
  exitStatus := o.status
  durationMs := 0

variable {σ : Type} {host : Host σ} {setup : Setup} {check : Check}

namespace Session

variable {w w' : World σ} {started : Aside σ}

/-- What a check does before the engine is run. -/
def beforeRun (host : Host σ) (setup : Setup) (check : Check) (started : Act σ Unit) :
    Act σ FilePath := do
  let _ ← warmUp host
  started
  stage setup check

/-- What a check does when its code is staged. -/
def afterStaging (host : Host σ) (check : Check) (path : FilePath) : Act σ CheckResult := do
  let before ← Act.look World.clock
  let output ← runEngine host (path.text :: check.flags)
  let after ← Act.look World.clock
  return {
    diagnostics := Diagnostic.ofReport output.text
    rawText := output.text
    exitStatus := output.status
    durationMs := after - before }

theorem runCheck_eq (started : Act σ Unit) :
    runCheck host setup check started =
      beforeRun host setup check started >>= afterStaging host check := by
  simp only [beforeRun, Act.bind_assoc]
  rfl

/-- When warming up has ended well, an engine is held, and it is warm. -/
theorem engine_of_warmUp {imported : Bool} (h : warmUp host w = (.ok imported, w')) :
    ∃ handle, w'.engine = .ready handle true := by
  have hwarm : Triple (fun _ => True) (warmUp host)
      (fun _ w => ∃ handle, w.engine = .ready handle true) (fun _ _ => True) (fun _ _ => True) := by
    refine Triple.bind (Q := fun e w => w.engine = e) (Triple.look _ fun w _ => rfl) fun e => ?_
    match e with
    | .uninitialized => exact Triple.fail _ fun _ _ => trivial
    | .ready handle true => exact Triple.pure false fun w hw => ⟨handle, hw⟩
    | .ready handle false =>
        refine Triple.bind (Q := fun _ _ => True) (Triple.ask fun w _ => ?_) fun _ =>
          Triple.bind (Q := fun _ w => w.engine = .ready handle true)
            (Triple.alter _ fun w _ => rfl) fun _ => Triple.pure true fun w hw => ⟨handle, hw⟩
        cases (Act.ask host (.importEntry handle) w).1 <;> trivial
  exact hwarm.ok w imported w' trivial h

/-- A check that gets as far as the engine finds one to run, and its code has just been staged. -/
theorem exists_of_beforeRun {path : FilePath}
    (h : beforeRun host setup check started.act w = (.ok path, w')) :
    (∃ files, setup.area.stage files check.filename check.code check.cacheDir =
        (w'.files, .ok path)) ∧
      ∃ handle, w'.engine = .ready handle true := by
  obtain ⟨imported, w₁, hwarm, h⟩ := exists_of_bind_eq_ok h
  obtain ⟨⟨⟩, w₂, hstarted, hstage⟩ := exists_of_bind_eq_ok h
  obtain ⟨handle, he⟩ := engine_of_warmUp hwarm
  have he₂ : w₂.engine = .ready handle true := by
    have hkept := started.engine_eq w₁
    rwa [hstarted, he] at hkept
  unfold stage at hstage
  split at hstage
  · next hfiles =>
      cases hstage
      exact ⟨⟨_, hfiles⟩, handle, he₂⟩
  · cases hstage

theorem runEngine_of_ready {handle : Handle} {warm : Bool} (h : w.engine = .ready handle warm)
    (args : List String) : runEngine host args w = Act.ask host (.run handle args) w := by
  simp [runEngine, bind, andThen, Act.look, h]

theorem outcome_afterStaging {run : EngineFunction} (hrun : host.RunsBy run) {handle : Handle}
    {warm : Bool} (he : w.engine = .ready handle warm) {path : FilePath} {bytes : ByteArray}
    (hread : w.files.read path = .ok bytes) :
    (afterStaging host check path w).1.map CheckResult.untimed =
      (run (path.text :: check.flags) (.ok bytes)).map EngineOutput.findings := by
  have hanswer : (Act.ask host (.run handle (path.text :: check.flags)) w).1 =
      run (path.text :: check.flags) (.ok bytes) := by
    rw [← hread]
    exact hrun.answer handle path.text check.flags w.host w.files
  have hengine : runEngine host (path.text :: check.flags) w = _ := runEngine_of_ready he _
  rw [← hanswer, ← hengine]
  simp only [afterStaging, bind, andThen, Act.look]
  rcases runEngine host (path.text :: check.flags) w with ⟨_ | _ | _, w₁⟩ <;> rfl

/-- A check that gets as far as the engine ends as the engine's function says, whatever was before.
-/
theorem outcome_runCheck {run : EngineFunction} (hrun : host.RunsBy run)
    (h : (beforeRun host setup check started.act w).1.isOk = true) :
    (runCheck host setup check started.act w).1.map CheckResult.untimed =
      (run ((setup.area.pathOf check.filename).text :: check.flags)
        (.ok check.code.toUTF8)).map EngineOutput.findings := by
  rcases hbefore : beforeRun host setup check started.act w with ⟨path | _ | _, w₁⟩ <;>
    simp only [hbefore, Outcome.isOk, Bool.false_eq_true] at h
  obtain ⟨⟨files, hstage⟩, handle, he⟩ := exists_of_beforeRun hbefore
  obtain ⟨rfl, hread⟩ := StagingArea.read_of_stage hstage
  rw [runCheck_eq, bind_ok hbefore]
  exact outcome_afterStaging hrun he hread

end Session

namespace Gateway

variable (host : Host σ) (g : Gateway) {w : World σ}

/-- What is told of the end of a check. -/
def checkAnswer (check : Check) : Outcome CheckResult → Event
  | .ok r => .result r
  | .failed e => .error (faultText (.check check) (.error e))
  | .panicked p => .error (faultText (.check check) (.panic p))

/-- Whether a check that comes in gets past warming up and staging. -/
def reachesEngine (check : Check) (w : World σ) : Bool :=
  (Session.beforeRun host g.setup check (Act.alter (World.emit · .checking)) w).1.isOk

theorem untimed_checkAnswer (o : Outcome CheckResult) :
    (checkAnswer check o).untimed = checkAnswer check (o.map CheckResult.untimed) := by
  cases o <;> rfl

theorem told_beforeRun {path : FilePath} {w' : World σ}
    (h : Session.beforeRun host g.setup check (Act.alter (World.emit · .checking)) w =
      (.ok path, w')) : w'.told = w.told ++ [.checking] := by
  have before := (steady_told host w.told).keeps
  have after := (steady_told host (w.told ++ [.checking])).keeps
  have htold : Triple (fun w' : World σ => w'.told = w.told)
      (Session.beforeRun host g.setup check (Act.alter (World.emit · .checking)))
      (fun _ w' => w'.told = w.told ++ [.checking]) (fun _ _ => True) (fun _ _ => True) := by
    refine Triple.bind (Q := fun _ w' => w'.told = w.told) ?_ fun _ =>
      Triple.bind (Q := fun _ w' => w'.told = w.told ++ [.checking]) ?_ fun _ => ?_
    · exact before.warmUp.afterFault (fun _ _ _ => trivial) (fun _ _ _ => trivial)
    · exact Triple.alter _ fun w' hw => by simp [hw]
    · exact (after.stage _ _).afterFault (fun _ _ _ => trivial) (fun _ _ _ => trivial)
  exact htold.ok w path w' rfl h

theorem told_afterStaging (path : FilePath) (w : World σ) :
    (Session.afterStaging host check path w).2.told = w.told := by
  have hkind := (steady_told host w.told).keeps
  have hkeeps : Keeps (fun w' : World σ => w'.told = w.told)
      (Session.afterStaging host check path) :=
    hkind.bind (hkind.look _ World.inward_clock) fun _ => hkind.bind (hkind.runEngine _) fun _ =>
      hkind.bind (hkind.look _ World.inward_clock) fun _ => hkind.pure _
  exact hkeeps.apply rfl

/-- The end of a check that gets as far as the engine is told after word of its beginning. -/
theorem told_check (h : g.reachesEngine host check w = true) :
    (g.handle host (.check check) w).told = w.told ++ [.checking, checkAnswer check
      (Session.runCheck host g.setup check (Act.alter (World.emit · .checking)) w).1] := by
  have htold : (Session.runCheck host g.setup check
      (Act.alter (World.emit · .checking)) w).2.told = w.told ++ [.checking] := by
    rw [Session.runCheck_eq]
    unfold reachesEngine at h
    rcases hbefore : Session.beforeRun host g.setup check
      (Act.alter (World.emit · .checking)) w with ⟨path | _ | _, w₁⟩ <;>
      simp only [hbefore, Outcome.isOk, Bool.false_eq_true] at h
    rw [bind_ok hbefore, told_afterStaging, told_beforeRun host g hbefore]
  rcases hrun : Session.runCheck host g.setup check (Act.alter (World.emit · .checking)) w with
    ⟨r | e | p, w₁⟩
  all_goals
    rw [hrun] at htold
    have hend : w₁.told = w.told ++ [.checking] := htold
  case ok =>
    have hdispatch : g.dispatch host (.check check) w = (.ok (), w₁.emit (.result r)) :=
      bind_ok hrun
    simp [handle_eq, hdispatch, Outcome.fault?, checkAnswer, hend]
  case failed =>
    have hdispatch : g.dispatch host (.check check) w = (.failed e, w₁) := bind_failed hrun
    simp [handle_eq, hdispatch, Outcome.fault?, checkAnswer, hend]
  case panicked =>
    have hdispatch : g.dispatch host (.check check) w = (.panicked p, w₁) := bind_panicked hrun
    simp [handle_eq, hdispatch, Outcome.fault?, checkAnswer, hend]

/-- What two checks of the same text have in common. -/
structure Alike (check : Check) (w w' : World σ) : Prop where
  outcome : (Session.runCheck host g.setup check (Act.alter (World.emit · .checking)) w).1.map
      CheckResult.untimed =
    (Session.runCheck host g.setup check (Act.alter (World.emit · .checking)) w').1.map
      CheckResult.untimed
  told : ∃ e e' : Event, (g.handle host (.check check) w).told = w.told ++ [.checking, e] ∧
    (g.handle host (.check check) w').told = w'.told ++ [.checking, e'] ∧ e.untimed = e'.untimed

/-- With an engine that sees only its arguments and the file that it checks, two checks of the same
text that get past warming up and staging end alike, whatever requests came before them. -/
theorem alike_handleAll {run : EngineFunction} (hrun : host.RunsBy run) (check : Check)
    (items items' : List Inbound) (state state' : σ) (files files' : FileTree)
    (channel channel' : Channel)
    (h : g.reachesEngine host check
      (g.handleAll host items (World.start state files channel)) = true)
    (h' : g.reachesEngine host check
      (g.handleAll host items' (World.start state' files' channel')) = true) :
    Alike host g check (g.handleAll host items (World.start state files channel))
      (g.handleAll host items' (World.start state' files' channel')) := by
  have houtcome {w : World σ} (hw : g.reachesEngine host check w = true) :
      (Session.runCheck host g.setup check (Act.alter (World.emit · .checking)) w).1.map
        CheckResult.untimed = _ :=
    @Session.outcome_runCheck _ _ _ _ w (.telling .checking) _ hrun hw
  have hsame := (houtcome h).trans (houtcome h').symm
  refine ⟨hsame, _, _, told_check host g h, told_check host g h', ?_⟩
  rw [untimed_checkAnswer, untimed_checkAnswer]
  exact congrArg (checkAnswer check) hsame

/-- An engine that tells how long the file is. -/
def measure : EngineFunction := fun _ content =>
  match content with
  | .ok bytes => .ok ⟨"", "", .ofNat bytes.size⟩
  | .error _ => .ok ⟨"", "", -1⟩

/-- Requests that fail, and checks of the same and of another file, before an engine is held. -/
def checkered : List Inbound := [
    .request (.check ⟨"a.py", "x", [], none⟩),
    .request (.init none),
    .request (.check ⟨"a.py", "import os", ["--strict"], some "cache/a.py"⟩),
    .request (.check ⟨"b.py", "", [], none⟩),
    .request (.check ⟨"../a.py", "y", [], none⟩),
    .line "init",
    .request (.init (some "1.9")),
    .request (.init (some "1.10"))]

theorem alike_after_checkered :
    let host := Host.running measure
    let g : Gateway := ⟨⟨.standard, .standard, ⟨⟨"/app"⟩⟩⟩, EngineSpec.standardVersion⟩
    let check : Check := ⟨"a.py", "x", [], none⟩
    let fresh := World.start () ⟨[], []⟩ .listened
    host.RunsBy measure ∧
      g.reachesEngine host check (g.handleAll host [.request (.init none)] fresh) = true ∧
      g.reachesEngine host check (g.handleAll host checkered fresh) = true ∧
      Alike host g check (g.handleAll host [.request (.init none)] fresh)
        (g.handleAll host checkered fresh) := by
  intro host g check fresh
  have hshort : g.reachesEngine host check
      (g.handleAll host [.request (.init none)] fresh) = true := by decide +kernel
  have hlong : g.reachesEngine host check (g.handleAll host checkered fresh) = true := by
    decide +kernel
  exact ⟨runsBy_running measure, hshort, hlong,
    alike_handleAll host g (runsBy_running measure) check _ _ _ _ _ _ _ _ hshort hlong⟩

end Gateway

end CheckWorker
