import CheckWorker.Proofs.Gateway.Independence
import CheckWorker.Proofs.Session.Initialization
import CheckWorker.Proofs.Staging.Effects

/-!
# How a check goes

A check finds an engine that is warm, or it imports the one that is held; then it gives word that it
is about to start, stages its code, and runs the engine on the staged file. At each of these points
it may end, and what was done up to there is all that was done. When the engine is run, the file
holds the code of the check and the cache directory is there. From the moment that the engine is warm
it stays held, and warm.
-/

namespace CheckWorker

open Act

/-- What a check asks of the staging area. -/
def Check.staging (check : Check) : StageCall :=
  ⟨check.filename, check.code, check.cacheDir⟩

/-- What is told of a run of the engine that took some time. -/
def EngineOutput.result (o : EngineOutput) (durationMs : UInt64) : CheckResult where
  diagnostics := Diagnostic.ofReport (o.stdout ++ o.stderr)
  rawText := o.stdout ++ o.stderr
  exitStatus := o.status
  durationMs := durationMs

variable {σ : Type}

namespace Session

/-- A check can go on with an engine that is warm, or with a cold one once that has been imported. -/
inductive Warms (host : Host σ) (w : World σ) (handle : Handle) : List Note → World σ → Prop
  | before (h : w.engine = .ready handle true) : Warms host w handle [] w
  | now (h : w.engine = .ready handle false)
      (hok : (Act.ask host (.importEntry handle) w).1 = .ok ()) :
      Warms host w handle [.answered (.importEntry handle) (.ok ())]
        ((Act.ask host (.importEntry handle) w).2.holding (.ready handle true))

/-- How a check may go: what is noted meanwhile, how it ends, and the world that it leaves. -/
inductive CheckCourse (host : Host σ) (setup : Setup) (check : Check) (started : Aside σ)
    (w : World σ) : List Note → Outcome CheckResult → World σ → Prop
  | uninitialized (h : w.engine = .uninitialized) :
      CheckCourse host setup check started w [] (.failed .notInitialized) w
  | unimported (handle : Handle) (fault : Fault) (outcome : Outcome CheckResult)
      (h : w.engine = .ready handle false)
      (hfault : (Act.ask host (.importEntry handle) w).1.fault? = some fault)
      (houtcome : outcome.fault? = some fault) :
      CheckCourse host setup check started w
        [.answered (.importEntry handle) (Act.ask host (.importEntry handle) w).1] outcome
        (Act.ask host (.importEntry handle) w).2
  /-- Giving word of the start goes wrong. -/
  | interrupted (handle : Handle) (imports told : List Note) (warm : World σ) (fault : Fault)
      (outcome : Outcome CheckResult) (hwarm : Warms host w handle imports warm)
      (htold : (started.act warm).2.notes.toList = warm.notes.toList ++ told)
      (hfault : (started.act warm).1.fault? = some fault)
      (houtcome : outcome.fault? = some fault) :
      CheckCourse host setup check started w (imports ++ told) outcome (started.act warm).2
  | unstaged (handle : Handle) (imports told : List Note) (warm begun : World σ) (e : EngineError)
      (files : FileTree) (hwarm : Warms host w handle imports warm)
      (htold : begun.notes.toList = warm.notes.toList ++ told)
      (hstarted : started.act warm = (.ok (), begun))
      (hstage : setup.area.answer begun.files check.staging = (files, .error e)) :
      CheckCourse host setup check started w (imports ++ told) (.failed e) { begun with files }
  | ran (handle : Handle) (imports told : List Note) (warm begun after : World σ)
      (files : FileTree) (path : FilePath) (outcome : Outcome EngineOutput)
      (hwarm : Warms host w handle imports warm)
      (htold : begun.notes.toList = warm.notes.toList ++ told)
      (hstarted : started.act warm = (.ok (), begun))
      (hstaged : setup.area.Staged begun.files check.staging path files)
      (hrun : Act.ask host (.run handle (path.text :: check.flags)) { begun with files } =
        (outcome, after)) :
      CheckCourse host setup check started w
        (imports ++ told ++ [.answered (.run handle (path.text :: check.flags)) outcome])
        (outcome.map fun o => o.result (after.clock - begun.clock)) after

variable {host : Host σ} {setup : Setup} {check : Check} {started : Aside σ} {w w₁ : World σ}
  {handle : Handle} {imports made : List Note} {outcome : Outcome CheckResult}

/-! ## Warming up -/

theorem Warms.engine_eq (h : Warms host w handle imports w₁) : w₁.engine = .ready handle true := by
  cases h with
  | before h => exact h
  | now h hok => rfl

theorem Warms.notes_eq (h : Warms host w handle imports w₁) :
    w₁.notes.toList = w.notes.toList ++ imports := by
  cases h with
  | before h => simp
  | now h hok =>
      have hnotes := Act.ask_notes host (.importEntry handle) w
      rwa [hok] at hnotes

theorem warmUp_of_uninitialized (h : w.engine = .uninitialized) :
    warmUp host w = (.failed .notInitialized, w) := by
  simp [warmUp, Act.look, bind, andThen, h, Act.fail]

theorem warmUp_of_cold (h : w.engine = .ready handle false) :
    warmUp host w = (Act.ask host (.importEntry handle) >>= fun _ => do
      Act.alter (World.holding (.ready handle true))
      return true) w := by
  simp [warmUp, Act.look, bind, andThen, h, pure, Act.alter, World.holding]

theorem warmUp_of_warms (h : Warms host w handle imports w₁) :
    ∃ imported, warmUp host w = (.ok imported, w₁) := by
  cases h with
  | before h => exact ⟨false, by simp [warmUp, Act.look, bind, andThen, h, pure]⟩
  | now h hok =>
      refine ⟨true, ?_⟩
      rw [warmUp_of_cold h]
      exact bind_ok (Prod.ext hok rfl)

/-! ## The rest of a check -/

variable {files : FileTree}

theorem checkStaged_of_error {e : EngineError}
    (h : setup.area.answer w.files check.staging = (files, .error e)) :
    checkStaged host setup check w = (.failed e, { w with files }) := by
  have hanswer : setup.area.stage w.files check.filename check.code check.cacheDir =
      (files, .error e) := h
  have hstage : stage setup check w = (.failed e, { w with files }) := by
    simp only [stage, hanswer]
  rw [checkStaged, bind_failed hstage]

theorem checkStaged_of_ok {path : FilePath} {warm : Bool} (he : w.engine = .ready handle warm)
    (h : setup.area.answer w.files check.staging = (files, .ok path)) :
    checkStaged host setup check w =
      let ran := Act.ask host (.run handle (path.text :: check.flags)) { w with files }
      (ran.1.map fun o => o.result (ran.2.clock - w.clock), ran.2) := by
  have hanswer : setup.area.stage w.files check.filename check.code check.cacheDir =
      (files, .ok path) := h
  have hstage : stage setup check w = (.ok path, { w with files }) := by
    simp only [stage, hanswer]
  have hready : ({ w with files } : World σ).engine = .ready handle warm := he
  have hengine : runEngine host (path.text :: check.flags) { w with files } = _ :=
    runEngine_of_ready hready _
  rw [checkStaged, bind_ok hstage]
  simp only [bind, andThen, Act.look, hengine]
  rcases Act.ask host (.run handle (path.text :: check.flags)) { w with files } with
    ⟨o | e | p, w₁⟩ <;> rfl

/-- A check with an engine that is warm, or becomes so, leaves it held and warm, and goes to one of
four ends. -/
theorem exists_course_of_warms (setup : Setup) (check : Check) (started : Aside σ)
    (hwarm : Warms host w handle imports w₁) :
    ∃ made, (runCheck host setup check started.act w).2.notes.toList = w.notes.toList ++ made ∧
      CheckCourse host setup check started w made
        (runCheck host setup check started.act w).1 (runCheck host setup check started.act w).2 ∧
      (runCheck host setup check started.act w).2.engine = .ready handle true := by
  obtain ⟨imported, hwarmUp⟩ := warmUp_of_warms hwarm
  rw [runCheck, bind_ok hwarmUp]
  obtain ⟨n, htold⟩ := started.notes_eq w₁
  have hengine := (started.engine_eq w₁).trans hwarm.engine_eq
  have hnotes : (started.act w₁).2.notes.toList =
      w.notes.toList ++ (imports ++ List.replicate n .started) := by
    rw [htold, hwarm.notes_eq, List.append_assoc]
  obtain ⟨⟨⟩, hok, hgo⟩ | ⟨fault, hfault, hend, hworld⟩ :=
    bind_cases started.act (fun _ => checkStaged host setup check) w₁
  swap
  · rw [hworld]
    exact ⟨_, hnotes, .interrupted handle imports _ w₁ fault _ hwarm htold hfault hend, hengine⟩
  rw [hgo]
  have hstarted : started.act w₁ = (.ok (), (started.act w₁).2) := Prod.ext hok rfl
  -- from here on nothing counts but the world that giving word has left
  generalize (started.act w₁).2 = begun at *
  rcases hstage : setup.area.answer begun.files check.staging with ⟨files, e | path⟩
  case error =>
    rw [checkStaged_of_error hstage]
    exact ⟨_, hnotes, .unstaged handle imports _ w₁ begun e files hwarm htold hstarted hstage,
      hengine⟩
  case ok =>
    rw [checkStaged_of_ok hengine hstage]
    refine ⟨_, ?_, .ran handle imports _ w₁ begun _ files path _ hwarm htold hstarted
      (StagingArea.staged_of_ok hstage) rfl, hengine⟩
    rw [Act.ask_notes, hnotes]
    simp

/-- The calls of a check in whose way nothing stands. -/
def checkPlan (setup : Setup) (check : Check) : EngineState → List Call
  | .uninitialized => []
  | .ready handle true =>
      [.run handle ((setup.area.pathOf check.filename).text :: check.flags)]
  | .ready handle false =>
      [.importEntry handle, .run handle ((setup.area.pathOf check.filename).text :: check.flags)]

theorem Warms.planned (h : Warms host w handle imports w₁) (setup : Setup) (check : Check) :
    (imports.filterMap Note.exchange?).map Exchange.call ++
        [.run handle ((setup.area.pathOf check.filename).text :: check.flags)] =
      checkPlan setup check w.engine := by
  cases h with
  | before h => simp [checkPlan, h]
  | now h hok => simp [checkPlan, h, Note.exchange?]

/-- Giving word of the start asks nothing of the host. -/
theorem exchanges_of_told {told : List Note}
    (h : (started.act w).2.notes.toList = w.notes.toList ++ told) :
    told.filterMap Note.exchange? = [] := by
  obtain ⟨n, hn⟩ := started.notes_eq w
  rw [List.append_cancel_left (h.symm.trans hn), List.filterMap_replicate_of_none]
  rfl

theorem CheckCourse.planned {w' : World σ}
    (h : CheckCourse host setup check started w made outcome w') :
    (made.filterMap Note.exchange?).map Exchange.call <+: checkPlan setup check w.engine := by
  cases h with
  | uninitialized h => exact List.nil_prefix
  | unimported handle fault outcome h hfault houtcome =>
      rw [h]
      exact ⟨[_], rfl⟩
  | interrupted handle imports told warm fault outcome hwarm htold hfault houtcome =>
      rw [← hwarm.planned, List.filterMap_append, exchanges_of_told htold, List.append_nil]
      exact List.prefix_append _ _
  | unstaged handle imports told warm begun e files hwarm htold hstarted hstage =>
      have hbegun : begun = (started.act warm).2 := by rw [hstarted]
      rw [hbegun] at htold
      rw [← hwarm.planned, List.filterMap_append, exchanges_of_told htold, List.append_nil]
      exact List.prefix_append _ _
  | ran handle imports told warm begun after files path outcome hwarm htold hstarted hstaged hrun =>
      have hbegun : begun = (started.act warm).2 := by rw [hstarted]
      rw [hbegun] at htold
      rw [← hwarm.planned, List.filterMap_append, List.filterMap_append, exchanges_of_told htold,
        List.append_nil, hstaged.path_eq]
      simp [Note.exchange?, Check.staging]

/-- What is true of a check during which certain notes were made. -/
structure Checks (host : Host σ) (setup : Setup) (check : Check) (started : Aside σ) (w : World σ)
    (made : List Note) : Prop where
  notes : (runCheck host setup check started.act w).2.notes.toList = w.notes.toList ++ made
  course : CheckCourse host setup check started w made
    (runCheck host setup check started.act w).1 (runCheck host setup check started.act w).2
  /-- Nothing is asked of the host but an import, if the engine is cold, and one run. -/
  planned : (made.filterMap Note.exchange?).map Exchange.call <+: checkPlan setup check w.engine
  /-- An engine that is warm, or becomes so, stays held and warm, however the check ends. -/
  stays : ∀ handle imports warm, Warms host w handle imports warm →
    (runCheck host setup check started.act w).2.engine = .ready handle true

theorem checks_of_course
    (hnotes : (runCheck host setup check started.act w).2.notes.toList = w.notes.toList ++ made)
    (hcourse : CheckCourse host setup check started w made
      (runCheck host setup check started.act w).1 (runCheck host setup check started.act w).2) :
    Checks host setup check started w made where
  notes := hnotes
  course := hcourse
  planned := hcourse.planned
  stays handle imports warm hwarm := by
    obtain ⟨-, -, -, hengine⟩ := exists_course_of_warms setup check started hwarm
    exact hengine

theorem runCheck_of_fault (setup : Setup) (check : Check) (started : Aside σ) {fault : Fault}
    (he : w.engine = .ready handle false)
    (hfault : (Act.ask host (.importEntry handle) w).1.fault? = some fault) :
    (runCheck host setup check started.act w).1.fault? = some fault ∧
      (runCheck host setup check started.act w).2 = (Act.ask host (.importEntry handle) w).2 := by
  obtain ⟨hwarmUp, hworld⟩ := bind_of_fault hfault fun _ => do
    Act.alter (World.holding (.ready handle true))
    return true
  rw [← warmUp_of_cold he] at hwarmUp hworld
  rw [← hworld]
  exact bind_of_fault hwarmUp _

/-- In whatever state a session is and whatever the host answers, a check imports the engine if that
is still to be done, gives word once, stages, and runs the engine once on what is staged then; it
ends where one of these fails, with that failure. -/
theorem exists_checks (host : Host σ) (setup : Setup) (check : Check) (started : Aside σ)
    (w : World σ) : ∃ made, Checks host setup check started w made := by
  rcases he : w.engine with _ | ⟨handle, _ | _⟩
  case uninitialized =>
    have hrun : runCheck host setup check started.act w = (.failed .notInitialized, w) :=
      bind_failed (warmUp_of_uninitialized he)
    refine ⟨[], checks_of_course ?_ ?_⟩ <;> rw [hrun]
    · simp
    · exact .uninitialized he
  case ready.true =>
    obtain ⟨made, hnotes, hcourse, -⟩ := exists_course_of_warms setup check started (.before he)
    exact ⟨made, checks_of_course hnotes hcourse⟩
  case ready.false =>
    cases hanswer : (Act.ask host (.importEntry handle) w).1.fault? with
    | none =>
        have hok : (Act.ask host (.importEntry handle) w).1 = .ok () := by
          rcases ho : (Act.ask host (.importEntry handle) w).1 with a | e | p <;>
            rw [ho] at hanswer <;> first | rfl | cases hanswer
        obtain ⟨made, hnotes, hcourse, -⟩ :=
          exists_course_of_warms setup check started (.now he hok)
        exact ⟨made, checks_of_course hnotes hcourse⟩
    | some fault =>
        obtain ⟨hend, hworld⟩ := runCheck_of_fault setup check started he hanswer
        have hnotes := Act.ask_notes host (.importEntry handle) w
        have hcourse : CheckCourse host setup check started w _ _ _ :=
          .unimported handle fault _ he hanswer hend
        rw [← hworld] at hnotes hcourse
        exact ⟨_, checks_of_course hnotes hcourse⟩

end Session

end CheckWorker
