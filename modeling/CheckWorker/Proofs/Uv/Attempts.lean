import CheckWorker.Installation
import CheckWorker.Proofs.Uv.Readiness

/-!
# Attempts to install

An engine may be installed any number of times by one host. The tool is looked for until it is found
once; the virtual environment is made when its interpreter is missing; and the packages are
installed once the host is ready. What is run fails by itself: it ends the attempt with its error,
after its lines were passed on.
-/

namespace CheckWorker.UvHost

variable {π : Type}

/-! ## Acts that run errands -/

/-- An act has run some errands: they are on record and their lines were sent, and one that failed
was the last of them and gave the act its error. -/
structure Did {α : Type} (settings : UvSettings) (x : Act (UvHost (Recorded π)) α)
    (w : World (UvHost (Recorded π))) (runs : List Run) : Prop where
  deeds_eq : (x w).2.host.programs.deeds =
    w.host.programs.deeds ++ runs.flatMap (Run.deeds settings)
  sent_eq : (x w).2.sent.toList =
    w.sent.toList ++ (runs.flatMap Run.logs).map fun line => (Origin.engine, Event.log line)
  channel_eq : (x w).2.channel = w.channel.sendAll ((runs.flatMap Run.logs).map Event.log)
  last : ∀ run ∈ runs, ∀ e, run.error? settings = some e →
    runs.getLast? = some run ∧ (x w).1.fault? = some (.error e)

namespace Did

variable {α β : Type} {settings : UvSettings} {x : Act (UvHost (Recorded π)) α}
  {f : α → Act (UvHost (Recorded π)) β} {w : World (UvHost (Recorded π))} {runs more : List Run}

theorem ask (host : Host (UvHost (Recorded π))) (call : Call)
    (h : Ran settings w.host (host.answer call w.host w.files) runs) :
    Did settings (Act.ask host call) w runs where
  deeds_eq := h.deeds_eq
  sent_eq := by
    simp [Act.ask, World.passOn, World.note, h.logs_eq]
  channel_eq := by
    simp only [Act.ask, World.passOn, World.note, h.logs_eq]
  last := h.last

theorem quiet (h : (x w).2 = w) : Did settings x w [] where
  deeds_eq := by simp [h]
  sent_eq := by simp [h]
  channel_eq := by simp [h]
  last _ hrun := absurd hrun List.not_mem_nil

theorem bind_of_fault {fault : Fault} (h : Did settings x w runs)
    (hfault : (x w).1.fault? = some fault) (f : α → Act (UvHost (Recorded π)) β) :
    Did settings (x >>= f) w runs := by
  obtain ⟨houtcome, hworld⟩ := Act.bind_of_fault hfault f
  constructor
  case deeds_eq => rw [hworld, h.deeds_eq]
  case sent_eq => rw [hworld, h.sent_eq]
  case channel_eq => rw [hworld, h.channel_eq]
  case last =>
    intro run hrun e he
    rw [houtcome, ← hfault]
    exact h.last run hrun e he

/-- What an act that ended well has run did not fail. -/
theorem bind_of_ok {a : α} (h : Did settings x w runs) (ha : (x w).1 = .ok a)
    (hf : Did settings (f a) (x w).2 more) : Did settings (x >>= f) w (runs ++ more) := by
  have hbind : (x >>= f) w = f a (x w).2 := Act.bind_ok (Prod.ext ha rfl)
  constructor
  case deeds_eq => rw [hbind, hf.deeds_eq, h.deeds_eq, List.flatMap_append, List.append_assoc]
  case sent_eq =>
    rw [hbind, hf.sent_eq, h.sent_eq, List.flatMap_append, List.map_append, List.append_assoc]
  case channel_eq =>
    rw [hbind, hf.channel_eq, h.channel_eq, List.flatMap_append, List.map_append,
      Channel.sendAll_append]
  case last =>
    intro run hrun e he
    rcases List.mem_append.mp hrun with hrun | hrun
    · have hfault := (h.last run hrun e he).2
      rw [ha] at hfault
      cases hfault
    · obtain ⟨hlast, hfault⟩ := hf.last run hrun e he
      rw [hbind, List.getLast?_append, hlast]
      exact ⟨rfl, hfault⟩

end Did

/-! ## One attempt -/

/-- What is to be installed. -/
structure Order where
  table : VersionTable
  spec : EngineSpec
  requested : String

/-- What is installed for an order, in the order in which the table names it. -/
def Order.packages (o : Order) : List String :=
  (o.table.resolve o.spec.package o.requested).packages

/-- The version that was found has to begin with the one that was asked for. -/
def judge (o : Order) (found : String) : Act (UvHost (Recorded π)) Installed :=
  if beginsWith found o.requested then pure ⟨o.spec.package, found⟩
  else Act.fail (.versionMismatch o.spec.package o.requested found)

theorem judge_snd (o : Order) (found : String) (w : World (UvHost (Recorded π))) :
    (judge o found w).2 = w := by
  rw [judge]
  split <;> rfl

variable (programs : Programs π) (settings : UvSettings) (env : Environment) (o : Order)

def inspect : Act (UvHost (Recorded π)) Installed :=
  Act.ask (host programs.recording settings env) (.installedVersion o.spec.package) >>= judge o

def fill : Act (UvHost (Recorded π)) Installed :=
  Act.ask (host programs.recording settings env) (.install o.packages) >>=
    fun _ => inspect programs settings env o

/-- An attempt to install, with programs on record. -/
def attempt : Act (UvHost (Recorded π)) Installed :=
  installEngine (host programs.recording settings env) o.table o.spec o.requested

theorem attempt_eq : attempt programs settings env o =
    Act.ask (host programs.recording settings env) .ensureReady >>=
      fun _ => fill programs settings env o := rfl

theorem exists_did_inspect (uv : FilePath) (w : World (UvHost (Recorded π))) :
    ∃ result, Did settings (inspect programs settings env o) w
        [⟨.version o.spec.package, uv, result⟩] ∧
      (inspect programs settings env o w).2.host.uv = w.host.uv := by
  obtain ⟨result, hran⟩ := exists_ranOne_installedVersion programs settings uv o.spec.package w.host
    w.files
  have hask := Did.ask (host programs.recording settings env) (.installedVersion o.spec.package)
    hran.ran
  refine ⟨result, ?_⟩
  rcases Act.bind_cases (Act.ask (host programs.recording settings env)
    (.installedVersion o.spec.package)) (judge o) w with ⟨found, hok, hbind⟩ |
      ⟨fault, hfault, -, hworld⟩
  · constructor
    · exact hask.bind_of_ok hok (Did.quiet (judge_snd o found _))
    · rw [inspect, hbind, judge_snd]
      exact hran.uv_eq
  · constructor
    · exact hask.bind_of_fault hfault (judge o)
    · rw [inspect, hworld]
      exact hran.uv_eq

theorem exists_did_fill {uv : FilePath} {w : World (UvHost (Recorded π))}
    (h : w.host.uv = some uv) :
    ∃ result more, Did settings (fill programs settings env o) w
        (⟨.install o.packages, uv, result⟩ :: more) ∧
      (more.map Run.errand).Sublist [.version o.spec.package] ∧ (∀ run ∈ more, run.uv = uv) ∧
      (fill programs settings env o w).2.host.uv = w.host.uv := by
  obtain ⟨result, hran⟩ := exists_ranOne_install programs settings h o.packages w.files
  have hask := Did.ask (host programs.recording settings env) (.install o.packages) hran.ran
  rcases Act.bind_cases (Act.ask (host programs.recording settings env) (.install o.packages))
    (fun _ => inspect programs settings env o) w with ⟨_, hok, hbind⟩ | ⟨fault, hfault, -, hworld⟩
  · obtain ⟨found, hinspect, huv⟩ := exists_did_inspect programs settings env o uv
      (Act.ask (host programs.recording settings env) (.install o.packages) w).2
    refine ⟨result, _, hask.bind_of_ok hok hinspect, List.Sublist.refl _, ?_, ?_⟩
    · intro run hrun
      rw [List.mem_singleton.mp hrun]
    · rw [fill, hbind, huv]
      exact hran.uv_eq
  · refine ⟨result, [], hask.bind_of_fault hfault _, List.nil_sublist _, ?_, ?_⟩
    · intro run hrun
      exact absurd hrun List.not_mem_nil
    · rw [fill, hworld]
      exact hran.uv_eq

/-- What is known of an attempt that has run some errands, none of them twice: the tool is looked
for only if it is not known yet, and with it the virtual environment is made when its interpreter is
missing; the packages are installed when the host is ready, and not otherwise. A host that cannot be
made ready gives the attempt its error. -/
structure Attempted (w : World (UvHost (Recorded π))) (runs : List Run) : Prop where
  did : Did settings (attempt programs settings env o) w runs
  uv_eq : (attempt programs settings env o w).2.host.uv =
    (w.host.uv <|> Uv.locate? env w.files)
  uv_of_run : ∀ run ∈ runs, (w.host.uv <|> Uv.locate? env w.files) = some run.uv
  unsought : w.host.uv.isSome = true → ∀ env',
    attempt programs settings env' o w = attempt programs settings env o w
  in_order : (runs.map Run.errand).Sublist
    [.venv, .install o.packages, .version o.spec.package]
  venv_iff : .venv ∈ runs.map Run.errand ↔ (w.host.uv <|> Uv.locate? env w.files).isSome = true ∧
    w.files.isThere (interpreter settings.runtimeDir) = false ∧ HasRoom settings w.files
  idle : w.host.uv.isSome = true → w.files.isThere (interpreter settings.runtimeDir) = true →
    ensureReady programs.recording settings env w.host w.files =
      { outcome := .ok (), state := w.host, files := w.files }
  install_iff : .install o.packages ∈ runs.map Run.errand ↔
    (ensureReady programs.recording settings env w.host w.files).outcome = .ok ()
  unready : ∀ fault,
    (ensureReady programs.recording settings env w.host w.files).outcome.fault? = some fault →
      (attempt programs settings env o w).1.fault? = some fault ∧
        ∃ detail, fault = .error (.hostUnavailable detail)

variable {programs settings env o} {w : World (UvHost (Recorded π))} {runs : List Run}

/-- Only a host that is made ready looks at the environment. -/
theorem ask_eq_of_ne {call : Call} (h : call ≠ .ensureReady) (env env' : Environment) :
    Act.ask (host programs.recording settings env') call =
      Act.ask (host programs.recording settings env) call := by
  have hanswer : (host programs.recording settings env').answer call =
      (host programs.recording settings env).answer call := by
    cases call
    case ensureReady => exact absurd rfl h
    all_goals rfl
  unfold Act.ask
  rw [hanswer]

theorem attempt_of_known (h : w.host.uv.isSome = true) (env' : Environment) :
    attempt programs settings env' o w = attempt programs settings env o w := by
  have hready : Act.ask (host programs.recording settings env') .ensureReady w =
      Act.ask (host programs.recording settings env) .ensureReady w := by
    have hsame := ensureReady_of_known programs.recording settings h env env' w.files
    simp only [Act.ask, host, hsame]
  have hfill : fill programs settings env' o = fill programs settings env o := by
    have hinstall : Call.install o.packages ≠ .ensureReady := Call.noConfusion
    have hversion : Call.installedVersion o.spec.package ≠ .ensureReady := Call.noConfusion
    rw [fill, fill, inspect, inspect, ask_eq_of_ne hinstall env env',
      ask_eq_of_ne hversion env env']
  rw [attempt_eq, attempt_eq, hfill]
  have hbind (x : Act (UvHost (Recorded π)) Unit) :
      (x >>= fun _ => fill programs settings env o) w =
        Act.andThen x (fun _ => fill programs settings env o) w := rfl
  rw [hbind, hbind, Act.andThen, Act.andThen, hready]

theorem attempted_of_fault (hready : Readies programs settings env w.host w.files runs)
    {fault : Fault}
    (hfault : (ensureReady programs.recording settings env w.host w.files).outcome.fault? =
      some fault) :
    Attempted programs settings env o w runs := by
  have hask := Did.ask (host programs.recording settings env) .ensureReady hready.ran
  have hbind := Act.bind_of_fault (x := Act.ask (host programs.recording settings env) .ensureReady)
    hfault fun _ => fill programs settings env o
  constructor
  case did => exact hask.bind_of_fault hfault _
  case uv_eq =>
    rw [attempt_eq, hbind.2]
    exact hready.uv_eq
  case uv_of_run => exact hready.uv_of_run
  case unsought => exact attempt_of_known
  case in_order => exact hready.only.trans (List.singleton_sublist.mpr List.mem_cons_self)
  case venv_iff => exact hready.venv_iff
  case idle => exact ensureReady_of_there
  case install_iff =>
    apply iff_of_false
    · intro hmem
      cases List.mem_singleton.mp (hready.only.subset hmem)
    · intro hok
      rw [hok] at hfault
      cases hfault
  case unready =>
    intro fault' hfault'
    obtain rfl := Option.some.inj (hfault.symm.trans hfault')
    exact ⟨hbind.1, hready.unavailable _ hfault⟩

theorem exists_attempted_of_ok (hready : Readies programs settings env w.host w.files runs)
    (hok : (ensureReady programs.recording settings env w.host w.files).outcome = .ok ()) :
    ∃ more, Attempted programs settings env o w (runs ++ more) := by
  have hask := Did.ask (host programs.recording settings env) .ensureReady hready.ran
  obtain ⟨uv, huv⟩ := Option.isSome_iff_exists.mp (hready.known_of_ok hok)
  have hknown : (Act.ask (host programs.recording settings env) .ensureReady w).2.host.uv =
      some uv := hready.uv_eq.trans huv
  obtain ⟨result, more, hfill, honly, hmore, hkept⟩ :=
    exists_did_fill programs settings env o hknown
  have hbind : attempt programs settings env o w = fill programs settings env o
      (Act.ask (host programs.recording settings env) .ensureReady w).2 :=
    Act.bind_ok (Prod.ext hok rfl)
  refine ⟨⟨.install o.packages, uv, result⟩ :: more, ?_⟩
  constructor
  case did => exact hask.bind_of_ok hok hfill
  case uv_eq => rw [hbind, hkept, hknown, huv]
  case uv_of_run =>
    intro run hrun
    rcases List.mem_append.mp hrun with hrun | hrun
    · exact hready.uv_of_run run hrun
    · rw [huv]
      rcases List.mem_cons.mp hrun with rfl | hrun
      · rfl
      · rw [hmore run hrun]
  case unsought => exact attempt_of_known
  case in_order =>
    rw [List.map_append, List.map_cons]
    exact hready.only.append (honly.cons_cons _)
  case venv_iff =>
    rw [List.map_append, List.mem_append, ← hready.venv_iff]
    apply or_iff_left
    intro hmem
    rcases List.mem_cons.mp hmem with hvenv | hvenv
    · cases hvenv
    · cases List.mem_singleton.mp (honly.subset hvenv)
  case idle => exact ensureReady_of_there
  case install_iff =>
    apply iff_of_true _ hok
    rw [List.map_append]
    exact List.mem_append_right _ List.mem_cons_self
  case unready =>
    intro fault hfault
    rw [hok] at hfault
    cases hfault

/-- An attempt makes the host ready, installs, and asks for the version, up to what fails first. -/
theorem exists_attempted (programs : Programs π) (settings : UvSettings) (env : Environment)
    (o : Order) (w : World (UvHost (Recorded π))) :
    ∃ runs, Attempted programs settings env o w runs := by
  obtain ⟨runs, hready⟩ := exists_readies programs settings env w.host w.files
  cases hend : (ensureReady programs.recording settings env w.host w.files).outcome with
  | ok _ =>
      obtain ⟨more, hattempted⟩ := exists_attempted_of_ok (o := o) hready hend
      exact ⟨_, hattempted⟩
  | failed e => exact ⟨runs, attempted_of_fault hready (congrArg Outcome.fault? hend)⟩
  | panicked p => exact ⟨runs, attempted_of_fault hready (congrArg Outcome.fault? hend)⟩

/-! ## Attempts one after the other -/

/-- What one host is left with after it has carried out orders, whether they end well or not. -/
def installAll (programs : Programs π) (settings : UvSettings) (env : Environment)
    (orders : List Order) (w : World (UvHost (Recorded π))) : World (UvHost (Recorded π)) :=
  orders.foldl (fun w o => (attempt programs settings env o w).2) w

theorem installAll_nil (w : World (UvHost (Recorded π))) :
    installAll programs settings env [] w = w := rfl

theorem installAll_cons (o : Order) (orders : List Order) (w : World (UvHost (Recorded π))) :
    installAll programs settings env (o :: orders) w =
      installAll programs settings env orders (attempt programs settings env o w).2 := rfl

theorem installAll_take_drop (orders : List Order) (k : Nat) (w : World (UvHost (Recorded π))) :
    installAll programs settings env (orders.drop k)
        (installAll programs settings env (orders.take k) w) =
      installAll programs settings env orders w := by
  rw [installAll, installAll, ← List.foldl_append, List.take_append_drop, installAll]

theorem uv_attempt {uv : FilePath} (h : w.host.uv = some uv) :
    (attempt programs settings env o w).2.host.uv = some uv := by
  obtain ⟨runs, hattempted⟩ := exists_attempted programs settings env o w
  rw [hattempted.uv_eq, h]
  rfl

/-- A tool that is known stays the tool. -/
theorem uv_installAll {uv : FilePath} (orders : List Order) (h : w.host.uv = some uv) :
    (installAll programs settings env orders w).host.uv = some uv := by
  induction orders generalizing w with
  | nil => exact h
  | cons o orders ih => exact ih (uv_attempt h)

/-- Once the tool is known, it does not matter where it would be looked for. -/
theorem installAll_of_known (orders : List Order) (h : w.host.uv.isSome = true)
    (env' : Environment) : installAll programs settings env' orders w =
      installAll programs settings env orders w := by
  induction orders generalizing w with
  | nil => rw [installAll_nil, installAll_nil]
  | cons o orders ih =>
      obtain ⟨uv, huv⟩ := Option.isSome_iff_exists.mp h
      rw [installAll_cons, installAll_cons, attempt_of_known h env']
      apply ih
      rw [uv_attempt huv]
      rfl

/-- What is known of attempts one after the other and of the errands of each: nothing is on record
and nothing was sent but for these errands, and a tool that was found once is neither looked for nor
changed any more. -/
structure Attempts (programs : Programs π) (settings : UvSettings) (env : Environment)
    (orders : List Order) (w : World (UvHost (Recorded π))) (history : List (List Run)) :
    Prop where
  length_eq : history.length = orders.length
  attempted : ∀ k o, orders[k]? = some o → ∃ runs, history[k]? = some runs ∧
    Attempted programs settings env o (installAll programs settings env (orders.take k) w) runs
  deeds_eq : (installAll programs settings env orders w).host.programs.deeds =
    w.host.programs.deeds ++ history.flatten.flatMap (Run.deeds settings)
  sent_eq : (installAll programs settings env orders w).sent.toList = w.sent.toList ++
    (history.flatten.flatMap Run.logs).map fun line => (Origin.engine, Event.log line)
  channel_eq : (installAll programs settings env orders w).channel =
    w.channel.sendAll ((history.flatten.flatMap Run.logs).map Event.log)
  uv_of_run : ∀ run ∈ history.flatten,
    (installAll programs settings env orders w).host.uv = some run.uv
  kept : ∀ k uv, (installAll programs settings env (orders.take k) w).host.uv = some uv →
    (installAll programs settings env orders w).host.uv = some uv
  unsought : ∀ k, (installAll programs settings env (orders.take k) w).host.uv.isSome = true →
    ∀ env', installAll programs settings env' (orders.drop k)
        (installAll programs settings env (orders.take k) w) =
      installAll programs settings env orders w

theorem Attempts.nil (w : World (UvHost (Recorded π))) :
    Attempts programs settings env [] w [] where
  length_eq := rfl
  attempted k o ho := by
    rw [List.getElem?_nil] at ho
    cases ho
  deeds_eq := (List.append_nil _).symm
  sent_eq := (List.append_nil _).symm
  channel_eq := rfl
  uv_of_run _ hrun := absurd hrun List.not_mem_nil
  kept k uv huv := by
    rw [List.take_nil] at huv
    exact huv
  unsought k hk env' := by
    rw [List.take_nil] at hk
    rw [← installAll_take_drop [] k w, List.take_nil]
    exact installAll_of_known _ hk env'

theorem Attempts.cons {orders : List Order} {history : List (List Run)}
    (h : Attempted programs settings env o w runs)
    (hrest : Attempts programs settings env orders (attempt programs settings env o w).2 history) :
    Attempts programs settings env (o :: orders) w (runs :: history) where
  length_eq := congrArg (· + 1) hrest.length_eq
  attempted k o' ho := by
    cases k with
    | zero =>
        rw [List.getElem?_cons_zero] at ho
        cases ho
        exact ⟨runs, rfl, h⟩
    | succ k => exact hrest.attempted k o' ho
  deeds_eq := by
    rw [installAll_cons, hrest.deeds_eq, h.did.deeds_eq, List.flatten_cons, List.flatMap_append,
      List.append_assoc]
  sent_eq := by
    rw [installAll_cons, hrest.sent_eq, h.did.sent_eq, List.flatten_cons, List.flatMap_append,
      List.map_append, List.append_assoc]
  channel_eq := by
    rw [installAll_cons, hrest.channel_eq, h.did.channel_eq, List.flatten_cons,
      List.flatMap_append, List.map_append, Channel.sendAll_append]
  uv_of_run run hrun := by
    rcases List.mem_append.mp hrun with hrun | hrun
    · exact uv_installAll orders (h.uv_eq.trans (h.uv_of_run run hrun))
    · exact hrest.uv_of_run run hrun
  kept k uv huv := by
    rw [← installAll_take_drop (o :: orders) k w]
    exact uv_installAll _ huv
  unsought k hk env' := by
    rw [installAll_of_known _ hk env', installAll_take_drop]

/-- Whatever the files are and however commands end, any number of attempts to install can be told
by their errands. -/
theorem exists_attempts (programs : Programs π) (settings : UvSettings) (env : Environment)
    (orders : List Order) (w : World (UvHost (Recorded π))) :
    ∃ history, Attempts programs settings env orders w history := by
  induction orders generalizing w with
  | nil => exact ⟨[], .nil w⟩
  | cons o orders ih =>
      obtain ⟨runs, hattempted⟩ := exists_attempted programs settings env o w
      obtain ⟨history, hrest⟩ := ih (attempt programs settings env o w).2
      exact ⟨runs :: history, .cons hattempted hrest⟩

end CheckWorker.UvHost
