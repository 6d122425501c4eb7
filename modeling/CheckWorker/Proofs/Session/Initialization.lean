import CheckWorker.Proofs.Session.Kind

/-!
# How an initialization goes

An initialization asks six things of the host, in a fixed order. It asks on until an answer stands
in its way, which is an answer that ended badly or a version that is not the one asked for, and
what stood in its way is what it reports. Only an initialization in whose way nothing stood leaves
an engine. An engine that was held before is given up first; what is done then does not hang on it.
-/

namespace CheckWorker

open Act World

/-- A call that was made of the host, and how it ended. -/
structure Exchange where
  call : Call
  outcome : Outcome call.Result

def Note.exchange? : Note → Option Exchange
  | .answered call outcome => some ⟨call, outcome⟩
  | .dropped _ => none
  | .started => none

variable {σ : Type}

namespace World

/-- All that was asked of the host, in order, and how it ended. -/
def exchanges (w : World σ) : List Exchange :=
  w.notes.toList.filterMap Note.exchange?

@[simp] theorem exchanges_ask (host : Host σ) (call : Call) (w : World σ) :
    (Act.ask host call w).2.exchanges = w.exchanges ++ [⟨call, (Act.ask host call w).1⟩] := by
  simp [exchanges, Note.exchange?]

@[simp] theorem exchanges_drop (host : Host σ) (handle : Handle) (w : World σ) :
    (w.drop host handle).exchanges = w.exchanges := by
  simp [exchanges, Note.exchange?]

@[simp] theorem exchanges_release (host : Host σ) (w : World σ) :
    (w.release host).exchanges = w.exchanges := by
  cases he : w.engine with
  | uninitialized => rw [release_of_uninitialized host he]
  | ready handle warm =>
      rw [release_of_ready host he, exchanges_drop]
      rfl

theorem Alongside.exchanges {w v w' v' : World σ} (h : Alongside w v w' v') :
    ∃ made, w'.exchanges = w.exchanges ++ made ∧ v'.exchanges = v.exchanges ++ made := by
  obtain ⟨notes, hw, hv⟩ := h.notes
  refine ⟨notes.filterMap Note.exchange?, ?_, ?_⟩
  · simp [World.exchanges, hw]
  · simp [World.exchanges, hv]

@[simp] theorem release_engine (host : Host σ) (w : World σ) :
    (w.release host).engine = .uninitialized := by
  cases he : w.engine with
  | uninitialized => rw [release_of_uninitialized host he, he]
  | ready handle warm => rw [release_of_ready host he, drop_engine]

@[simp] theorem release_launches (host : Host σ) (w : World σ) :
    (w.release host).launches = w.launches := by
  unfold release
  split <;> rfl

@[simp] theorem exchanges_holding (engine : EngineState) (w : World σ) :
    (w.holding engine).exchanges = w.exchanges := rfl

/-- Nothing is left of the engine that was held, unless the host keeps something of it. -/
theorem sameState_release {host : Host σ} {w : World σ} {engine : EngineState}
    (h : ((w.holding engine).release host).host = (w.release host).host) :
    SameState (w.release host) ((w.holding engine).release host) where
  host := h
  files := by
    unfold release
    split <;> split <;> rfl
  engine := by simp
  launches := by
    rw [release_launches, release_launches]
    rfl
  clock := by
    unfold release
    split <;> split <;> rfl

end World

theorem beginsWith_iff {whole start : String} :
    beginsWith whole start = true ↔ start.toList <+: whole.toList :=
  List.isPrefixOf_iff_prefix

/-- What stands in the way of an initialization after a call: the fault of the call, or that the
version it found does not begin with the one that was asked for. -/
def Exchange.obstacle? (requested : String) : Exchange → Option Fault
  | ⟨.installedVersion package, .ok found⟩ =>
      if requested.toList <+: found.toList then none
      else some (.error (.versionMismatch package requested found))
  | ⟨_, outcome⟩ => outcome.fault?

/-- A version that was found stands in the way unless it begins with the one asked for. -/
theorem Exchange.obstacle?_installedVersion_iff {requested package found : String} :
    obstacle? requested ⟨.installedVersion package, .ok found⟩ = none ↔
      requested.toList <+: found.toList := by
  simp [obstacle?]

theorem Exchange.obstacle?_of_fault {requested : String} {call : Call}
    {outcome : Outcome call.Result} {fault : Fault} (h : outcome.fault? = some fault) :
    obstacle? requested ⟨call, outcome⟩ = some fault := by
  cases outcome with
  | ok a => cases h
  | failed e => cases call <;> exact h
  | panicked p => cases call <;> exact h

namespace Session

/-- All that an initialization asks of the host, in order. -/
def plan (setup : Setup) (requested : String) (handle : Handle) : List Call := [
    .ensureReady,
    .install (setup.table.resolve setup.spec.package requested).packages,
    .installedVersion setup.spec.package,
    .launch setup.spec handle,
    .hostVersion,
    .runtimeVersion]

/-- The answers to an initialization that reports certain versions. -/
def answers (setup : Setup) (requested : String) (handle : Handle) (versions : Versions) :
    List Exchange := [
    ⟨.ensureReady, .ok ()⟩,
    ⟨.install (setup.table.resolve setup.spec.package requested).packages, .ok ()⟩,
    ⟨.installedVersion setup.spec.package, .ok versions.engine⟩,
    ⟨.launch setup.spec handle, .ok ()⟩,
    ⟨.hostVersion, .ok versions.host⟩,
    ⟨.runtimeVersion, .ok versions.hostRuntime⟩]

/-- How an initialization may go: what it asks and is answered, how it ends, and the engine that it
leaves. -/
inductive Course (setup : Setup) (requested : String) (handle : Handle) :
    List Exchange → Outcome Versions → EngineState → Prop
  | stopped (before : List Exchange) (last : Exchange) (fault : Fault) (outcome : Outcome Versions)
      (hplan : (before ++ [last]).map Exchange.call <+: plan setup requested handle)
      (hbefore : ∀ x ∈ before, x.obstacle? requested = none)
      (hlast : last.obstacle? requested = some fault) (houtcome : outcome.fault? = some fault) :
      Course setup requested handle (before ++ [last]) outcome .uninitialized
  | finished (versions : Versions) (h : requested.toList <+: versions.engine.toList) :
      Course setup requested handle (answers setup requested handle versions) (.ok versions)
        (.ready handle false)

theorem nodup_plan (setup : Setup) (requested : String) (handle : Handle) :
    (plan setup requested handle).Nodup := by
  simp [plan]

theorem obstacle?_of_mem_answers {setup : Setup} {requested : String} {handle : Handle}
    {versions : Versions} (h : requested.toList <+: versions.engine.toList) {x : Exchange}
    (hx : x ∈ answers setup requested handle versions) : x.obstacle? requested = none := by
  simp only [answers, List.mem_cons, List.not_mem_nil, or_false] at hx
  rcases hx with rfl | rfl | rfl | rfl | rfl | rfl
  case inr.inr.inl => exact Exchange.obstacle?_installedVersion_iff.mpr h
  all_goals rfl

namespace Course

variable {setup : Setup} {requested : String} {handle : Handle} {made : List Exchange}
  {outcome : Outcome Versions} {engine : EngineState}

theorem planned (h : Course setup requested handle made outcome engine) :
    made.map Exchange.call <+: plan setup requested handle := by
  cases h with
  | stopped before last fault outcome hplan _ _ _ => exact hplan
  | finished versions _ => exact List.prefix_rfl

theorem ok_iff (h : Course setup requested handle made outcome engine) :
    outcome.fault? = none ↔ ∀ x ∈ made, x.obstacle? requested = none := by
  cases h with
  | stopped before last fault outcome hplan hbefore hlast houtcome => simp [hlast, houtcome]
  | finished versions hv => exact ⟨fun _ _ => obstacle?_of_mem_answers hv, fun _ => rfl⟩

end Course

section

variable (setup : Setup) (requested : String) (handle : Handle) (past : List Exchange)

/-- Since there were certain exchanges, some more were made. None of them stood in the way, and the
rest of the plan is still to come. -/
structure Underway (launches : Nat) (made : List Exchange) (rest : List Call) (w : World σ) :
    Prop where
  exchanges : w.exchanges = past ++ made
  planned : made.map Exchange.call ++ rest = plan setup requested handle
  clear : ∀ x ∈ made, x.obstacle? requested = none
  engine : w.engine = .uninitialized
  launches_eq : w.launches = launches

/-- Since there were certain exchanges, the last one made stood in the way. -/
structure Halted (fault : Fault) (before : List Exchange) (last : Exchange) (w : World σ) :
    Prop where
  exchanges : w.exchanges = past ++ (before ++ [last])
  planned : (before ++ [last]).map Exchange.call <+: plan setup requested handle
  clear : ∀ x ∈ before, x.obstacle? requested = none
  obstacle : last.obstacle? requested = some fault
  engine : w.engine = .uninitialized

def IsHalted (fault : Fault) (w : World σ) : Prop :=
  ∃ before last, Halted setup requested handle past fault before last w

end

variable {setup : Setup} {requested : String} {handle : Handle} {past made : List Exchange}
  {launches : Nat} {rest : List Call} {host : Host σ} {call : Call}

theorem IsHalted.drop {fault : Fault} {w : World σ}
    (h : IsHalted setup requested handle past fault w) (handle' : Handle) :
    IsHalted setup requested handle past fault (w.drop host handle') := by
  obtain ⟨before, last, hw⟩ := h
  exact ⟨before, last, { hw with exchanges := by simp [hw.exchanges] }⟩

namespace Underway

/-- The next call of the plan has been made, and it did not stand in the way. -/
theorem goOn {w : World σ} {a : call.Result}
    (h : Underway setup requested handle past launches made (call :: rest) w)
    (ho : (Act.ask host call w).1 = .ok a)
    (hclear : Exchange.obstacle? requested ⟨call, .ok a⟩ = none) :
    Underway setup requested handle past launches (made ++ [⟨call, .ok a⟩]) rest
      (Act.ask host call w).2 where
  exchanges := by simp [h.exchanges, ho]
  planned := by simpa using h.planned
  clear x hx := by
    rcases List.mem_append.mp hx with hx | hx
    · exact h.clear x hx
    · rwa [List.mem_singleton.mp hx]
  engine := h.engine
  launches_eq := h.launches_eq

/-- The next call of the plan has been made, and it stands in the way. -/
theorem isHalted {w : World σ} {fault : Fault}
    (h : Underway setup requested handle past launches made (call :: rest) w)
    (hlast : Exchange.obstacle? requested ⟨call, (Act.ask host call w).1⟩ = some fault) :
    IsHalted setup requested handle past fault (Act.ask host call w).2 := by
  refine ⟨made, ⟨call, (Act.ask host call w).1⟩, ?_, ?_, h.clear, hlast, h.engine⟩
  · simp [h.exchanges]
  · rw [← h.planned]
    exact ⟨rest, by simp⟩

/-- A call of the plan leads on, or it stands in the way. -/
theorem ask : Triple (Underway setup requested handle past launches made (call :: rest))
    (Act.ask host call)
    (fun a w => match Exchange.obstacle? requested ⟨call, .ok a⟩ with
      | none => Underway setup requested handle past launches (made ++ [⟨call, .ok a⟩]) rest w
      | some fault => IsHalted setup requested handle past fault w)
    (fun e => IsHalted setup requested handle past (.error e))
    (fun p => IsHalted setup requested handle past (.panic p)) := by
  refine Triple.ask fun w hw => ?_
  cases ho : (Act.ask host call w).1 with
  | ok a =>
      cases hx : Exchange.obstacle? requested ⟨call, .ok a⟩ with
      | none => simpa only [hx] using hw.goOn ho hx
      | some fault => simpa only [hx] using hw.isHalted (ho ▸ hx)
  | failed e =>
      apply hw.isHalted
      rw [ho]
      exact Exchange.obstacle?_of_fault rfl
  | panicked p =>
      apply hw.isHalted
      rw [ho]
      exact Exchange.obstacle?_of_fault rfl

/-- A call that stands in the way only if it ends badly leads on if it ends well. -/
theorem query (hcall : ∀ a, Exchange.obstacle? requested ⟨call, .ok a⟩ = none) :
    Triple (Underway setup requested handle past launches made (call :: rest))
      (Act.ask host call)
      (fun a => Underway setup requested handle past launches (made ++ [⟨call, .ok a⟩]) rest)
      (fun e => IsHalted setup requested handle past (.error e))
      (fun p => IsHalted setup requested handle past (.panic p)) := by
  refine ask.after (fun a w hw => ?_) (fun _ _ hw => hw) (fun _ _ hw => hw)
  rwa [hcall] at hw

end Underway

/-- The answers up to the version that was found. -/
def prepared (setup : Setup) (requested found : String) : List Exchange := [
    ⟨.ensureReady, .ok ()⟩,
    ⟨.install (setup.table.resolve setup.spec.package requested).packages, .ok ()⟩,
    ⟨.installedVersion setup.spec.package, .ok found⟩]

theorem underway_installEngine :
    Triple (Underway setup requested handle past launches [] (plan setup requested handle))
      (installEngine host setup.table setup.spec requested)
      (fun installed => Underway setup requested handle past launches
        (prepared setup requested installed.version)
        [.launch setup.spec handle, .hostVersion, .runtimeVersion])
      (fun e => IsHalted setup requested handle past (.error e))
      (fun p => IsHalted setup requested handle past (.panic p)) := by
  refine (Underway.query fun _ => rfl).bind fun () => (Underway.query fun _ => rfl).bind fun () =>
    Underway.ask.bind fun found => ?_
  by_cases hfound : beginsWith found requested = true
  · have hclear : Exchange.obstacle? requested
        ⟨.installedVersion setup.spec.package, .ok found⟩ = none :=
      Exchange.obstacle?_installedVersion_iff.mpr (beginsWith_iff.mp hfound)
    rw [if_pos hfound]
    refine Triple.pure _ fun w hw => ?_
    rwa [hclear] at hw
  · have hobstacle : Exchange.obstacle? requested
        ⟨.installedVersion setup.spec.package, .ok found⟩ = _ :=
      if_neg (mt beginsWith_iff.mpr hfound)
    rw [if_neg hfound]
    refine Triple.fail _ fun w hw => ?_
    rwa [hobstacle] at hw

/-- The next launch gets the number that the plan has for it. -/
theorem underway_launch :
    Triple (Underway setup requested handle past handle made (.launch setup.spec handle :: rest))
      (Act.launch host setup.spec)
      (fun handle' w => handle' = handle ∧ Underway setup requested handle past (handle + 1)
        (made ++ [⟨.launch setup.spec handle, .ok ()⟩]) rest w)
      (fun e => IsHalted setup requested handle past (.error e))
      (fun p => IsHalted setup requested handle past (.panic p)) := by
  refine Triple.launch (R := fun handle' w => handle' = handle ∧ Underway setup requested handle
    past (handle + 1) made (.launch setup.spec handle :: rest) w) (fun w hw => ?_) fun handle' => ?_
  · have hnumber := hw.launches_eq
    exact ⟨hnumber, { hw with launches_eq := by simp [hnumber] }⟩
  · refine Triple.of_and fun hnumber => ?_
    subst hnumber
    exact (Underway.query fun _ => rfl).after (fun _ _ hw => ⟨rfl, hw⟩) (fun _ _ hw => hw)
      (fun _ _ hw => hw)

theorem underway_versions (engine : String) :
    Triple (Underway setup requested handle past launches made [.hostVersion, .runtimeVersion])
      (Session.versions host engine)
      (fun versions w => versions.engine = engine ∧ Underway setup requested handle past launches
        (made ++ [⟨.hostVersion, .ok versions.host⟩, ⟨.runtimeVersion, .ok versions.hostRuntime⟩])
        [] w)
      (fun e => IsHalted setup requested handle past (.error e))
      (fun p => IsHalted setup requested handle past (.panic p)) := by
  refine (Underway.query fun _ => rfl).bind fun _ => (Underway.query fun _ => rfl).bind fun _ =>
    Triple.pure _ fun w hw => ⟨rfl, ?_⟩
  simpa using hw

/-- An initialization was made to its end, and an engine is held. -/
structure Equipped (setup : Setup) (requested : String) (handle : Handle) (past : List Exchange)
    (versions : Versions) (w : World σ) : Prop where
  exchanges : w.exchanges = past ++ answers setup requested handle versions
  version : requested.toList <+: versions.engine.toList
  engine : w.engine = .ready handle false

theorem equipped_equip :
    Triple (Underway setup requested handle past handle [] (plan setup requested handle))
      (equip host setup requested)
      (fun versions => Equipped setup requested handle past versions)
      (fun e => IsHalted setup requested handle past (.error e))
      (fun p => IsHalted setup requested handle past (.panic p)) := by
  refine underway_installEngine.bind fun installed => underway_launch.bind fun handle' =>
    Triple.of_and fun hnumber => ?_
  subst hnumber
  refine Triple.bind (Triple.guarding ((underway_versions installed.version).afterFault
    (fun _ _ hw => hw.drop _) (fun _ _ hw => hw.drop _))) fun versions =>
      Triple.of_and fun hengine => ?_
  refine Triple.bind (Q := fun _ => Equipped setup requested handle' past versions)
    (Triple.alter _ fun w hw => ?_) fun _ => Triple.pure _ fun _ hw => hw
  rw [← hengine] at hw
  have hfound := hw.clear ⟨.installedVersion setup.spec.package, .ok versions.engine⟩
    (by simp [prepared])
  exact ⟨hw.exchanges, Exchange.obstacle?_installedVersion_iff.mp hfound, rfl⟩

/-- What is held is given up, and the whole plan is still to come. -/
theorem underway_release (host : Host σ) (setup : Setup) (requested : String) (w : World σ) :
    Underway setup requested w.launches w.exchanges w.launches []
      (plan setup requested w.launches) (w.release host) where
  exchanges := by simp
  planned := by simp
  clear := by simp
  engine := release_engine host w
  launches_eq := release_launches host w

theorem init_eq (host : Host σ) (setup : Setup) (requested : String) (w : World σ) :
    init host setup requested w = equip host setup requested (w.release host) :=
  rfl

theorem IsHalted.exists_course {fault : Fault} {w : World σ} {outcome : Outcome Versions}
    (h : IsHalted setup requested handle past fault w) (houtcome : outcome.fault? = some fault) :
    ∃ made, w.exchanges = past ++ made ∧
      Course setup requested handle made outcome w.engine := by
  obtain ⟨before, last, hw⟩ := h
  refine ⟨before ++ [last], hw.exchanges, ?_⟩
  rw [hw.engine]
  exact .stopped before last fault outcome hw.planned hw.clear hw.obstacle houtcome

theorem exists_course (host : Host σ) (setup : Setup) (requested : String) (w : World σ) :
    ∃ made, (init host setup requested w).2.exchanges = w.exchanges ++ made ∧
      Course setup requested w.launches made (init host setup requested w).1
        (init host setup requested w).2.engine := by
  have hstart := underway_release host setup requested w
  rw [init_eq]
  rcases hrun : equip host setup requested (w.release host) with ⟨versions | e | p, w'⟩
  case ok =>
    have hend := equipped_equip.ok _ versions w' hstart hrun
    refine ⟨answers setup requested w.launches versions, hend.exchanges, ?_⟩
    rw [hend.engine]
    exact .finished versions hend.version
  case failed => exact (equipped_equip.failed _ e w' hstart hrun).exists_course rfl
  case panicked => exact (equipped_equip.panicked _ p w' hstart hrun).exists_course rfl

/-- What is true of an initialization that made certain exchanges. -/
structure Initializes (host : Host σ) (setup : Setup) (requested : String) (w : World σ)
    (made : List Exchange) : Prop where
  /-- An engine that is held is given up before anything else is done. -/
  first : (w.release host).notes.toList <+: (init host setup requested w).2.notes.toList
  exchanges : (init host setup requested w).2.exchanges = w.exchanges ++ made
  course : Course setup requested w.launches made (init host setup requested w).1
    (init host setup requested w).2.engine
  once : (made.map Exchange.call).Nodup
  /-- It ends well exactly if nothing that it was answered stood in its way. -/
  ok_iff : (init host setup requested w).1.fault? = none ↔
    ∀ x ∈ made, x.obstacle? requested = none
  /-- In another state of the session, if giving up what is held there leaves the host no different,
  the same is asked and answered, with the same end, and the same engine is left. -/
  same : ∀ engine, ((w.holding engine).release host).host = (w.release host).host →
    (init host setup requested (w.holding engine)).1 = (init host setup requested w).1 ∧
    (init host setup requested (w.holding engine)).2.exchanges = w.exchanges ++ made ∧
    (init host setup requested (w.holding engine)).2.engine =
      (init host setup requested w).2.engine

/-- In whatever state the session is and whatever the host answers, an initialization goes through
its plan up to the first obstacle, reports that or the versions it found, and leaves a new, cold
engine or none. -/
theorem exists_initializes (host : Host σ) (setup : Setup) (requested : String) (w : World σ) :
    ∃ made, Initializes host setup requested w made := by
  have hrepeats := (repeats host).equip setup requested
  obtain ⟨made, hmade, hcourse⟩ := exists_course host setup requested w
  refine ⟨made, ?_, hmade, hcourse, ?_, hcourse.ok_iff, ?_⟩
  · obtain ⟨notes, hnotes, -⟩ := (hrepeats _ _ (SameState.refl (w.release host))).2.notes
    rw [init_eq, hnotes]
    exact List.prefix_append _ _
  · exact hcourse.planned.sublist.nodup (nodup_plan _ _ _)
  · intro engine hhost
    obtain ⟨houtcome, hsame⟩ := hrepeats _ _ (sameState_release hhost)
    obtain ⟨made', hw, hv⟩ := hsame.exchanges
    rw [exchanges_release] at hw hv
    have heq : made' = made := List.append_cancel_left (hw.symm.trans hmade)
    rw [heq, exchanges_holding] at hv
    exact ⟨houtcome, hv, hsame.engine⟩

end Session

end CheckWorker
