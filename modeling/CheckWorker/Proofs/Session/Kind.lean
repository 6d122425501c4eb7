import CheckWorker.Gateway
import CheckWorker.Proofs.World.Fault
import CheckWorker.Proofs.World.Repetition

/-!
# What a session does alike

All that a session does is put together from a few acts. A kind of acts that has these and all that
can be put together from them has everything that a session does. Three kinds are of use: the acts
that keep a property of worlds on which a session does not work, the acts that hide no fault, and
the acts that repeat themselves. A kind without the installing of packages has still all that a
session does with an engine, as the acts that keep in mind what has been installed.
-/

namespace CheckWorker

open Act

variable {σ : Type} {host : Host σ}

/-- A kind of acts to which everything belongs that a session does, but for the installing of
packages. -/
structure EngineKind (host : Host σ) (C : (α : Type) → Act σ α → Prop) : Prop where
  pure : ∀ {α : Type} (a : α), C α (pure a)
  bind : ∀ {α β : Type} {x : Act σ α} {f : α → Act σ β}, C α x → (∀ a, C β (f a)) → C β (x >>= f)
  fail : ∀ {α : Type} (e : EngineError), C α (Act.fail e)
  look : ∀ {α : Type} (f : World σ → α), World.Inward f → C α (Act.look f)
  query : ∀ call, (∀ packages, call ≠ .install packages) → C call.Result (Act.ask host call)
  launch : ∀ spec, C Handle (Act.launch host spec)
  guarding : ∀ {α : Type} {x : Act σ α} (handle : Handle), C α x → C α (Act.guarding host handle x)
  release : C Unit (Act.alter (World.release host))
  hold : ∀ engine, C Unit (Act.alter fun w => { w with engine })
  stage : ∀ setup check, C FilePath (Session.stage setup check)

/-- A kind of acts to which everything belongs that a session does. -/
structure SessionKind (host : Host σ) (C : (α : Type) → Act σ α → Prop) : Prop
    extends EngineKind host C where
  install : ∀ packages, C Unit (Act.ask host (.install packages))

namespace EngineKind

variable {C : (α : Type) → Act σ α → Prop} (h : EngineKind host C)

include h

theorem versions (engine : String) : C Versions (Session.versions host engine) :=
  h.bind (h.query .hostVersion (by simp)) fun _ =>
    h.bind (h.query .runtimeVersion (by simp)) fun _ => h.pure _

theorem warmUp : C Bool (Session.warmUp host) := by
  refine h.bind (h.look _ World.inward_engine) fun engine => ?_
  match engine with
  | .uninitialized => exact h.fail _
  | .ready _ true => exact h.pure _
  | .ready handle false =>
      exact h.bind (h.query (.importEntry handle) (by simp)) fun _ =>
        h.bind (h.hold _) fun _ => h.pure _

theorem runEngine (args : List String) : C EngineOutput (Session.runEngine host args) := by
  refine h.bind (h.look _ World.inward_engine) fun engine => ?_
  match engine with
  | .uninitialized => exact h.fail _
  | .ready handle _ => exact h.query (.run handle args) (by simp)

theorem checkStaged (setup : Setup) (check : Check) :
    C CheckResult (Session.checkStaged host setup check) :=
  h.bind (h.stage _ _) fun _ => h.bind (h.look _ World.inward_clock) fun _ =>
    h.bind (h.runEngine _) fun _ => h.bind (h.look _ World.inward_clock) fun _ => h.pure _

theorem runCheck (setup : Setup) (check : Check) {started : Act σ Unit} (hs : C Unit started) :
    C CheckResult (Session.runCheck host setup check started) :=
  h.bind h.warmUp fun _ => h.bind hs fun _ => h.checkStaged setup check

end EngineKind

namespace SessionKind

variable {C : (α : Type) → Act σ α → Prop} (h : SessionKind host C)

include h

theorem installEngine (table : VersionTable) (spec : EngineSpec) (requested : String) :
    C Installed (installEngine host table spec requested) := by
  refine h.bind (h.query .ensureReady (by simp)) fun _ => h.bind (h.install _) fun _ =>
    h.bind (h.query (.installedVersion _) (by simp)) fun found => ?_
  split
  · exact h.pure _
  · exact h.fail _

theorem equip (setup : Setup) (requested : String) :
    C Versions (Session.equip host setup requested) :=
  h.bind (h.installEngine _ _ _) fun _ => h.bind (h.launch _) fun handle =>
    h.bind (h.guarding handle (h.versions _)) fun _ => h.bind (h.hold _) fun _ => h.pure _

theorem init (setup : Setup) (requested : String) :
    C Versions (Session.init host setup requested) :=
  h.bind h.release fun _ => h.equip setup requested

theorem dispatch (g : Gateway) (hemit : ∀ e, C Unit (Act.alter (World.emit · e))) (r : Request) :
    C Unit (g.dispatch host r) := by
  cases r with
  | init version => exact h.bind (h.init _ _) fun _ => hemit _
  | warmup => exact h.bind h.warmUp fun _ => hemit _
  | check check => exact h.bind (h.runCheck _ _ (hemit _)) fun _ => hemit _

end SessionKind

/-- A property of worlds that does not hang on what a session changes. -/
structure Steady (host : Host σ) (P : World σ → Prop) : Prop where
  ask : ∀ call w, P w → P (Act.ask host call w).2
  drop : ∀ handle w, P w → P (w.drop host handle)
  engine : ∀ engine w, P w → P { w with engine }
  launches : ∀ launches w, P w → P { w with launches }
  files : ∀ files w, P w → P { w with files }

theorem Steady.release {P : World σ → Prop} (h : Steady host P) {w : World σ} (hw : P w) :
    P (w.release host) := by
  cases he : w.engine with
  | uninitialized => rwa [World.release_of_uninitialized host he]
  | ready handle warm =>
      rw [World.release_of_ready host he]
      exact h.drop handle _ (h.engine _ w hw)

theorem Steady.keeps {P : World σ → Prop} (h : Steady host P) :
    SessionKind host fun _ x => Keeps P x where
  pure := Keeps.pure
  bind hx hf := Triple.bind hx hf
  fail := Keeps.fail
  look f _ := Keeps.look f
  query call _ := Keeps.of_forall (h.ask call)
  install packages := Keeps.of_forall (h.ask (.install packages))
  launch spec :=
    Triple.launch (fun w hw => h.launches _ w hw) fun _ => Keeps.of_forall (h.ask _)
  guarding handle hx := hx.guarding (h.drop handle)
  release := Keeps.alter fun _ hw => h.release hw
  hold engine := Keeps.alter (h.engine engine)
  stage setup check := by
    refine Keeps.of_forall fun w hw => ?_
    unfold Session.stage
    split <;> exact h.files _ w hw

theorem reportsFaults (host : Host σ) : SessionKind host fun _ x => x.ReportsFaults where
  pure := ReportsFaults.pure
  bind := ReportsFaults.bind
  fail := ReportsFaults.fail
  look f _ := ReportsFaults.look f
  query call _ := ReportsFaults.ask host call
  install packages := ReportsFaults.ask host (.install packages)
  launch := ReportsFaults.launch host
  guarding handle hx := hx.guarding host handle
  release past := by
    refine Triple.alter _ fun w hw => ?_
    cases he : w.engine with
    | uninitialized => rwa [World.release_of_uninitialized host he]
    | ready handle warm =>
        rw [World.release_of_ready host he]
        exact World.FaultsSince.drop (hw.of_notes_eq rfl) host handle
  hold engine := ReportsFaults.alter _ fun _ => rfl
  stage setup check past := by
    have hstage (w : World σ) : (Session.stage setup check w).2.notes = w.notes := by
      unfold Session.stage
      split <;> rfl
    constructor
    · intro w a w' hw ho
      exact hw.of_notes_eq (by simpa [ho] using hstage w)
    · intro w e w' hw ho
      exact (hw.of_notes_eq (by simpa [ho] using hstage w)).weaken
    · intro w p w' hw ho
      exact (hw.of_notes_eq (by simpa [ho] using hstage w)).weaken

theorem repeats (host : Host σ) : SessionKind host fun _ x => x.Repeats where
  pure := Repeats.pure
  bind := Repeats.bind
  fail := Repeats.fail
  look _ := Repeats.look
  query call _ := Repeats.ask host call
  install packages := Repeats.ask host (.install packages)
  launch := Repeats.launch host
  guarding handle hx := hx.guarding host handle
  release := Repeats.alter fun _ _ h => h.release host
  hold engine := Repeats.alter fun _ _ h =>
    .quiet ⟨h.host, h.files, rfl, h.launches, h.clock⟩ rfl rfl rfl rfl
  stage setup check := by
    intro w v h
    unfold Session.stage
    rw [h.files]
    split <;>
      exact ⟨rfl, .quiet ⟨h.host, rfl, h.engine, h.launches, h.clock⟩ rfl rfl rfl rfl⟩

end CheckWorker
