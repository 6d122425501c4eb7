import CheckWorker.Proofs.Engine.Life
import CheckWorker.Proofs.Session.Kind

/-!
# A session and its engine

Whatever a session does and however that ends, the notes of it follow the rules of an engine's life,
and the engine that the session holds afterwards is the one that is alive. In between the two part:
a new engine is alive from its launch on, and is held when its versions are known.
-/

namespace CheckWorker

open Act

variable {σ : Type} {host : Host σ}

/-- One engine is alive by the notes, and one is held by the session. -/
structure Custody (alive held : EngineState) (w : World σ) : Prop where
  path : Life.Path .start w.notes.toList ⟨w.launches, alive⟩
  engine_eq : w.engine = held

/-- The engine that is held is the one that is alive. -/
def Orderly (w : World σ) : Prop :=
  Custody w.engine w.engine w

theorem Custody.orderly {engine : EngineState} {w : World σ} (h : Custody engine engine w) :
    Orderly w :=
  ⟨h.engine_eq ▸ h.path, rfl⟩

theorem Orderly.keeps_of_forall {α : Type} {x : Act σ α}
    (h : ∀ engine, Triple (Custody engine engine) x (fun _ => Orderly) (fun _ => Orderly)
      (fun _ => Orderly)) : Keeps Orderly x :=
  (Triple.of_exists h).before fun w hw => ⟨w.engine, hw⟩

theorem orderly_start (state : σ) (files : FileTree) (channel : Channel) :
    Orderly (World.start state files channel) :=
  ⟨rfl, rfl⟩

namespace Custody

variable {alive held next : EngineState} {w w' : World σ}

theorem snoc (h : Custody alive held w) {n : Note}
    (hs : Life.Step ⟨w.launches, alive⟩ n ⟨w.launches, next⟩)
    (hn : w'.notes.toList = w.notes.toList ++ [n]) (hl : w'.launches = w.launches)
    (he : w'.engine = w.engine) : Custody next held w' := by
  refine ⟨?_, he.trans h.engine_eq⟩
  rw [hn, hl]
  exact Life.path_append.mpr ⟨_, h.path, _, hs, rfl⟩

theorem ask (h : Custody alive held w) {call : Call}
    (hs : Life.Step ⟨w.launches, alive⟩ (.answered call (Act.ask host call w).1)
      ⟨w.launches, next⟩) : Custody next held (Act.ask host call w).2 :=
  h.snoc hs (ask_notes host call w) rfl rfl

theorem drop {handle : Handle} {warm : Bool} (h : Custody (.ready handle warm) held w) :
    Custody .uninitialized held (w.drop host handle) :=
  h.snoc (.drop _ handle warm) (World.drop_notes host handle w) rfl rfl

theorem hold (h : Custody alive held w) (engine : EngineState) :
    Custody alive engine { w with engine } :=
  ⟨h.path, rfl⟩

theorem release (h : Orderly w) : Custody .uninitialized .uninitialized (w.release host) := by
  have hp := h.path
  cases he : w.engine with
  | uninitialized =>
      rw [he] at hp
      rw [World.release_of_uninitialized host he]
      exact ⟨hp, he⟩
  | ready handle warm =>
      rw [he] at hp
      rw [World.release_of_ready host he]
      exact Custody.drop ⟨hp, rfl⟩

theorem keeps_ask (call : Call)
    (hs : ∀ (n : Nat) (outcome : Outcome call.Result),
      Life.Step ⟨n, alive⟩ (.answered call outcome) ⟨n, alive⟩) :
    Keeps (Custody alive held) (Act.ask host call) :=
  Keeps.of_forall fun w hw => hw.ask (hs w.launches _)

theorem keeps_installEngine (table : VersionTable) (spec : EngineSpec) (requested : String) :
    Keeps (Custody .uninitialized held) (installEngine host table spec requested) := by
  refine (keeps_ask .ensureReady fun n o => .prepare n _ o rfl (by simp)).bind fun _ =>
    (keeps_ask (.install _) fun n o => .prepare n _ o rfl (by simp)).bind fun _ =>
      (keeps_ask (.installedVersion _) fun n o => .prepare n _ o rfl (by simp)).bind
        fun found => ?_
  split
  · exact Keeps.pure _
  · exact Keeps.fail _

theorem launch (spec : EngineSpec) :
    Triple (Custody .uninitialized held) (Act.launch host spec)
      (fun handle => Custody (.ready handle false) held) (fun _ => Custody .uninitialized held)
      (fun _ => Custody .uninitialized held) := by
  refine Triple.launch (R := fun handle w => Life.Path .start w.notes.toList
    ⟨handle, .uninitialized⟩ ∧ w.launches = handle + 1 ∧ w.engine = held)
    (fun w hw => ⟨hw.path, rfl, hw.engine_eq⟩) fun handle => Triple.ask fun w hw => ?_
  obtain ⟨hp, hl, he⟩ := hw
  have hnext {next : EngineState} (hs : Life.Step ⟨handle, .uninitialized⟩
      (.answered (.launch spec handle) (Act.ask host (.launch spec handle) w).1)
      ⟨handle + 1, next⟩) : Custody next held (Act.ask host (.launch spec handle) w).2 := by
    refine ⟨?_, he⟩
    rw [ask_notes, ask_launches, hl]
    exact Life.path_append.mpr ⟨_, hp, _, hs, rfl⟩
  cases ho : (Act.ask host (.launch spec handle) w).1 with
  | ok u => exact hnext (ho ▸ .launch handle spec)
  | failed e => exact hnext (ho ▸ .failLaunch handle spec _ (by simp))
  | panicked p => exact hnext (ho ▸ .failLaunch handle spec _ (by simp))

theorem keeps_versions (handle : Handle) (engine : String) :
    Keeps (Custody (.ready handle false) held) (Session.versions host engine) :=
  (keeps_ask .hostVersion fun n o => .query n handle _ o rfl).bind fun _ =>
    (keeps_ask .runtimeVersion fun n o => .query n handle _ o rfl).bind fun _ =>
      Keeps.pure _

end Custody

/-- A new engine is held, cold. -/
def HoldsNew (w : World σ) : Prop :=
  ∃ handle, Custody (.ready handle false) (.ready handle false) w

/-- The engine of a state is held, warm. -/
def HoldsWarm (engine : EngineState) (w : World σ) : Prop :=
  ∃ handle, engine.handle? = some handle ∧
    Custody (.ready handle true) (.ready handle true) w

theorem HoldsNew.orderly {w : World σ} (h : HoldsNew w) : Orderly w := by
  obtain ⟨handle, hc⟩ := h
  exact hc.orderly

theorem HoldsWarm.orderly {engine : EngineState} {w : World σ} (h : HoldsWarm engine w) :
    Orderly w := by
  obtain ⟨handle, -, hc⟩ := h
  exact hc.orderly

namespace Session

/-- An engine that was launched is held in the end or has been ended. -/
theorem equip_custody (setup : Setup) (requested : String) :
    Triple (Custody .uninitialized .uninitialized) (equip host setup requested)
      (fun _ => HoldsNew) (fun _ => Custody .uninitialized .uninitialized)
      (fun _ => Custody .uninitialized .uninitialized) := by
  refine (Custody.keeps_installEngine _ _ _).bind fun _ =>
    (Custody.launch setup.spec).bind fun handle => ?_
  refine Triple.bind (Q := fun _ => Custody (.ready handle false) .uninitialized)
    (Triple.guarding ?_) fun versions => ?_
  · exact (Custody.keeps_versions handle _).afterFault (fun _ _ h => h.drop) (fun _ _ h => h.drop)
  · exact (Triple.alter _ fun w hw => hw.hold _).bind fun _ =>
      Triple.pure versions fun w hw => ⟨handle, hw⟩

theorem init_custody (setup : Setup) (requested : String) :
    Triple Orderly (init host setup requested) (fun _ => HoldsNew)
      (fun _ => Custody .uninitialized .uninitialized)
      (fun _ => Custody .uninitialized .uninitialized) :=
  (Triple.alter _ fun _ hw => Custody.release hw).bind fun _ => equip_custody setup requested

theorem warmUp_custody (engine : EngineState) :
    Triple (Custody engine engine) (warmUp host) (fun _ => HoldsWarm engine)
      (fun _ => Custody engine engine) (fun _ => Custody engine engine) := by
  refine Triple.bind (Q := fun e w => engine = e ∧ Custody engine engine w)
    (Triple.look _ fun w hw => ⟨hw.engine_eq.symm, hw⟩) fun e => Triple.of_and fun he => ?_
  subst he
  match engine with
  | .uninitialized => exact Triple.fail _ fun w hw => hw
  | .ready handle true => exact Triple.pure false fun w hw => ⟨handle, rfl, hw⟩
  | .ready handle false =>
      refine Triple.bind (Q := fun _ => Custody (.ready handle true) (.ready handle false))
        (Triple.ask fun w hw => ?_) fun _ => (Triple.alter _ fun w hw => hw.hold _).bind fun _ =>
          Triple.pure true fun w hw => ⟨handle, rfl, hw⟩
      cases ho : (Act.ask host (.importEntry handle) w).1 with
      | ok u => exact hw.ask (ho ▸ .importEntry _ handle)
      | failed e => exact hw.ask (ho ▸ .failImport _ handle _ (by simp))
      | panicked p => exact hw.ask (ho ▸ .failImport _ handle _ (by simp))

theorem keeps_stage (setup : Setup) (check : Check) {alive held : EngineState} :
    Keeps (Custody (σ := σ) alive held) (stage setup check) := by
  refine Keeps.of_forall fun w hw => ?_
  unfold stage
  split <;> exact ⟨hw.path, hw.engine_eq⟩

theorem keeps_checkStaged (setup : Setup) (check : Check) (handle : Handle) :
    Keeps (Custody (.ready handle true) (.ready handle true))
      (checkStaged host setup check) := by
  refine (keeps_stage setup check).bind fun path => (Keeps.look _).bind fun before =>
    Triple.bind (Q := fun _ => Custody (.ready handle true) (.ready handle true)) ?_
      fun output => (Keeps.look _).bind fun after => Keeps.pure _
  refine Triple.bind (Q := fun e w => .ready handle true = e ∧
      Custody (.ready handle true) (.ready handle true) w)
    (Triple.look _ fun w hw => ⟨hw.engine_eq.symm, hw⟩) fun e => Triple.of_and fun he => ?_
  subst he
  exact Custody.keeps_ask _ fun n outcome => .run n handle _ outcome

end Session

/-- Something that is done while a session waits. It has no part in the engine, and no notes but its
own. -/
structure Aside (σ : Type) where
  act : Act σ Unit
  engine_eq : ∀ w, (act w).2.engine = w.engine
  launches_eq : ∀ w, (act w).2.launches = w.launches
  notes_eq : ∀ w, ∃ n, (act w).2.notes.toList = w.notes.toList ++ List.replicate n .started

namespace Aside

def telling (e : Event) : Aside σ where
  act := Act.alter (World.emit · e)
  engine_eq _ := rfl
  launches_eq _ := rfl
  notes_eq _ := ⟨0, by simp [Act.alter]⟩

theorem keeps_custody (aside : Aside σ) (alive held : EngineState) :
    Keeps (Custody alive held) aside.act := by
  refine Keeps.of_forall fun w hw => ⟨?_, (aside.engine_eq w).trans hw.engine_eq⟩
  obtain ⟨n, hn⟩ := aside.notes_eq w
  have hstarted (n : Nat) (l : Life) : Life.Path l (List.replicate n .started) l := by
    induction n with
    | zero => rfl
    | succ n ih => exact ⟨l, .started l, ih⟩
  rw [hn, aside.launches_eq]
  exact Life.path_append.mpr ⟨_, hw.path, hstarted n _⟩

end Aside

/-- A check warms the engine that is held, or leaves it as it is when that fails. -/
theorem Session.runCheck_custody (setup : Setup) (check : Check) (started : Aside σ)
    (engine : EngineState) :
    Triple (Custody engine engine) (runCheck host setup check started.act)
      (fun _ => HoldsWarm engine)
      (fun _ w => Custody engine engine w ∨ HoldsWarm engine w)
      (fun _ w => Custody engine engine w ∨ HoldsWarm engine w) := by
  have hrest : Triple (HoldsWarm engine)
      (started.act >>= fun _ => checkStaged host setup check) (fun _ => HoldsWarm engine)
      (fun _ => HoldsWarm engine) (fun _ => HoldsWarm engine) := by
    refine Triple.of_exists fun handle => Triple.of_and fun he => ?_
    refine ((started.keeps_custody _ _).bind fun _ => keeps_checkStaged setup check handle).after
      ?_ ?_ ?_
    · exact fun _ _ h => ⟨handle, he, h⟩
    · exact fun _ _ h => ⟨handle, he, h⟩
    · exact fun _ _ h => ⟨handle, he, h⟩
  refine Triple.bind (Q := fun _ => HoldsWarm engine) ?_ fun _ => ?_
  · exact (warmUp_custody engine).afterFault (fun _ _ h => .inl h) (fun _ _ h => .inl h)
  · exact hrest.afterFault (fun _ _ h => .inr h) (fun _ _ h => .inr h)

namespace Orderly

theorem emit {w : World σ} (h : Orderly w) (e : Event) : Orderly (w.emit e) :=
  ⟨h.path, rfl⟩

theorem keeps_init (setup : Setup) (requested : String) :
    Keeps Orderly (Session.init host setup requested) :=
  (Session.init_custody setup requested).after (fun _ _ h => h.orderly) (fun _ _ h => h.orderly)
    (fun _ _ h => h.orderly)

theorem keeps_warmUp : Keeps Orderly (Session.warmUp host) :=
  keeps_of_forall fun engine => (Session.warmUp_custody engine).after
    (fun _ _ h => h.orderly) (fun _ _ h => h.orderly) (fun _ _ h => h.orderly)

theorem keeps_runCheck (setup : Setup) (check : Check) (started : Aside σ) :
    Keeps Orderly (Session.runCheck host setup check started.act) := by
  have hfault (engine : EngineState) (w : World σ)
      (h : Custody engine engine w ∨ HoldsWarm engine w) : Orderly w := by
    rcases h with h | h
    · exact h.orderly
    · exact h.orderly
  exact keeps_of_forall fun engine => (Session.runCheck_custody setup check started engine).after
    (fun _ _ h => h.orderly) (fun _ => hfault engine) (fun _ => hfault engine)

end Orderly

end CheckWorker
