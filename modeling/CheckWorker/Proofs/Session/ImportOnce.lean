import CheckWorker.Proofs.Session.Custody

/-!
# Engines are imported once, and before they run

A session remembers by one mark whether its engine has been imported. Through whatever order of
operations, and however these end, the mark says what has really happened to the engine that is held.
-/

namespace CheckWorker

open Act

variable {σ : Type}

namespace Session

/-- What can be done with a session. -/
inductive Operation (σ : Type)
  | init (requested : String)
  | warmUp
  | runCheck (check : Check) (started : Aside σ)

/-- Whether an operation is for the engine that is held, and not for a new one. -/
def Operation.usesEngine : Operation σ → Bool
  | .init _ => false
  | .warmUp => true
  | .runCheck _ _ => true

variable (host : Host σ) (setup : Setup)

def operate (w : World σ) : Operation σ → World σ
  | .init requested => (init host setup requested w).2
  | .warmUp => (warmUp host w).2
  | .runCheck check started => (runCheck host setup check started.act w).2

def operateAll (operations : List (Operation σ)) (w : World σ) : World σ :=
  operations.foldl (operate host setup) w

theorem orderly_operate (operation : Operation σ) {w : World σ} (hw : Orderly w) :
    Orderly (operate host setup w operation) := by
  cases operation with
  | init requested => exact (Orderly.keeps_init setup requested).apply hw
  | warmUp => exact Orderly.keeps_warmUp.apply hw
  | runCheck check started => exact (Orderly.keeps_runCheck setup check started).apply hw

theorem orderly_operateAll (operations : List (Operation σ)) {w : World σ} (hw : Orderly w) :
    Orderly (operateAll host setup operations w) := by
  induction operations generalizing w with
  | nil => exact hw
  | cons operation operations ih => exact ih (orderly_operate host setup operation hw)

/-- An engine that is warm is held, warm, after every operation that is for it. -/
theorem engine_operate_of_warm {operation : Operation σ} (ho : operation.usesEngine = true)
    {w : World σ} (hw : Orderly w) (hwarm : w.engine.isWarm = true) :
    (operate host setup w operation).engine = w.engine := by
  cases he : w.engine with
  | uninitialized => simp [he, EngineState.isWarm] at hwarm
  | ready handle warm =>
      obtain rfl : warm = true := by simpa [he, EngineState.isWarm] using hwarm
      have hc : Custody (.ready handle true) (.ready handle true) w := by
        have h : Custody w.engine w.engine w := hw
        rwa [he] at h
      have hkept (w' : World σ) (h : HoldsWarm (.ready handle true) w') :
          w'.engine = .ready handle true := by
        obtain ⟨other, hh, h'⟩ := h
        rw [h'.engine_eq, Option.some.inj hh]
      cases operation with
      | init requested => cases ho
      | warmUp =>
          exact ((warmUp_custody _).after (fun _ => hkept)
            (fun _ _ h => h.engine_eq) (fun _ _ h => h.engine_eq)).apply hc
      | runCheck check started =>
          have hfault (w' : World σ) (h : Custody (.ready handle true) (.ready handle true) w' ∨
              HoldsWarm (.ready handle true) w') : w'.engine = .ready handle true :=
            h.elim (fun h => h.engine_eq) (hkept w')
          exact ((runCheck_custody setup check started _).after (fun _ => hkept)
            (fun _ => hfault) (fun _ => hfault)).apply hc

/-- What is so of the engines of a session whatever has been done with it. -/
structure ImportsOnce (w : World σ) : Prop where
  /-- No number stands for two engines. -/
  launched_nodup : (w.notes.toList.filterMap Note.launched?).Nodup
  /-- An engine is run only after it has been imported. -/
  imported_of_run : ∀ past handle args outcome,
    past ++ [.answered (.run handle args) outcome] <+: w.notes.toList → .imported handle ∈ past
  /-- An engine that has been imported is not imported again. -/
  not_imported_of_import : ∀ past handle outcome,
    past ++ [.answered (.importEntry handle) outcome] <+: w.notes.toList → .imported handle ∉ past
  /-- A session is warm when the engine that it holds has been imported. -/
  isWarm_iff : w.engine.isWarm = true ↔
    ∃ handle, w.engine.handle? = some handle ∧ .imported handle ∈ w.notes.toList
  /-- Nothing but a new installation makes a warm session cold. -/
  stays_warm : ∀ operation : Operation σ, operation.usesEngine = true → w.engine.isWarm = true →
    (operate host setup w operation).engine = w.engine
  /-- An installation that ends well leaves an engine that is cold. -/
  cold_of_init : ∀ requested versions w', init host setup requested w = (.ok versions, w') →
    w'.engine.isInitialized = true ∧ w'.engine.isWarm = false

theorem importsOnce_of_orderly {w : World σ} (hw : Orderly w) : ImportsOnce host setup w where
  launched_nodup := hw.path.remembers.launched_nodup
  imported_of_run past handle args outcome hp := by
    obtain ⟨m, m', hm, hs⟩ := hw.path.step_of_prefix hp
    have he := hs.engine_of_run
    exact (hm.remembers.warm_iff handle (by rw [he]; rfl)).mp (by rw [he]; rfl)
  not_imported_of_import past handle outcome hp himported := by
    obtain ⟨m, m', hm, hs⟩ := hw.path.step_of_prefix hp
    have he := hs.engine_of_import
    have hwarm := (hm.remembers.warm_iff handle (by rw [he]; rfl)).mpr himported
    simp [he, EngineState.isWarm] at hwarm
  isWarm_iff := by
    have hiff := hw.path.remembers.warm_iff
    constructor
    · intro hwarm
      cases he : w.engine with
      | uninitialized => simp [he, EngineState.isWarm] at hwarm
      | ready handle warm => exact ⟨handle, rfl, (hiff handle (by rw [he]; rfl)).mp hwarm⟩
    · rintro ⟨handle, hh, hm⟩
      exact (hiff handle hh).mpr hm
  stays_warm operation ho hwarm := engine_operate_of_warm host setup ho hw hwarm
  cold_of_init requested versions w' hr := by
    obtain ⟨handle, hc⟩ := (init_custody setup requested).ok w versions w' hw hr
    simp [hc.engine_eq, EngineState.isInitialized, EngineState.isWarm]

/-- Whatever is done with a session, and however the calls of the host end, its mark is true, and its
engines are imported once and before they run. -/
theorem importsOnce_operateAll (operations : List (Operation σ)) (state : σ) (files : FileTree)
    (channel : Channel) :
    ImportsOnce host setup (operateAll host setup operations (World.start state files channel)) :=
  importsOnce_of_orderly host setup
    (orderly_operateAll host setup operations (orderly_start state files channel))

end Session

end CheckWorker
