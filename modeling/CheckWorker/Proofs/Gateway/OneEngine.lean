import CheckWorker.Proofs.Gateway.Handling
import CheckWorker.Proofs.Session.Custody

/-!
# One engine at a time

However the calls of a run end, no two engines are ever alive together. Between requests the one that
is alive is the one that the session holds, and a new one is not so much as prepared before the old
one has been ended.
-/

namespace CheckWorker

open Act

variable {σ : Type}

namespace Gateway

variable (host : Host σ) (g : Gateway)

theorem keeps_orderly_dispatch (r : Request) : Keeps Orderly (g.dispatch host r) := by
  have hemit (e : Event) : Keeps Orderly (Act.alter (World.emit (σ := σ) · e)) :=
    Keeps.alter fun _ hw => hw.emit e
  cases r with
  | init version => exact (Orderly.keeps_init _ _).bind fun versions => hemit _
  | warmup => exact Orderly.keeps_warmUp.bind fun imported => hemit _
  | check check =>
      exact (Orderly.keeps_runCheck _ _ (.telling .checking)).bind fun result => hemit _

/-- An engine that is held is ended before anything else is done for an installation. -/
theorem drop_prefix_handle_init (version : Option String) {w : World σ} {handle : Handle}
    (h : w.engine.handle? = some handle) :
    w.notes.toList ++ [.dropped handle] <+: (g.handle host (.init version) w).notes.toList := by
  have hrest : (Session.equip host g.setup (g.versionFor version) >>= fun versions =>
      Act.alter (World.emit · (.initDone versions))).ReportsFaults :=
    ReportsFaults.bind ((reportsFaults host).equip _ _) fun _ => ReportsFaults.alter _ fun _ => rfl
  obtain ⟨notes, hn, -⟩ := hrest.faultsSince (w.release host)
  cases he : w.engine with
  | uninitialized => simp [he, EngineState.handle?] at h
  | ready other warm =>
      have hother : other = handle := by simpa [he, EngineState.handle?] using h
      have hr : (w.release host).notes.toList = w.notes.toList ++ [.dropped handle] := by
        rw [World.release_of_ready host he, World.drop_notes, hother]
      refine ⟨notes, ?_⟩
      rw [handle_notes, ← hr]
      exact hn.symm

/-- An installation that ends with a fault leaves no engine behind. -/
theorem engine_of_init_fault (version : Option String) {w : World σ} (hw : Orderly w)
    (hf : (g.dispatch host (.init version) w).1.fault? ≠ none) :
    (g.handle host (.init version) w).engine = .uninitialized := by
  have hinit : Triple Orderly (g.dispatch host (.init version)) (fun _ _ => True)
      (fun _ w => w.engine = .uninitialized) (fun _ w => w.engine = .uninitialized) :=
    Triple.bind ((Session.init_custody g.setup (g.versionFor version)).afterFault
      (fun _ _ h => h.engine_eq) (fun _ _ h => h.engine_eq))
      fun versions => Triple.alter _ fun _ _ => trivial
  rw [handle_engine]
  rcases hr : g.dispatch host (.init version) w with ⟨_ | _ | _, w'⟩
  case ok u => simp [hr, Outcome.fault?] at hf
  case failed e => exact hinit.failed w e w' hw hr
  case panicked p => exact hinit.panicked w p w' hw hr

/-- What is so of the engines whenever a gateway is between two requests. -/
structure OneEngine (w : World σ) : Prop where
  /-- At no moment is more than one engine alive. -/
  alive_le_one : ∀ past, past <+: w.notes.toList → (Note.alive past).length ≤ 1
  /-- The engine that is held is the one that is alive. -/
  alive_eq : Note.alive w.notes.toList = w.engine.handle?.toList
  /-- Every engine that was launched has been ended, but for the one that is held. -/
  launched_eq : (w.notes.toList.filterMap Note.launched?).length =
    (w.notes.toList.filterMap Note.dropped?).length + if w.engine.isInitialized then 1 else 0
  /-- No engine is alive when one is installed or launched. -/
  alive_of_isInstalling : ∀ past call outcome, past ++ [.answered call outcome] <+: w.notes.toList →
    call.isInstalling = true → Note.alive past = []
  /-- The first thing that is done for an installation is to end the engine that is held. -/
  drops_first : ∀ version handle, w.engine.handle? = some handle →
    w.notes.toList ++ [.dropped handle] <+: (g.handle host (.init version) w).notes.toList
  /-- An engine whose launch is followed by a question for versions that has a fault is ended before
  the handling of the request is. -/
  drops_on_fault : ∀ version before spec handle after,
    (g.handle host (.init version) w).notes.toList =
      w.notes.toList ++ before ++ .answered (.launch spec handle) (.ok ()) :: after →
    (∃ call outcome, .answered call outcome ∈ after ∧ call.asksVersion = true ∧
      outcome.fault? ≠ none) →
    .dropped handle ∈ after ∧ (g.handle host (.init version) w).engine = .uninitialized

/-- When a question for versions has a fault, the engine that was launched before it is ended. -/
theorem dropped_of_fault (version : Option String) {w : World σ} (hw : Orderly w)
    {before after : List Note} {spec : EngineSpec} {handle : Handle}
    (hn : (g.handle host (.init version) w).notes.toList =
      w.notes.toList ++ before ++ .answered (.launch spec handle) (.ok ()) :: after)
    {call : Call} {outcome : Outcome call.Result} (hm : .answered call outcome ∈ after)
    (hf : outcome.fault? ≠ none) :
    .dropped handle ∈ after ∧ (g.handle host (.init version) w).engine = .uninitialized := by
  have hfault : (g.dispatch host (.init version) w).1.fault? ≠ none := by
    obtain ⟨notes, hs, hfs⟩ := faultsSince_handle host g (.init version) w
    have hnotes : notes = before ++ .answered (.launch spec handle) (.ok ()) :: after := by
      rw [hs, List.append_assoc] at hn
      exact List.append_cancel_left hn
    obtain ⟨fault, hof⟩ := Option.ne_none_iff_exists'.mp hf
    have hmem : Note.answered call outcome ∈ notes := by
      rw [hnotes]
      exact List.mem_append_right _ (List.mem_cons_of_mem _ hm)
    simp [hfs _ hmem fault hof]
  have hend := engine_of_init_fault host g version hw hfault
  have hpath := (keeps_handle (keeps_orderly_dispatch host g) (fun e _ h => h.emit e)
    (.init version) hw).path
  rw [hn, hend] at hpath
  obtain ⟨m, -, m', hs, ha⟩ := Life.path_append.mp hpath
  refine ⟨?_, hend⟩
  rcases hs.launch_or_drop_or_keep with ⟨hl, -, -, rfl⟩ | ⟨_, _, hl, -⟩ | ⟨hl, -⟩
  · have hm : m.launches = handle := (Option.some.inj hl).symm
    have hready : (EngineState.ready m.launches false).handle? = some handle := by
      rw [hm]
      rfl
    rcases ha.dropped_or_kept hready with hd | hd
    · exact hd
    · cases hd
  · cases hl
  · cases hl

theorem oneEngine_of_orderly {w : World σ} (hw : Orderly w) : OneEngine host g w where
  alive_le_one past hp := by
    obtain ⟨m, hm⟩ := hw.path.of_prefix hp
    rw [hm.alive_eq]
    cases m.engine <;> simp [EngineState.handle?]
  alive_eq := hw.path.alive_eq
  launched_eq := by
    have h := hw.path.launched_add
    cases he : w.engine <;>
      simpa [he, Life.start, EngineState.handle?, EngineState.isInitialized] using h
  alive_of_isInstalling past call outcome hp hc := by
    obtain ⟨m, m', hm, hs⟩ := hw.path.step_of_prefix hp
    rw [hm.alive_eq, hs.engine_of_isInstalling hc]
    rfl
  drops_first version handle h := drop_prefix_handle_init host g version h
  drops_on_fault version before spec handle after hn := by
    rintro ⟨call, outcome, hm, -, hf⟩
    exact dropped_of_fault host g version hw hn hm hf

/-- Whatever comes in, and however the calls of the host end, there is one engine at a time. -/
theorem oneEngine_handleAll (items : List Inbound) (state : σ) (files : FileTree)
    (channel : Channel) :
    OneEngine host g (g.handleAll host items (World.start state files channel)) :=
  oneEngine_of_orderly host g (keeps_handleAll (keeps_orderly_dispatch host g)
    (fun e _ h => h.emit e) items (orderly_start state files channel))

end Gateway

end CheckWorker
