import CheckWorker.Proofs.World.Triple

/-!
# Doing the same again

What an act does hangs on the state of the host, the files, the engine, the launches and the clock.
It does not hang on who listens, nor on what was sent and noted before. An act that repeats itself
ends alike in two worlds of the same state, leaves them in the same state, and adds the same notes
and events to both.
-/

namespace CheckWorker

variable {σ α β : Type}

namespace World

/-- Two worlds differ at most in who listens and in what was sent and noted. -/
structure SameState (w v : World σ) : Prop where
  host : v.host = w.host
  files : v.files = w.files
  engine : v.engine = w.engine
  launches : v.launches = w.launches
  clock : v.clock = w.clock

/-- The same world, but for who listens. -/
def heardBy (channel : Channel) (w : World σ) : World σ :=
  { w with channel }

/-- The same world, in another state of the session. -/
def holding (engine : EngineState) (w : World σ) : World σ :=
  { w with engine }

/-- What is looked at is none of the things in which worlds of the same state may differ. -/
def Inward (f : World σ → α) : Prop :=
  ∀ w channel sent notes, f { w with channel, sent, notes } = f w

theorem inward_engine : Inward (World.engine : World σ → EngineState) :=
  fun _ _ _ _ => rfl

theorem inward_clock : Inward (World.clock : World σ → UInt64) :=
  fun _ _ _ _ => rfl

/-- From `w` to `w'` and from `v` to `v'` the same was done: the same notes and events were added,
and the state is the same afterwards. -/
structure Alongside (w v w' v' : World σ) : Prop extends SameState w' v' where
  notes : ∃ notes, w'.notes.toList = w.notes.toList ++ notes ∧
    v'.notes.toList = v.notes.toList ++ notes
  sent : ∃ events, w'.sent.toList = w.sent.toList ++ events ∧
    v'.sent.toList = v.sent.toList ++ events

namespace SameState

variable {w v : World σ}

theorem eq (h : SameState w v) :
    v = { w with channel := v.channel, sent := v.sent, notes := v.notes } := by
  obtain ⟨hh, hf, he, hl, hc⟩ := h
  cases w
  cases v
  simp only at hh hf he hl hc
  subst hh hf he hl hc
  rfl

theorem refl (w : World σ) : SameState w w :=
  ⟨rfl, rfl, rfl, rfl, rfl⟩

theorem heardBy (w : World σ) (channel : Channel) : SameState w (w.heardBy channel) :=
  ⟨rfl, rfl, rfl, rfl, rfl⟩

theorem inward {f : World σ → α} (h : SameState w v) (hf : Inward f) : f v = f w := by
  rw [h.eq]
  exact hf w _ _ _

/-- Nothing has been done yet. -/
theorem alongside (h : SameState w v) : Alongside w v w v :=
  ⟨h, ⟨[], by simp, by simp⟩, ⟨[], by simp, by simp⟩⟩

end SameState

namespace Alongside

variable {w v w' v' w'' v'' : World σ}

theorem trans (h : Alongside w v w' v') (h' : Alongside w' v' w'' v'') :
    Alongside w v w'' v'' := by
  obtain ⟨notes, hw, hv⟩ := h.notes
  obtain ⟨notes', hw', hv'⟩ := h'.notes
  obtain ⟨events, hws, hvs⟩ := h.sent
  obtain ⟨events', hws', hvs'⟩ := h'.sent
  exact ⟨h'.toSameState,
    ⟨notes ++ notes', by rw [hw', hw, List.append_assoc], by rw [hv', hv, List.append_assoc]⟩,
    ⟨events ++ events', by rw [hws', hws, List.append_assoc],
      by rw [hvs', hvs, List.append_assoc]⟩⟩

/-- If the same was noted and sent before as well, only who listens makes a difference. -/
theorem eq_except_channel (h : Alongside w v w' v') (hnotes : v.notes = w.notes)
    (hsent : v.sent = w.sent) : v' = w'.heardBy v'.channel := by
  obtain ⟨notes, hw, hv⟩ := h.notes
  obtain ⟨events, hws, hvs⟩ := h.sent
  have hnotes' : v'.notes = w'.notes := Array.toList_inj.mp (by rw [hw, hv, hnotes])
  have hsent' : v'.sent = w'.sent := Array.toList_inj.mp (by rw [hws, hvs, hsent])
  have heq := h.toSameState.eq
  rwa [hnotes', hsent'] at heq

/-- What leaves notes and events alone and changes the state in the same way is done alongside. -/
theorem quiet (h : SameState w' v') (hw : w'.notes = w.notes) (hv : v'.notes = v.notes)
    (hws : w'.sent = w.sent) (hvs : v'.sent = v.sent) : Alongside w v w' v' :=
  ⟨h, ⟨[], by simp [hw], by simp [hv]⟩, ⟨[], by simp [hws], by simp [hvs]⟩⟩

end Alongside

namespace SameState

variable {w v : World σ} (h : SameState w v)

include h

theorem emit (e : Event) : Alongside w v (w.emit e) (v.emit e) :=
  ⟨⟨h.host, h.files, h.engine, h.launches, h.clock⟩, ⟨[], by simp, by simp⟩,
    ⟨[(.gateway, e)], by simp [World.emit], by simp [World.emit]⟩⟩

theorem passOn (logs : List String) : Alongside w v (w.passOn logs) (v.passOn logs) :=
  ⟨⟨h.host, h.files, h.engine, h.launches, h.clock⟩,
    ⟨[], by simp [World.passOn], by simp [World.passOn]⟩,
    ⟨logs.map fun line => (.engine, .log line), by simp [World.passOn], by simp [World.passOn]⟩⟩

theorem note (n : Note) : Alongside w v (w.note n) (v.note n) :=
  ⟨⟨h.host, h.files, h.engine, h.launches, h.clock⟩,
    ⟨[n], by simp [World.note], by simp [World.note]⟩,
    ⟨[], by simp [World.note], by simp [World.note]⟩⟩

theorem drop (host : Host σ) (handle : Handle) :
    Alongside w v (w.drop host handle) (v.drop host handle) := by
  have hstate : SameState { w with host := (host.drop handle w.host).1 }
      { v with host := (host.drop handle v.host).1 } :=
    ⟨by rw [h.host], h.files, h.engine, h.launches, h.clock⟩
  have hgone : Alongside w v _ _ := .quiet hstate rfl rfl rfl rfl
  have hnoted := hgone.trans (hstate.note (.dropped handle))
  have htold := hnoted.trans (hnoted.toSameState.passOn (host.drop handle w.host).2)
  unfold World.drop
  rwa [h.host] at htold ⊢

theorem release (host : Host σ) : Alongside w v (w.release host) (v.release host) := by
  cases he : w.engine with
  | uninitialized =>
      rw [release_of_uninitialized host he, release_of_uninitialized host (h.engine.trans he)]
      exact h.alongside
  | ready handle warm =>
      rw [release_of_ready host he, release_of_ready host (h.engine.trans he)]
      have hstate : SameState { w with engine := .uninitialized }
          { v with engine := .uninitialized } :=
        ⟨h.host, h.files, rfl, h.launches, h.clock⟩
      have hgiven : Alongside w v _ _ := .quiet hstate rfl rfl rfl rfl
      exact hgiven.trans (hstate.drop host handle)

end SameState

end World

namespace Act

open World

/-- In two worlds of the same state an act ends alike, and the same is done. -/
def Repeats (x : Act σ α) : Prop :=
  ∀ w v, SameState w v → (x v).1 = (x w).1 ∧ Alongside w v (x w).2 (x v).2

namespace Repeats

theorem pure (a : α) : (Pure.pure a : Act σ α).Repeats :=
  fun _ _ h => ⟨rfl, h.alongside⟩

theorem fail (e : EngineError) : (Act.fail e : Act σ α).Repeats :=
  fun _ _ h => ⟨rfl, h.alongside⟩

theorem look {f : World σ → α} (hf : Inward f) : (Act.look f).Repeats :=
  fun _ _ h => ⟨congrArg Outcome.ok (h.inward hf), h.alongside⟩

theorem alter {f : World σ → World σ}
    (hf : ∀ w v, SameState w v → Alongside w v (f w) (f v)) : (Act.alter f).Repeats :=
  fun w v h => ⟨rfl, hf w v h⟩

theorem bind {x : Act σ α} {f : α → Act σ β} (hx : x.Repeats) (hf : ∀ a, (f a).Repeats) :
    (x >>= f).Repeats := by
  intro w v h
  obtain ⟨houtcome, hsame⟩ := hx w v h
  rcases hw : x w with ⟨_ | _ | _, w'⟩
  all_goals
    rcases hv : x v with ⟨outcome, v'⟩
    rw [hw, hv] at houtcome hsame
    obtain rfl : outcome = _ := houtcome
  case ok a =>
    rw [bind_ok hw, bind_ok hv]
    obtain ⟨hrest, hsame'⟩ := hf a w' v' hsame.toSameState
    exact ⟨hrest, hsame.trans hsame'⟩
  case failed e =>
    rw [bind_failed hw, bind_failed hv]
    exact ⟨rfl, hsame⟩
  case panicked p =>
    rw [bind_panicked hw, bind_panicked hv]
    exact ⟨rfl, hsame⟩

theorem ask (host : Host σ) (call : Call) : (Act.ask host call).Repeats := by
  intro w v h
  have hreply : host.answer call v.host v.files = host.answer call w.host w.files := by
    rw [h.host, h.files]
  simp only [Act.ask, hreply]
  refine ⟨trivial, ?_⟩
  generalize host.answer call w.host w.files = reply
  have hstate : SameState
      { w with host := reply.state, files := reply.files, clock := w.clock + reply.millis }
      { v with host := reply.state, files := reply.files, clock := v.clock + reply.millis } :=
    ⟨rfl, rfl, h.engine, h.launches, by rw [h.clock]⟩
  have hdone : Alongside w v _ _ := .quiet hstate rfl rfl rfl rfl
  have hnoted := hdone.trans (hstate.note (.answered call reply.outcome))
  exact hnoted.trans (hnoted.toSameState.passOn reply.logs)

theorem launch (host : Host σ) (spec : EngineSpec) : (Act.launch host spec).Repeats := by
  intro w v h
  have hnumber : SameState { w with launches := w.launches + 1 }
      { v with launches := w.launches + 1 } :=
    ⟨h.host, h.files, h.engine, rfl, h.clock⟩
  have hcounted : Alongside w v _ _ := .quiet hnumber rfl rfl rfl rfl
  obtain ⟨houtcome, hsame⟩ :=
    ((ask host (.launch spec w.launches)).bind (f := fun () => Pure.pure w.launches)
      fun () => pure w.launches) _ _ hnumber
  unfold Act.launch
  rw [h.launches]
  exact ⟨houtcome, hcounted.trans hsame⟩

theorem guarding {x : Act σ α} (hx : x.Repeats) (host : Host σ) (handle : Handle) :
    (Act.guarding host handle x).Repeats := by
  intro w v h
  obtain ⟨houtcome, hsame⟩ := hx w v h
  unfold Act.guarding
  rcases hw : x w with ⟨_ | _ | _, w'⟩
  all_goals
    rcases hv : x v with ⟨outcome, v'⟩
    rw [hw, hv] at houtcome hsame
    obtain rfl : outcome = _ := houtcome
  case ok a => exact ⟨rfl, hsame⟩
  case failed e => exact ⟨rfl, hsame.trans (hsame.toSameState.drop host handle)⟩
  case panicked p => exact ⟨rfl, hsame.trans (hsame.toSameState.drop host handle)⟩

end Repeats

end Act

end CheckWorker
