import CheckWorker.Proofs.Queue.Order

/-!
# When nobody listens

What a gateway does does not hang on who listens. If the listener goes away in the middle of a run,
then after every item the session, the files, the host and the calls that were made of it are what
they are in the run that is heard to its end, and what the listener has had is the beginning of what
is heard there. The listener may go away between any two events, also while packages are installed
or a check is under way.
-/

namespace CheckWorker

open World

namespace Channel

/-- A listener that takes so many events and goes away. -/
def leavingAfter (n : Nat) : Channel :=
  ⟨some n, #[]⟩

theorem taken_sendAll_some (n : Nat) (taken : Array Event) (es : List Event) :
    ((Channel.mk (some n) taken).sendAll es).taken.toList = taken.toList ++ es.take n := by
  induction es generalizing n taken with
  | nil => simp
  | cons e es ih =>
      cases n with
      | zero =>
          have hsend : (Channel.mk (some 0) taken).send e = ⟨some 0, taken⟩ := rfl
          rw [sendAll_cons, hsend, ih]
          simp
      | succ n =>
          have hsend : (Channel.mk (some (n + 1)) taken).send e = ⟨some n, taken.push e⟩ := rfl
          rw [sendAll_cons, hsend, ih]
          simp

/-- Who goes away after some events has had the first of them. -/
theorem taken_sendAll_leavingAfter (n : Nat) (es : List Event) :
    ((leavingAfter n).sendAll es).taken.toList =
      (listened.sendAll es).taken.toList.take n := by
  rw [leavingAfter, taken_sendAll_some, taken_sendAll_listened listened rfl]
  simp [listened]

end Channel

namespace Gateway

variable {σ : Type} (host : Host σ) (g : Gateway)

theorem alongside_handle (r : Request) {w v : World σ} (h : SameState w v) :
    Alongside w v (g.handle host r w) (g.handle host r v) := by
  have hrepeats := (repeats host).dispatch g (fun e => .alter fun _ _ h => h.emit e) r
  obtain ⟨houtcome, hsame⟩ := hrepeats w v h
  rw [handle_eq, handle_eq, houtcome]
  cases (g.dispatch host r w).1.fault? with
  | none => exact hsame
  | some fault => exact hsame.trans (hsame.toSameState.emit _)

theorem alongside_handleInbound (item : Inbound) {w v : World σ} (h : SameState w v) :
    Alongside w v (g.handleInbound host item w) (g.handleInbound host item v) := by
  rw [handleInbound_eq, handleInbound_eq]
  cases item.read with
  | error fault => exact h.emit _
  | ok r => exact alongside_handle host g r h

/-- From worlds of the same state the same items lead to the same. -/
theorem alongside_handleAll (items : List Inbound) {w v : World σ} (h : SameState w v) :
    Alongside w v (g.handleAll host items w) (g.handleAll host items v) := by
  induction items generalizing w v with
  | nil => exact h.alongside
  | cons item items ih =>
      have hfirst := alongside_handleInbound host g item h
      exact hfirst.trans (ih hfirst.toSameState)

/-- All that is sent goes into the channel. -/
theorem channel_handleAll (items : List Inbound) (w : World σ) :
    (g.handleAll host items w).channel = w.channel.sendAll
      ((Queue.eventsBetween w (g.handleAll host items w)).map Prod.snd) := by
  obtain ⟨events, hsent, hchannel⟩ := sentSince_handleAll host g items w
  rw [hchannel, Queue.eventsBetween, hsent]
  simp

/-- With another listener the same is done and the same is sent. -/
theorem handleAll_heardBy (items : List Inbound) (channel : Channel) (w : World σ) :
    g.handleAll host items (w.heardBy channel) = (g.handleAll host items w).heardBy
      (channel.sendAll ((Queue.eventsBetween w (g.handleAll host items w)).map Prod.snd)) := by
  have hsame := (alongside_handleAll host g items
    (SameState.heardBy w channel)).eq_except_channel rfl rfl
  have hsent : (g.handleAll host items (w.heardBy channel)).sent =
      (g.handleAll host items w).sent := by
    rw [hsame]
    rfl
  rw [hsame, channel_handleAll, Queue.eventsBetween, hsent]
  rfl

/-- What becomes of some items if the listener goes away after `n` events, beside what becomes of
them if it stays. -/
structure Unheard (n : Nat) (items : List Inbound) (w : World σ) : Prop where
  /-- After each item only the channels may differ. -/
  same : ∀ i, ∃ channel, g.handleAll host (items.take i) (w.heardBy (.leavingAfter n)) =
    (g.handleAll host (items.take i) (w.heardBy .listened)).heardBy channel
  /-- Who goes away has had the first `n` of the events that are heard by who stays. -/
  taken : (g.handleAll host items (w.heardBy (.leavingAfter n))).channel.taken.toList =
    (g.handleAll host items (w.heardBy .listened)).channel.taken.toList.take n
  /-- Who stays hears all that is sent, in order. -/
  heard : (g.handleAll host items (w.heardBy .listened)).channel.taken.toList =
    (Queue.eventsBetween w (g.handleAll host items (w.heardBy .listened))).map Prod.snd

/-- Whatever comes in, whatever the host does and whenever the listener goes away, nothing changes
but that later events are lost. -/
theorem unheard_handleAll (n : Nat) (items : List Inbound) (w : World σ) :
    Unheard host g n items w where
  same i := by
    rw [handleAll_heardBy, handleAll_heardBy]
    exact ⟨_, rfl⟩
  taken := by
    rw [handleAll_heardBy, handleAll_heardBy]
    exact Channel.taken_sendAll_leavingAfter n _
  heard := by
    rw [handleAll_heardBy]
    exact Channel.taken_sendAll_listened .listened rfl _

end Gateway

end CheckWorker
