import CheckWorker.Proofs.Gateway.Answers
import CheckWorker.Queue
import CheckWorker.Rehearsal.ScriptedHost

/-!
# The order of a queue

However sending, handling, taking and the error stream take turns, items are handled in the order in
which they were sent, and the world is the one that a gateway would have left which handled them one
after another. Its events are in the channel, in order, and but for lines of the error stream there
is nothing else.
-/

namespace CheckWorker

variable {σ : Type} {host : Host σ} {g : Gateway} {noise : String → Prop}

/-! ## Events between two worlds -/

namespace Gateway

theorem sentSince_self (w : World σ) : SentSince w.sent.toList w.channel w :=
  ⟨[], by simp, by simp⟩

theorem SentSince.prefix_sent {past : List (Origin × Event)} {c : Channel} {w : World σ}
    (h : SentSince past c w) : past <+: w.sent.toList := by
  obtain ⟨events, hs, -⟩ := h
  exact ⟨events, hs.symm⟩

theorem sentSince_handleAll (host : Host σ) (g : Gateway) (items : List Inbound) (w : World σ) :
    SentSince w.sent.toList w.channel (g.handleAll host items w) := by
  have hkind := (steady_sentSince host w.sent.toList w.channel).keeps
  apply keeps_handleAll
  · exact hkind.dispatch g fun e => Act.Keeps.alter fun _ hw => SentSince.emit hw e
  · exact fun e _ hw => SentSince.emit hw e
  · exact sentSince_self w

theorem prefix_handleAll (host : Host σ) (g : Gateway) (items : List Inbound) (w : World σ) :
    w.sent.toList <+: (g.handleAll host items w).sent.toList :=
  (sentSince_handleAll host g items w).prefix_sent

theorem prefix_handleInbound (host : Host σ) (g : Gateway) (item : Inbound) (w : World σ) :
    w.sent.toList <+: (g.handleInbound host item w).sent.toList :=
  prefix_handleAll host g [item] w

theorem prefix_release (host : Host σ) (w : World σ) :
    w.sent.toList <+: (w.release host).sent.toList :=
  ((steady_sentSince host w.sent.toList w.channel).release (sentSince_self w)).prefix_sent

theorem told_release (host : Host σ) (w : World σ) : (w.release host).told = w.told :=
  (steady_told host w.told).release rfl

end Gateway

namespace Queue

/-- Nothing comes on the error stream. -/
def silence : String → Prop :=
  fun _ => False

theorem sent_eq_append {a b : World σ} (h : a.sent.toList <+: b.sent.toList) :
    b.sent.toList = a.sent.toList ++ eventsBetween a b := by
  obtain ⟨events, h⟩ := h
  rw [eventsBetween, ← h]
  simp

theorem eventsBetween_self (w : World σ) : eventsBetween w w = [] := by
  simp [eventsBetween]

theorem eventsBetween_append {a b c : World σ} (hab : a.sent.toList <+: b.sent.toList)
    (hbc : b.sent.toList <+: c.sent.toList) :
    eventsBetween a b ++ eventsBetween b c = eventsBetween a c := by
  have h : a.sent.toList ++ (eventsBetween a b ++ eventsBetween b c) =
      a.sent.toList ++ eventsBetween a c := by
    rw [← List.append_assoc, ← sent_eq_append hab, ← sent_eq_append hbc,
      ← sent_eq_append (hab.trans hbc)]
  exact List.append_cancel_left h

theorem told_eq_append {a b : World σ} (h : a.sent.toList <+: b.sent.toList) :
    b.told = a.told ++ ((eventsBetween a b).filter (·.1 == .gateway)).map Prod.snd := by
  simp [World.told, sent_eq_append h]

namespace Mixed

variable {own own' mixed mixed' : List (Origin × Event)}

theorem refl (own : List (Origin × Event)) : Mixed noise own own := by
  induction own with
  | nil => exact .nil
  | cons e own ih => exact .event e ih

theorem append (h : Mixed noise own mixed) (h' : Mixed noise own' mixed') :
    Mixed noise (own ++ own') (mixed ++ mixed') := by
  induction h with
  | nil => exact h'
  | event e _ ih => exact .event e ih
  | line text ht _ ih => exact .line text ht ih

/-- What the error stream adds is not from the gateway. -/
theorem filter_gateway (h : Mixed noise own mixed) :
    mixed.filter (·.1 == .gateway) = own.filter (·.1 == .gateway) := by
  induction h with
  | nil => rfl
  | event e _ ih => simp only [List.filter_cons, ih]
  | line text _ _ ih => exact (List.filter_cons_of_neg (by simp)).trans ih

theorem eq_of_silence (h : Mixed silence own mixed) : mixed = own := by
  induction h with
  | nil => rfl
  | event e _ ih => rw [ih]
  | line _ ht _ _ => exact ht.elim

end Mixed

/-! ## What is kept -/

/-- What is true of a queue that began in the world `w`. -/
structure InOrder (host : Host σ) (g : Gateway) (noise : String → Prop) (w : World σ)
    (q : Queue σ) : Prop where
  fifo : q.handled ++ q.waiting = q.sent
  world : q.world =
    if q.isStopped then (g.handleAll host q.handled w).release host
    else g.handleAll host q.handled w
  mixed : Mixed noise (eventsBetween w q.world) q.events
  closed : q.isStopped = true → q.isClosed = true
  empty : q.isStopped = true → q.waiting = []

theorem inOrder_start (w : World σ) : InOrder host g noise w (start w) where
  fifo := rfl
  world := rfl
  mixed := by
    rw [start, eventsBetween_self]
    exact .nil
  closed h := by cases h
  empty h := by cases h

/-- What is worked at leaves alone what was sent and what was taken. -/
theorem Work.frame {q r : Queue σ} (h : Work host g noise q r) :
    r.sent = q.sent ∧ r.taken = q.taken ∧ r.isClosed = q.isClosed ∧ q.isStopped = false := by
  cases h with
  | handle _ _ _ _ hs _ => exact ⟨rfl, rfl, rfl, hs⟩
  | tell _ _ hs => exact ⟨rfl, rfl, rfl, hs⟩
  | stop _ _ _ hs _ => exact ⟨rfl, rfl, rfl, hs⟩

namespace InOrder

variable {w : World σ} {q r : Queue σ}

theorem world_of_running (h : InOrder host g noise w q) (hs : q.isStopped = false) :
    q.world = g.handleAll host q.handled w := by
  rw [h.world, hs]
  rfl

theorem prefix_sent (h : InOrder host g noise w q) : w.sent.toList <+: q.world.sent.toList := by
  rw [h.world]
  split
  · exact (Gateway.prefix_handleAll host g q.handled w).trans
      (Gateway.prefix_release host _)
  · exact Gateway.prefix_handleAll host g q.handled w

/-- What happens to the world goes on into the channel, with lines of the error stream. -/
theorem mixed_append (h : InOrder host g noise w q) {after : World σ}
    (hafter : q.world.sent.toList <+: after.sent.toList) {mixed : List (Origin × Event)}
    (hm : Mixed noise (eventsBetween q.world after) mixed) :
    Mixed noise (eventsBetween w after) (q.taken ++ (q.channel ++ mixed)) := by
  rw [← eventsBetween_append h.prefix_sent hafter, ← List.append_assoc]
  exact h.mixed.append hm

theorem work (h : InOrder host g noise w q) (hs : Work host g noise q r) :
    InOrder host g noise w r := by
  cases hs with
  | handle item rest mixed hw hrun hm =>
      refine ⟨?_, ?_, ?_, h.closed, fun hstop => absurd hstop (by simp [handle, hrun])⟩
      · have hfifo := h.fifo
        rw [hw] at hfifo
        simpa [handle] using hfifo
      · simp [handle, hrun, h.world_of_running hrun, Gateway.handleAll_append]
      · exact h.mixed_append (Gateway.prefix_handleInbound host g item q.world) hm
  | tell line hl hrun =>
      refine ⟨h.fifo, h.world, ?_, h.closed, h.empty⟩
      have hline : Mixed noise (eventsBetween q.world q.world) [(.engine, .log line)] := by
        rw [eventsBetween_self]
        exact .line line hl .nil
      exact h.mixed_append List.prefix_rfl hline
  | stop mixed hw hc hrun hm =>
      refine ⟨h.fifo, ?_, ?_, fun _ => hc, fun _ => hw⟩
      · simp [stop, h.world_of_running hrun]
      · exact h.mixed_append (Gateway.prefix_release host q.world) hm

theorem step (h : InOrder host g noise w q) (hs : Step host g noise q r) :
    InOrder host g noise w r := by
  cases hs with
  | send item hopen =>
      have hrun : ¬ q.isStopped = true := fun hstop => by simp [h.closed hstop] at hopen
      refine ⟨?_, h.world, h.mixed, h.closed, fun hstop => absurd hstop hrun⟩
      simp [send, ← h.fifo]
  | take e rest he =>
      refine ⟨h.fifo, h.world, ?_, h.closed, h.empty⟩
      have hevents : (q.take e rest).events = q.events := by simp [take, events, he]
      rw [hevents]
      exact h.mixed
  | close => exact ⟨h.fifo, h.world, h.mixed, fun _ => rfl, h.empty⟩
  | work _ hw => exact h.work hw

/-- But for the lines of engines, the events are those of handling one item after another. -/
theorem told (h : InOrder host g noise w q) :
    (g.handleAll host q.handled w).told = w.told ++ q.gatewayEvents := by
  have hworld : q.world.told = (g.handleAll host q.handled w).told := by
    rw [h.world]
    split
    · exact Gateway.told_release host _
    · rfl
  rw [← hworld, told_eq_append h.prefix_sent, ← h.mixed.filter_gateway]
  rfl

end InOrder

theorem inOrder_of_steps {w : World σ} {q : Queue σ} (h : Steps host g noise (start w) q) :
    InOrder host g noise w q := by
  induction h with
  | none => exact inOrder_start w
  | more q r _ hs ih => exact ih.step hs

/-- What is to be true of a queue at every moment. Nothing that was sent is lost, doubled or out of
order, and the world is that of handling one item after another. -/
structure Faithful (host : Host σ) (g : Gateway) (noise : String → Prop) (w : World σ)
    (q : Queue σ) : Prop extends InOrder host g noise w q where
  /-- The gateway's own events are those of handling one item after another. -/
  told : (g.handleAll host q.handled w).told = w.told ++ q.gatewayEvents
  /-- When the gateway has been shut down, all that was sent has been handled. -/
  finished : q.isStopped = true → q.waiting = [] ∧ q.handled = q.sent

/-- However sending, handling, taking and the error stream take turns, a queue is faithful. -/
theorem faithful_of_steps {w : World σ} {q : Queue σ} (h : Steps host g noise (start w) q) :
    Faithful host g noise w q where
  toInOrder := inOrder_of_steps h
  told := (inOrder_of_steps h).told
  finished hstop := by
    have ho := inOrder_of_steps h
    refine ⟨ho.empty hstop, ?_⟩
    rw [← ho.fifo, ho.empty hstop, List.append_nil]

/-- Two items are sent and handled, and the queue is shut down. In between a line of the error
stream comes and is taken. -/
theorem faithful_of_short_run :
    ∃ q, Steps ScriptedHost.host ⟨⟨⟨[], [], []⟩, .standard, ⟨⟨"/app"⟩⟩⟩, "1.10.0"⟩ (· = "note")
        (start (World.start .standing ⟨[], []⟩ .listened)) q ∧
      q.isStopped = true ∧ q.sent = [.line "x", .request .warmup] ∧
      Faithful ScriptedHost.host ⟨⟨⟨[], [], []⟩, .standard, ⟨⟨"/app"⟩⟩⟩, "1.10.0"⟩ (· = "note")
        (World.start .standing ⟨[], []⟩ .listened) q := by
  let Run (q : Queue ScriptedHost) : Prop :=
    Steps ScriptedHost.host ⟨⟨⟨[], [], []⟩, .standard, ⟨⟨"/app"⟩⟩⟩, "1.10.0"⟩ (· = "note")
      (start (World.start .standing ⟨[], []⟩ .listened)) q
  have told : Run _ := .more _ _ .none (.work _ _ (.tell _ "note" rfl rfl))
  have sent : Run _ := .more _ _ told (.send _ (.line "x") rfl)
  have taken : Run _ := .more _ _ sent (.take _ _ _ rfl)
  have handled : Run _ := .more _ _ taken (.work _ _ (.handle _ _ _ _ rfl rfl (.refl _)))
  have sent' : Run _ := .more _ _ handled (.send _ (.request .warmup) rfl)
  have closed : Run _ := .more _ _ sent' (.close _)
  have handled' : Run _ := .more _ _ closed (.work _ _ (.handle _ _ _ _ rfl rfl (.refl _)))
  have h : Run _ := .more _ _ handled' (.work _ _ (.stop _ _ rfl rfl rfl (.refl _)))
  exact ⟨_, h, rfl, rfl, faithful_of_steps h⟩

end Queue

end CheckWorker
