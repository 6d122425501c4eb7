import CheckWorker.Proofs.Queue.Order
import CheckWorker.Proofs.Transport.Reading

/-!
# Serving is handling line by line

A reader, a gateway and a writer take turns in any order. What is written in the end is what a
gateway tells that handles the lines of the input one after another, and serving does not end before
all of it is written. It does end: each step uses something up, and until the end there is a step.
-/

namespace CheckWorker

variable {σ : Type}

/-- The host passes no text on. -/
structure Host.IsSilent (host : Host σ) : Prop where
  answer : ∀ call s files, (host.answer call s files).logs = []
  drop : ∀ handle s, (host.drop handle s).2 = []

namespace Transport

variable {host : Host σ} {g : Gateway} {noise : String → Prop} {w : World σ} {text : List Char}
  {t u : Transport σ}

open Queue (InOrder Work silence)

/-! ## What is kept -/

/-- What is true of the serving of a text that began in the world `w`. -/
structure InTurn (host : Host σ) (g : Gateway) (noise : String → Prop) (w : World σ)
    (text : List Char) (t : Transport σ) : Prop where
  queue : InOrder host g noise w t.queue
  /-- What was queued and what is still to be read are the lines of the text. -/
  lines : ∃ rest, t.unread = Utf8.encode rest ∧ t.queue.sent ++ solidItems rest = solidItems text
  closed : t.queue.isClosed = true → t.unread = []
  written : t.written = writeEvents (t.queue.taken.map Prod.snd)
  flushed : t.isFlushed = true → t.queue.isStopped = true ∧ t.queue.channel = []
  ending : ∀ ending, t.ending? = some ending → ending = .ok () ∧ t.isFlushed = true

theorem inTurn_start (w : World σ) (text : List Char) :
    InTurn host g noise w text (start (Utf8.encode text) w) where
  queue := Queue.inOrder_start w
  lines := ⟨text, rfl, rfl⟩
  closed h := by cases h
  written := rfl
  flushed h := by cases h
  ending _ h := by cases h

namespace InTurn

theorem read (h : InTurn host g noise w text t) (hunread : t.unread ≠ [])
    (hopen : t.queue.isClosed = false) : InTurn host g noise w text t.read := by
  obtain ⟨rest, hrest, hlines⟩ := h.lines
  have hne : rest ≠ [] := by
    rintro rfl
    exact hunread hrest
  obtain ⟨line, behind, htake, hfirst⟩ := takeLine_encode hne
  have hread : t.read = { t with
      unread := Utf8.encode behind
      queue := queueLine t.queue (String.ofList (withoutEnd line)) } := by
    simp only [Transport.read, hrest, htake, Utf8.decode_encode]
  have hrunning : ¬ t.queue.isStopped = true := fun hstop => by
    simp [h.queue.closed hstop] at hopen
  rw [hread]
  by_cases hblank : (String.ofList (withoutEnd line)).isBlank
  · have hqueue : queueLine t.queue (String.ofList (withoutEnd line)) = t.queue := if_pos hblank
    rw [hqueue]
    refine ⟨h.queue, ⟨behind, rfl, ?_⟩, fun hc => ?_, h.written, h.flushed, h.ending⟩
    · rw [← hlines, solidItems_cons hfirst, if_pos hblank]
      rfl
    · simp [hopen] at hc
  · have hqueue : queueLine t.queue (String.ofList (withoutEnd line)) =
        t.queue.send (.line (String.ofList (withoutEnd line))) := if_neg hblank
    rw [hqueue]
    refine ⟨h.queue.step (.send _ _ hopen), ⟨behind, rfl, ?_⟩, fun hc => ?_, h.written,
      h.flushed, h.ending⟩
    · rw [← hlines, solidItems_cons hfirst, if_neg hblank]
      simp [Queue.send]
    · simp [Queue.send, hopen] at hc

theorem work (h : InTurn host g noise w text t) {q : Queue σ}
    (hw : Work host g noise t.queue q) : InTurn host g noise w text { t with queue := q } := by
  have hqueue := h.queue.work hw
  obtain ⟨hsent, htaken, hclosed, hrunning⟩ := hw.frame
  refine ⟨hqueue, ?_, ?_, ?_, ?_, h.ending⟩
  · rw [hsent]
    exact h.lines
  · rw [hclosed]
    exact h.closed
  · rw [htaken]
    exact h.written
  · intro hf
    simp [(h.flushed hf).1] at hrunning

theorem step (h : InTurn host g noise w text t) (hs : Step host g noise t u) :
    InTurn host g noise w text u := by
  cases hs with
  | read hunread hopen => exact h.read hunread hopen
  | close hunread hopen =>
      exact ⟨h.queue.step (.close _), h.lines, fun _ => hunread, h.written, h.flushed, h.ending⟩
  | work q hw => exact h.work hw
  | write e rest he hf =>
      refine ⟨h.queue.step (.take _ e rest he), h.lines, h.closed, ?_, fun hf' => ?_, h.ending⟩
      · simp [write, Queue.take, h.written, writeEvents]
      · simp [write, hf] at hf'
  | flush hchannel hstop hf =>
      refine ⟨h.queue, h.lines, h.closed, h.written, fun _ => ⟨hstop, hchannel⟩, ?_⟩
      intro ending he
      exact ⟨(h.ending ending he).1, rfl⟩
  | finish hf he =>
      refine ⟨h.queue, h.lines, h.closed, h.written, h.flushed, ?_⟩
      intro ending hend
      cases hend
      exact ⟨rfl, hf⟩

end InTurn

theorem inTurn_of_steps (h : Steps host g noise (start (Utf8.encode text) w) t) :
    InTurn host g noise w text t := by
  induction h with
  | none => exact inTurn_start w text
  | more t u _ hs ih => exact ih.step hs

/-! ## Progress -/

/-- Until serving has ended there is something that can happen next. -/
theorem exists_step (host : Host σ) (g : Gateway) (noise : String → Prop) (he : t.ending? = none) :
    ∃ u, Step host g noise t u := by
  by_cases hclosed : t.queue.isClosed = true
  · by_cases hstop : t.queue.isStopped = true
    · by_cases hf : t.isFlushed = true
      · exact ⟨_, .finish t hf he⟩
      · cases hchannel : t.queue.channel with
        | nil => exact ⟨_, .flush t hchannel hstop (by simpa using hf)⟩
        | cons e rest => exact ⟨_, .write t e rest hchannel (by simpa using hf)⟩
    · have hrunning : t.queue.isStopped = false := by simpa using hstop
      cases hw : t.queue.waiting with
      | nil => exact ⟨_, .work t _ (.stop _ _ hw hclosed hrunning (.refl _))⟩
      | cons item rest => exact ⟨_, .work t _ (.handle _ item rest _ hw hrunning (.refl _))⟩
  · have hopen : t.queue.isClosed = false := by simpa using hclosed
    by_cases hunread : t.unread = []
    · exact ⟨_, .close t hunread hopen⟩
    · exact ⟨_, .read t hunread hopen⟩

/-- What is still to be read, to be handled, and to be written. -/
def ahead (t : Transport σ) : Nat × Nat × Nat :=
  (t.unread.length + (!t.queue.isClosed).toNat,
    t.queue.waiting.length + (!t.queue.isStopped).toNat,
    t.queue.channel.length + (!t.isFlushed).toNat + t.ending?.isNone.toNat)

theorem read_unread (t : Transport σ) : t.read.unread = (takeLine t.unread).2 := by
  rcases htake : takeLine t.unread with ⟨bytes, rest⟩
  simp only [read, htake]
  split <;> rfl

theorem ahead_read (hunread : t.unread ≠ []) (hopen : t.queue.isClosed = false) :
    (ahead t.read).1 < (ahead t).1 := by
  have hlt := takeLine_length_lt hunread
  have hle := Bool.toNat_le (!t.read.queue.isClosed)
  have hone : (!t.queue.isClosed).toNat = 1 := by rw [hopen]; rfl
  simp only [ahead, read_unread, hone]
  omega

theorem ahead_step (hs : Step host g silence t u) :
    Prod.Lex (· < ·) (Prod.Lex (· < ·) (· < ·)) (ahead u) (ahead t) := by
  cases hs with
  | read hunread hopen => exact Prod.lex_def.mpr (.inl (ahead_read hunread hopen))
  | close hunread hopen => exact Prod.lex_def.mpr (.inl (by simp [ahead, Queue.close, hopen]))
  | work q hw =>
      refine Prod.lex_def.mpr (.inr ⟨?_, Prod.lex_def.mpr (.inl ?_)⟩)
      · simp [ahead, hw.frame.2.2.1]
      · cases hw with
        | handle item rest mixed hwaiting hrunning _ => simp [ahead, Queue.handle, hwaiting]
        | tell line hl _ => exact hl.elim
        | stop mixed hwaiting _ hrunning _ => simp [ahead, Queue.stop, hwaiting, hrunning]
  | write e rest he hf =>
      refine Prod.lex_def.mpr (.inr ⟨rfl, Prod.lex_def.mpr (.inr ⟨rfl, ?_⟩)⟩)
      simp [ahead, write, Queue.take, he]
  | flush hchannel hstop hf =>
      refine Prod.lex_def.mpr (.inr ⟨rfl, Prod.lex_def.mpr (.inr ⟨rfl, ?_⟩)⟩)
      simp [ahead, hf]
  | finish hf he =>
      refine Prod.lex_def.mpr (.inr ⟨rfl, Prod.lex_def.mpr (.inr ⟨rfl, ?_⟩)⟩)
      simp [ahead, he]

/-- Without an error stream nothing goes on for ever. -/
theorem wellFounded_step (host : Host σ) (g : Gateway) :
    WellFounded fun u t : Transport σ => Step host g silence t u :=
  Subrelation.wf ahead_step
    (InvImage.wf ahead (Prod.lex Nat.lt_wfRel (Prod.lex Nat.lt_wfRel Nat.lt_wfRel)).wf)

end Transport

/-! ## Silent hosts -/

namespace Host.IsSilent

variable {host : Host σ} (h : host.IsSilent)

include h

theorem sent_ask (call : Call) (w : World σ) : (Act.ask host call w).2.sent = w.sent := by
  simp [Act.ask, World.passOn, World.note, h.answer]

theorem sent_drop (handle : Handle) (w : World σ) : (w.drop host handle).sent = w.sent := by
  simp [World.drop, World.passOn, World.note, h.drop]

/-- What a session does sends nothing. -/
theorem steady_sent (P : Array (Origin × Event) → Prop) : Steady host fun w => P w.sent where
  ask call w hw := by rwa [h.sent_ask call w]
  drop handle w hw := by rwa [h.sent_drop handle w]
  engine _ _ hw := hw
  launches _ _ hw := hw
  files _ _ hw := hw

theorem sent_release (w : World σ) : (w.release host).sent = w.sent :=
  (h.steady_sent (· = w.sent)).release rfl

/-- Whatever is sent in a run is from the gateway. -/
theorem exists_events (g : Gateway) (items : List Inbound) (w : World σ) :
    ∃ events : List Event, (g.handleAll host items w).sent.toList =
      w.sent.toList ++ events.map (Origin.gateway, ·) := by
  let P (sent : Array (Origin × Event)) : Prop :=
    ∃ events : List Event, sent.toList = w.sent.toList ++ events.map (Origin.gateway, ·)
  have hemit (e : Event) (w' : World σ) (hw : P w'.sent) : P (w'.emit e).sent := by
    obtain ⟨events, hs⟩ := hw
    exact ⟨events ++ [e], by simp [World.emit, hs]⟩
  have hkind := (h.steady_sent P).keeps
  exact Gateway.keeps_handleAll (P := fun w => P w.sent)
    (hkind.dispatch g fun e => Act.Keeps.alter (hemit e)) hemit items ⟨[], by simp⟩

end Host.IsSilent

namespace Transport

variable {host : Host σ} {g : Gateway} {w : World σ} {text : List Char} {t : Transport σ}

open Queue (silence)

/-! ## The end of serving -/

theorem map_snd_gateway (events : List Event) :
    (events.map (Origin.gateway, ·)).map Prod.snd = events := by
  simp [Function.comp_def]

theorem prefix_writeEvents {xs ys : List Event} (h : xs <+: ys) :
    writeEvents xs <+: writeEvents ys := by
  obtain ⟨more, rfl⟩ := h
  exact ⟨writeEvents more, List.flatMap_append.symm⟩

/-- At every moment what was handled, with what is left of the lines, makes up the lines. -/
theorem InTurn.exists_left (h : InTurn host g noise w text t) :
    ∃ items, t.queue.handled ++ items = solidItems text := by
  obtain ⟨rest, -, hlines⟩ := h.lines
  exact ⟨t.queue.waiting ++ solidItems rest, by rw [← hlines, ← h.queue.fifo, List.append_assoc]⟩

/-- At every moment what has been written is a beginning of what is told in the end. -/
theorem InTurn.prefix_written (h : InTurn host g silence w text t) (hsilent : host.IsSilent)
    {events : List Event}
    (hevents : (g.handleAll host (solidItems text) w).sent.toList =
      w.sent.toList ++ events.map (Origin.gateway, ·)) :
    t.written <+: writeEvents events := by
  obtain ⟨items, hitems⟩ := h.exists_left
  have hworld : t.queue.world.sent = (g.handleAll host t.queue.handled w).sent := by
    rw [h.queue.world]
    split
    · exact hsilent.sent_release _
    · rfl
  have hsent : w.sent.toList ++ t.queue.events <+:
      w.sent.toList ++ events.map (Origin.gateway, ·) := by
    rw [h.queue.mixed.eq_of_silence, ← Queue.sent_eq_append h.queue.prefix_sent, ← hevents,
      ← hitems, Gateway.handleAll_append, hworld]
    exact Gateway.prefix_handleAll host g items _
  have htaken : t.queue.taken <+: events.map (Origin.gateway, ·) :=
    (List.prefix_append _ _).trans ((List.prefix_append_right_inj _).mp hsent)
  rw [h.written]
  exact prefix_writeEvents (map_snd_gateway events ▸ htaken.map Prod.snd)

/-- When serving has ended, all lines have been handled and all events have been written. -/
theorem InTurn.ended (h : InTurn host g silence w text t) (hsilent : host.IsSilent)
    {events : List Event}
    (hevents : (g.handleAll host (solidItems text) w).sent.toList =
      w.sent.toList ++ events.map (Origin.gateway, ·))
    {ending : Except Trouble Unit} (he : t.ending? = some ending) :
    ending = .ok () ∧ t.written = writeEvents events ∧ t.queue.handled = solidItems text ∧
      t.queue.world = (g.handleAll host (solidItems text) w).release host := by
  obtain ⟨hok, hflushed⟩ := h.ending ending he
  obtain ⟨hstop, hchannel⟩ := h.flushed hflushed
  have hhandled : t.queue.handled = solidItems text := by
    obtain ⟨rest, hrest, hlines⟩ := h.lines
    have hnil : rest = [] := by
      have hunread := hrest.symm.trans (h.closed (h.queue.closed hstop))
      cases rest with
      | nil => rfl
      | cons c rest => simp [Utf8.encode] at hunread
    rw [← hlines, ← h.queue.fifo, h.queue.empty hstop, hnil]
    simp [solidItems, Text.lines]
  have hworld : t.queue.world = (g.handleAll host (solidItems text) w).release host := by
    rw [h.queue.world, hstop, hhandled]
    rfl
  have htaken : t.queue.taken = events.map (Origin.gateway, ·) := by
    have hmixed := h.queue.mixed.eq_of_silence
    rw [Queue.events, hchannel, List.append_nil, hworld, Queue.eventsBetween,
      hsilent.sent_release, hevents] at hmixed
    simpa using hmixed
  refine ⟨hok, ?_, hhandled, hworld⟩
  rw [h.written, htaken, map_snd_gateway]

/-- A text is served in one go as a gateway handles its lines one after another. -/
theorem serve_encode (host : Host σ) (g : Gateway) (s : String) (w : World σ) :
    g.serve host (Utf8.encode s.toList) w =
      (.ok (), (g.handleAll host (solidItems s.toList) w).release host) := by
  have hincoming : Incoming.ofBytes (Utf8.encode s.toList) = ⟨s.solidLines, none⟩ := by
    simp [Incoming.ofBytes, Utf8.decode_encode]
  rw [Gateway.serve, hincoming]
  rfl

theorem handleAll_solidItems (host : Host σ) (g : Gateway) (s : String) (w : World σ) :
    g.handleAll host (solidItems s.toList) w =
      s.solidPieces.foldl (fun w line => g.handleLine host line w) w := by
  rw [solidItems_toList, Gateway.handleAll, List.foldl_map, String.solidLines_eq_solidPieces]
  rfl

/-- What is written for events is their texts, each on a line of its own. -/
theorem writeEvents_eq (events : List Event) :
    writeEvents events = events.flatMap fun e => (e.encode ++ "\n").toUTF8.data.toList := by
  rw [writeEvents]
  apply List.flatMap_congr
  intro e _
  rw [Event.wire, Event.wireLine, Utf8.encode_toList]

/-- What is to be true of serving a text, where `after` is the world that is left when its lines
that are not blank have been handled one after another, and `events` are the events of that. -/
structure Serves (host : Host σ) (g : Gateway) (s : String) (w after : World σ)
    (events : List Event) : Prop where
  handled : after = s.solidPieces.foldl (fun w line => g.handleLine host line w) w
  sent : after.sent.toList = w.sent.toList ++ events.map (Origin.gateway, ·)
  run : g.serve host s.toUTF8.data.toList w = (.ok (), after.release host)
  finite : WellFounded fun u t : Transport σ => Step host g silence t u
  /-- Serving goes on until it has ended. -/
  progress : ∀ t, Steps host g silence (start s.toUTF8.data.toList w) t →
    t.ending? = none → ∃ u, Step host g silence t u
  /-- Nothing else is ever written, and nothing before its turn. -/
  begun : ∀ t, Steps host g silence (start s.toUTF8.data.toList w) t →
    t.written <+: events.flatMap fun e => (e.encode ++ "\n").toUTF8.data.toList
  /-- Serving ends well, when all lines have been handled and all events have been written. -/
  ended : ∀ t, Steps host g silence (start s.toUTF8.data.toList w) t →
    ∀ ending, t.ending? = some ending → ending = .ok () ∧
      (t.written = events.flatMap fun e => (e.encode ++ "\n").toUTF8.data.toList) ∧
      t.queue.handled = s.solidPieces.map .line ∧ t.queue.world = after.release host

/-- With a silent host, however reading, handling and writing take turns, a text is served as if its
lines were handled one after another. -/
theorem exists_serves (hsilent : host.IsSilent) (g : Gateway) (s : String) (w : World σ) :
    ∃ after events, Serves host g s w after events := by
  obtain ⟨events, hevents⟩ := hsilent.exists_events g (solidItems s.toList) w
  refine ⟨g.handleAll host (solidItems s.toList) w, events, ?_⟩
  have hbytes := Utf8.encode_toList s
  constructor
  case handled => exact handleAll_solidItems host g s w
  case sent => exact hevents
  case run => rw [← hbytes, serve_encode]
  case finite => exact wellFounded_step host g
  case progress => exact fun t _ he => exists_step host g silence he
  case begun =>
    intro t ht
    rw [← hbytes] at ht
    rw [← writeEvents_eq]
    exact (inTurn_of_steps ht).prefix_written hsilent hevents
  case ended =>
    intro t ht ending he
    rw [← hbytes] at ht
    rw [← writeEvents_eq, ← String.solidLines_eq_solidPieces, ← solidItems_toList]
    exact (inTurn_of_steps ht).ended hsilent hevents he

theorem isSilent_scriptedHost : ScriptedHost.host.IsSilent where
  answer call s files := by cases call <;> rfl
  drop handle s := rfl

/-- A line that ends like those of other systems, a blank one, and one that nothing ends. -/
theorem exists_serves_three_lines :
    ScriptedHost.host.IsSilent ∧ "x\r\n \ny".solidPieces = ["x", "y"] ∧
      ∃ after events, Serves ScriptedHost.host
        ⟨⟨⟨[], [], []⟩, .standard, ⟨⟨"/app"⟩⟩⟩, "1.10.0"⟩ "x\r\n \ny"
        (World.start .standing ⟨[], []⟩ .listened) after events :=
  ⟨isSilent_scriptedHost, by decide, exists_serves isSilent_scriptedHost _ _ _⟩

end Transport

end CheckWorker
