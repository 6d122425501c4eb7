import CheckWorker.Proofs.Gateway.Handling

/-!
# Answers of the gateway

Each item that comes in is answered by one block of events, and the blocks follow each other in the
order of the items. What the block of a request may be depends on the request and on the fault that
ended its handling, if there was one; a fault of any call made on the way is that very fault.
-/

namespace CheckWorker

open Act

variable {σ : Type}

namespace Gateway

/-- The blocks of events that may answer a request, given the fault that ended its handling. -/
inductive Answer : Request → Option Fault → List Event → Prop
  | initDone (version : Option String) (versions : Versions) :
      Answer (.init version) none [.initDone versions]
  | imported : Answer .warmup none [.log "engine imported"]
  | warm : Answer .warmup none [.log "engine already warm"]
  | result (check : Check) (result : CheckResult) :
      Answer (.check check) none [.checking, .result result]
  | fault (r : Request) (fault : Fault) : Answer r (some fault) [.error (faultText r fault)]
  | lateFault (check : Check) (fault : Fault) :
      Answer (.check check) (some fault) [.checking, .error (faultText (.check check) fault)]

theorem Answer.terminal_last {r : Request} {fault? : Option Fault} {block : List Event}
    (h : Answer r fault? block) : block ≠ [] ∧ ∀ e ∈ block.dropLast, e.isTerminal = false := by
  cases h <;> simp [Event.isTerminal]

theorem Answer.getLast?_of_fault {r : Request} {fault : Fault} {block : List Event}
    (h : Answer r (some fault) block) :
    block.getLast? = some (.error (faultText r fault)) := by
  cases h <;> rfl

variable (host : Host σ) (g : Gateway)

/-- The blocks of events that may answer an item which a gateway handles in a certain world. -/
inductive Block (w : World σ) (item : Inbound) : List Event → Prop
  | refused (fault : Request.Fault) (h : item.read = .error fault) :
      Block w item [.error fault.message]
  | answered (r : Request) (h : item.read = .ok r) (block : List Event)
      (ha : Answer r (g.dispatch host r w).1.fault? block) : Block w item block

theorem steady_told (events : List Event) : Steady host fun w => w.told = events where
  ask call w hw := by simpa using hw
  drop handle w hw := by simpa using hw
  engine _ _ hw := hw
  launches _ _ hw := hw
  files _ _ hw := hw

/-- Since certain events were sent, all events have gone through the channel as well. -/
def SentSince (past : List (Origin × Event)) (c : Channel) (w : World σ) : Prop :=
  ∃ events, w.sent.toList = past ++ events ∧ w.channel = c.sendAll (events.map Prod.snd)

theorem SentSince.passOn {past : List (Origin × Event)} {c : Channel} {w : World σ}
    (h : SentSince past c w) (logs : List String) : SentSince past c (w.passOn logs) := by
  obtain ⟨events, hs, hc⟩ := h
  refine ⟨events ++ logs.map fun line => (Origin.engine, Event.log line), ?_, ?_⟩
  · simp [World.passOn, hs]
  · simp [World.passOn, hc, Channel.sendAll_append, Function.comp_def]

theorem SentSince.emit {past : List (Origin × Event)} {c : Channel} {w : World σ}
    (h : SentSince past c w) (e : Event) : SentSince past c (w.emit e) := by
  obtain ⟨events, hs, hc⟩ := h
  refine ⟨events ++ [(.gateway, e)], ?_, ?_⟩
  · simp [World.emit, hs]
  · simp [World.emit, hc, Channel.sendAll_append]

theorem steady_sentSince (past : List (Origin × Event)) (c : Channel) :
    Steady host (SentSince past c) where
  ask _ _ hw := SentSince.passOn hw _
  drop _ _ hw := SentSince.passOn hw _
  engine _ _ hw := hw
  launches _ _ hw := hw
  files _ _ hw := hw

/-- The events told since there were certain others, when a request was handled to its end or to a
fault that is still to be told. -/
def ToldSince (past : List Event) (r : Request) (last : List Event) (fault? : Option Fault)
    (w : World σ) : Prop :=
  ∃ block, w.told = past ++ block ∧ Answer r fault? (block ++ last)

theorem toldSince_fault {past : List Event} {w : World σ} (h : w.told = past) (r : Request)
    (fault : Fault) :
    ToldSince past r [.error (faultText r fault)] (some fault) w :=
  ⟨[], by simpa using h, .fault r fault⟩

theorem toldSince_lateFault {past : List Event} {w : World σ} (h : w.told = past ++ [.checking])
    (check : Check) (fault : Fault) :
    ToldSince past (.check check) [.error (faultText (.check check) fault)] (some fault) w :=
  ⟨[.checking], h, .lateFault check fault⟩

theorem told_runCheck (setup : Setup) (check : Check) (past : List Event) :
    Triple (fun w : World σ => w.told = past)
      (Session.runCheck host setup check (Act.alter (World.emit · .checking)))
      (fun _ w => w.told = past ++ [.checking])
      (fun e => ToldSince past (.check check) [.error (faultText (.check check) (.error e))]
        (some (.error e)))
      (fun p => ToldSince past (.check check) [.error (faultText (.check check) (.panic p))]
        (some (.panic p))) := by
  have before := (steady_told host past).keeps
  have after := (steady_told host (past ++ [.checking])).keeps
  refine Triple.bind (Q := fun _ w => w.told = past) ?_ fun _ =>
    Triple.bind (Q := fun _ w => w.told = past ++ [.checking]) ?_ fun _ => ?_
  · exact before.warmUp.afterFault
      (fun _ _ h => toldSince_fault h _ _) (fun _ _ h => toldSince_fault h _ _)
  · exact Triple.alter _ fun w hw => by simp [hw]
  · exact (after.checkStaged setup check).afterFault
      (fun _ _ h => toldSince_lateFault h _ _) (fun _ _ h => toldSince_lateFault h _ _)

theorem told_dispatch (r : Request) (past : List Event) :
    Triple (fun w : World σ => w.told = past) (g.dispatch host r)
      (fun _ => ToldSince past r [] none)
      (fun e => ToldSince past r [.error (faultText r (.error e))] (some (.error e)))
      (fun p => ToldSince past r [.error (faultText r (.panic p))] (some (.panic p))) := by
  have before := (steady_told host past).keeps
  cases r with
  | init version =>
      refine Triple.bind (Q := fun _ w => w.told = past) ?_ fun versions => ?_
      · exact (before.init _ _).afterFault
          (fun _ _ h => toldSince_fault h _ _) (fun _ _ h => toldSince_fault h _ _)
      · exact Triple.alter _ fun w hw => ⟨[.initDone versions], by simp [hw], .initDone version _⟩
  | warmup =>
      refine Triple.bind (Q := fun _ w => w.told = past) ?_ fun imported => ?_
      · exact before.warmUp.afterFault
          (fun _ _ h => toldSince_fault h _ _) (fun _ _ h => toldSince_fault h _ _)
      · refine Triple.alter _ fun w hw => ⟨_, by simp [hw]; rfl, ?_⟩
        cases imported with
        | true => exact .imported
        | false => exact .warm
  | check check =>
      refine (told_runCheck host g.setup check past).bind fun result => ?_
      exact Triple.alter _ fun w hw => ⟨[.checking, .result result], by simp [hw], .result check _⟩

/-- What became of an item that a gateway handled in a certain world. -/
structure Answered (w : World σ) (item : Inbound) (block : List Event) : Prop where
  told : (g.handleInbound host item w).told = w.told ++ block
  shape : Block host g w item block
  ne_nil : block ≠ []
  /-- Nothing follows an event that ends the handling of a request. -/
  terminal_last : ∀ e ∈ block.dropLast, e.isTerminal = false
  /-- A fault of a call made on the way is what the last event tells of. -/
  fault : ∀ n ∈ (g.handleInbound host item w).notes.toList.drop w.notes.size,
    ∀ fault, n.fault? = some fault →
      ∃ r, item.read = .ok r ∧ block.getLast? = some (.error (faultText r fault))

theorem told_handle (r : Request) (w : World σ) :
    ∃ block, (g.handle host r w).told = w.told ++ block ∧
      Answer r (g.dispatch host r w).1.fault? block := by
  have h := told_dispatch host g r w.told
  rw [handle_eq]
  rcases hr : g.dispatch host r w with ⟨_ | _ | _, w'⟩
  case ok u =>
    obtain ⟨block, ht, ha⟩ := h.ok w u w' rfl hr
    exact ⟨block, ht, by simpa [Outcome.fault?] using ha⟩
  case failed e =>
    obtain ⟨block, ht, ha⟩ := h.failed w e w' rfl hr
    exact ⟨_, by simp [Outcome.fault?, ht], ha⟩
  case panicked p =>
    obtain ⟨block, ht, ha⟩ := h.panicked w p w' rfl hr
    exact ⟨_, by simp [Outcome.fault?, ht], ha⟩

theorem exists_answered (item : Inbound) (w : World σ) : ∃ block, Answered host g w item block := by
  cases hread : item.read with
  | error fault =>
      have hw : g.handleInbound host item w = w.emit (.error fault.message) := by
        rw [handleInbound_eq, hread]
      have hn : w.notes.toList.drop w.notes.size = [] := List.drop_of_length_le (by simp)
      refine ⟨[.error fault.message], ?_, .refused fault hread, by simp, by simp, ?_⟩
      · simp [hw]
      · simp [hw, hn]
  | ok r =>
      have hw : g.handleInbound host item w = g.handle host r w := by
        rw [handleInbound_eq, hread]
      obtain ⟨block, ht, ha⟩ := told_handle host g r w
      obtain ⟨notes, hn, hf⟩ := faultsSince_handle host g r w
      refine ⟨block, by rw [hw, ht], .answered r hread block ha, ha.terminal_last.1,
        ha.terminal_last.2, fun n hm fault hs => ⟨r, hread, ?_⟩⟩
      have hm' : n ∈ notes := by simpa [hw, hn] using hm
      rw [hf n hm' fault hs] at ha
      exact ha.getLast?_of_fault

theorem exists_blocks (items : List Inbound) (w : World σ) :
    ∃ blocks : List (List Event),
      (g.handleAll host items w).told = w.told ++ blocks.flatten ∧
      blocks.length = items.length ∧
      ∀ i item block, items[i]? = some item → blocks[i]? = some block →
        Answered host g (g.handleAll host (items.take i) w) item block := by
  induction items generalizing w with
  | nil => exact ⟨[], by simp, rfl, by simp⟩
  | cons item items ih =>
      obtain ⟨block, hb⟩ := exists_answered host g item w
      obtain ⟨blocks, ht, hl, ha⟩ := ih (g.handleInbound host item w)
      refine ⟨block :: blocks, by simp [ht, hb.told], by simp [hl], fun i other b hi hbi => ?_⟩
      cases i with
      | zero =>
          cases hi
          cases hbi
          exact hb
      | succ i => exact ha i other b hi hbi

/-- What is sent during a run goes through the channel in one order. The events of the gateway among
it are the blocks of the items that came in, in the order of the items. -/
theorem events_handleAll (items : List Inbound) (w : World σ) :
    ∃ (events : List (Origin × Event)) (blocks : List (List Event)),
      (g.handleAll host items w).sent.toList = w.sent.toList ++ events ∧
      (g.handleAll host items w).channel = w.channel.sendAll (events.map Prod.snd) ∧
      (events.filter (·.1 == .gateway)).map Prod.snd = blocks.flatten ∧
      blocks.length = items.length ∧
      ∀ i item block, items[i]? = some item → blocks[i]? = some block →
        Answered host g (g.handleAll host (items.take i) w) item block := by
  have hstart : SentSince w.sent.toList w.channel w := ⟨[], by simp, by simp⟩
  have hkind := (steady_sentSince host w.sent.toList w.channel).keeps
  obtain ⟨events, hs, hc⟩ := keeps_handleAll
    (hkind.dispatch g fun e => Keeps.alter fun _ hw => SentSince.emit hw e)
    (fun e _ hw => SentSince.emit hw e) items hstart
  obtain ⟨blocks, ht, hl, ha⟩ := exists_blocks host g items w
  refine ⟨events, blocks, hs, hc, ?_, hl, ha⟩
  have htold : (g.handleAll host items w).told =
      w.told ++ (events.filter (·.1 == .gateway)).map Prod.snd := by
    simp [World.told, hs]
  exact List.append_cancel_left (htold.symm.trans ht)

end Gateway

end CheckWorker
