import CheckWorker.Proofs.Programs.Record
import CheckWorker.Proofs.Session.Initialization
import CheckWorker.Proofs.Shim.PassingOn
import CheckWorker.Proofs.Shim.Requests
import CheckWorker.Uv.Host

/-!
# Conversations with the shim

The engine is imported and run by calls that are made one after the other. As long as the shim takes
its input, each call writes its request, one line, and has its reply from what is unread then. Once
the shim takes no more input, all calls that follow fail alike and nothing more is written.
-/

namespace CheckWorker

/-- What comes of calls that are made of a host one after the other. -/
structure Dialogue (σ : Type) where
  exchanges : List Exchange
  state : σ
  files : FileTree

def Host.answerAll {σ : Type} (host : Host σ) : List Call → σ → FileTree → Dialogue σ
  | [], state, files => ⟨[], state, files⟩
  | call :: calls, state, files =>
      let reply := host.answer call state files
      let rest := host.answerAll calls reply.state reply.files
      { rest with exchanges := ⟨call, reply.outcome⟩ :: rest.exchanges }

namespace Shim.Request

/-- The call that makes a request of an engine. -/
def call (handle : Handle) : Request → Call
  | .importEntry => .importEntry handle
  | .run args => .run handle args

/-- How the call for a request ends when the reply to it was read, or could not be. -/
def ended (handle : Handle) : Request → Except Trouble Reply → Exchange
  | .importEntry, reply => ⟨.importEntry handle, ShimEngine.importOutcome reply⟩
  | .run args, reply => ⟨.run handle args, ShimEngine.runOutcome reply⟩

end Shim.Request

namespace ShimEngine

/-- The replies that are read while the shim writes frames, one reply after each frame. -/
def replies (e : ShimEngine) : List Frame → List (Except Trouble Shim.Reply)
  | [] => []
  | frame :: frames =>
      (e.absorb frame).1.readReply.1 :: (e.absorb frame).1.readReply.2.replies frames

end ShimEngine

namespace UvHost

variable {π : Type} {programs : Programs π} {settings : UvSettings} {env : Environment}
  {handle : Handle}

/-- The engine of a launch runs and takes its input. -/
def takesInput (handle : Handle) (s : UvHost π) : Bool :=
  s.engine.any fun e => e.handle == handle && e.takesInput

theorem takesInput_of_engine {s : UvHost π} {e : ShimEngine} (hengine : s.engine = some e)
    (hhandle : e.handle = handle) : s.takesInput handle = e.takesInput := by
  simp [takesInput, hengine, hhandle]

theorem exists_engine_of_takesInput {s : UvHost π} (h : s.takesInput handle = true) :
    ∃ e, s.engine = some e ∧ e.handle = handle ∧ e.takesInput = true := by
  obtain ⟨e, hengine, he⟩ := (Option.any_eq_true _ _).mp h
  obtain ⟨hhandle, htakes⟩ := Bool.and_eq_true_iff.mp he
  exact ⟨e, hengine, eq_of_beq hhandle, htakes⟩

/-! ## One call -/

/-- Nothing is done for a request to a shim that takes no input. -/
theorem exchange_late {s : UvHost π} (h : s.takesInput handle = false) (r : Shim.Request)
    (files : FileTree) : exchange programs handle r s files =
      { outcome := .ok (.error ShimEngine.closedInput), state := s, files } := by
  rw [exchange]
  cases hengine : s.engine with
  | none => rfl
  | some e =>
      by_cases hhandle : e.handle = handle
      · have htakes : e.takesInput = false := by rwa [takesInput_of_engine hengine hhandle] at h
        simp only [Option.filter_some, hhandle, beq_self_eq_true, if_true, ShimEngine.exchange,
          htakes, Bool.not_false]
        rw [← hengine]
      · simp only [Option.filter_some, beq_eq_false_iff_ne.mpr hhandle, Bool.false_eq_true,
          if_false]

/-- A request that the shim takes is written to it, and the reply is read after what the shim writes
then. -/
theorem exchange_taken {s : UvHost π} {e : ShimEngine} (hengine : s.engine = some e)
    (hhandle : e.handle = handle) (htakes : e.takesInput = true) (r : Shim.Request)
    (files : FileTree) : exchange programs handle r s files =
      { outcome := .ok (e.absorb (programs.feed handle r.encode s.programs).1).1.readReply.1
        state := { s with
          programs := (programs.feed handle r.encode s.programs).2
          engine := some (e.absorb (programs.feed handle r.encode s.programs).1).1.readReply.2 }
        files
        logs := (e.absorb (programs.feed handle r.encode s.programs).1).2 } := by
  simp only [exchange, hengine, Option.filter_some, hhandle, beq_self_eq_true, if_true,
    ShimEngine.exchange, htakes, Bool.not_true, Bool.false_eq_true, if_false]

theorem answer_call (settings : UvSettings) (env : Environment) {s s' : UvHost π}
    {r : Shim.Request} {files files' : FileTree} {reply : Except Trouble Shim.Reply}
    {logs : List String}
    (h : exchange programs handle r s files =
      { outcome := .ok reply, state := s', files := files', logs }) :
    let answer := (host programs settings env).answer (r.call handle) s files
    (⟨r.call handle, answer.outcome⟩ : Exchange) = r.ended handle reply ∧ answer.state = s' ∧
      answer.files = files' := by
  cases r with
  | importEntry =>
      have hanswer : (host programs settings env).answer (.importEntry handle) s files =
          Job.goOn (exchange programs handle .importEntry s files)
            fun reply => Job.close (ShimEngine.importOutcome reply) := rfl
      simp only [Shim.Request.call, hanswer, h]
      exact ⟨rfl, rfl, rfl⟩
  | run args =>
      have hanswer : (host programs settings env).answer (.run handle args) s files =
          Job.goOn (exchange programs handle (.run args) s files)
            fun reply => Job.close (ShimEngine.runOutcome reply) := rfl
      simp only [Shim.Request.call, hanswer, h]
      exact ⟨rfl, rfl, rfl⟩

/-- What comes of the calls for some requests. -/
def converse (programs : Programs π) (settings : UvSettings) (env : Environment) (handle : Handle)
    (requests : List Shim.Request) (s : UvHost π) (files : FileTree) : Dialogue (UvHost π) :=
  (host programs settings env).answerAll (requests.map (Shim.Request.call handle)) s files

theorem converse_cons {s s' : UvHost π} {r : Shim.Request} {files files' : FileTree}
    {reply : Except Trouble Shim.Reply} {logs : List String}
    (h : exchange programs handle r s files =
      { outcome := .ok reply, state := s', files := files', logs }) (requests : List Shim.Request) :
    converse programs settings env handle (r :: requests) s files =
      let rest := converse programs settings env handle requests s' files'
      { rest with exchanges := r.ended handle reply :: rest.exchanges } := by
  obtain ⟨houtcome, hstate, hfiles⟩ := answer_call settings env h
  simp only [converse, List.map_cons, Host.answerAll]
  rw [houtcome, hstate, hfiles]

/-- Once the shim takes no more input, nothing changes any more. -/
theorem converse_late {s : UvHost π} (h : s.takesInput handle = false)
    (requests : List Shim.Request) (files : FileTree) :
    converse programs settings env handle requests s files =
      ⟨requests.map fun r => r.ended handle (.error ShimEngine.closedInput), s, files⟩ := by
  induction requests with
  | nil => rfl
  | cons r requests ih => rw [converse_cons (exchange_late h r files), ih, List.map_cons]

/-! ## All calls -/

/-- What is known of a conversation in which some requests were fed to the shim, which wrote a frame
after each, and the others came too late. -/
structure Conversed (programs : Programs π) (settings : UvSettings) (env : Environment)
    (handle : Handle) (requests : List Shim.Request) (s : UvHost (Recorded π)) (files : FileTree)
    (fed : List (Shim.Request × Frame)) (late : List Shim.Request) : Prop where
  requests_eq : requests = fed.map Prod.fst ++ late
  deeds_eq : (converse programs.recording settings env handle requests s
    files).state.programs.deeds =
      s.programs.deeds ++ fed.map fun x => .fed handle x.1.encode x.2
  late_closed : late ≠ [] → (converse programs.recording settings env handle requests s
    files).state.takesInput handle = false
  late_failed : (converse programs.recording settings env handle requests s files).exchanges.drop
    fed.length = late.map fun r => r.ended handle (.error ShimEngine.closedInput)
  heard : ∀ e, s.engine = some e → e.handle = handle →
    (converse programs.recording settings env handle requests s files).exchanges.take fed.length =
      List.zipWith (Shim.Request.ended handle) (fed.map Prod.fst) (e.replies (fed.map Prod.snd))
  takes : (converse programs.recording settings env handle requests s
    files).state.takesInput handle =
      (s.takesInput handle && (fed.map Prod.snd).all fun frame => !frame.closesInput)

section

variable {requests : List Shim.Request} {s : UvHost (Recorded π)} {files : FileTree}

theorem conversed_nil (s : UvHost (Recorded π)) (files : FileTree) :
    Conversed programs settings env handle [] s files [] [] where
  requests_eq := rfl
  deeds_eq := (List.append_nil _).symm
  late_closed h := absurd rfl h
  late_failed := rfl
  heard _ _ _ := rfl
  takes := (Bool.and_true _).symm

theorem conversed_late (h : s.takesInput handle = false) (requests : List Shim.Request)
    (files : FileTree) : Conversed programs settings env handle requests s files [] requests where
  requests_eq := rfl
  deeds_eq := by
    rw [converse_late h, List.map_nil, List.append_nil]
  late_closed _ := by
    rw [converse_late h]
    exact h
  late_failed := by
    rw [converse_late h]
    rfl
  heard _ _ _ := rfl
  takes := by
    rw [converse_late h]
    exact (Bool.and_true _).symm

/-- What the shim writes when a request is fed to it. -/
def frameOf (programs : Programs π) (s : UvHost (Recorded π)) (e : ShimEngine)
    (r : Shim.Request) : Frame :=
  (programs.feed e.handle r.encode s.programs.programs).1

/-- The host after a request was fed to its engine. -/
def afterFeeding (programs : Programs π) (s : UvHost (Recorded π)) (e : ShimEngine)
    (r : Shim.Request) : UvHost (Recorded π) :=
  { s with
    programs := (programs.recording.feed e.handle r.encode s.programs).2
    engine := some (e.absorb (frameOf programs s e r)).1.readReply.2 }

theorem deeds_afterFeeding (e : ShimEngine) (r : Shim.Request) :
    (afterFeeding programs s e r).programs.deeds =
      s.programs.deeds ++ [.fed e.handle r.encode (frameOf programs s e r)] := rfl

theorem Conversed.feed {e : ShimEngine} {r : Shim.Request} {fed : List (Shim.Request × Frame)}
    {late : List Shim.Request} (hengine : s.engine = some e) (htakes : e.takesInput = true)
    (h : Conversed programs settings env e.handle requests (afterFeeding programs s e r) files fed
      late) :
    Conversed programs settings env e.handle (r :: requests) s files
      ((r, frameOf programs s e r) :: fed) late := by
  have hcons : converse programs.recording settings env e.handle (r :: requests) s files =
      let rest := converse programs.recording settings env e.handle requests
        (afterFeeding programs s e r) files
      { rest with
        exchanges := r.ended e.handle (e.absorb (frameOf programs s e r)).1.readReply.1 ::
          rest.exchanges } :=
    converse_cons (exchange_taken hengine rfl htakes r files) requests
  have hafter : (afterFeeding programs s e r).engine =
      some (e.absorb (frameOf programs s e r)).1.readReply.2 := rfl
  have hhandle : (e.absorb (frameOf programs s e r)).1.readReply.2.handle = e.handle := by
    rw [ShimEngine.readReply_snd]
    rfl
  constructor
  case requests_eq =>
    rw [h.requests_eq]
    rfl
  case deeds_eq =>
    rw [hcons]
    refine h.deeds_eq.trans ?_
    rw [deeds_afterFeeding, List.append_assoc]
    rfl
  case late_closed =>
    rw [hcons]
    exact h.late_closed
  case late_failed =>
    rw [hcons]
    exact h.late_failed
  case heard =>
    intro e' hengine' _
    obtain rfl : e = e' := Option.some.inj (hengine.symm.trans hengine')
    rw [hcons, List.length_cons, List.take_succ_cons, h.heard _ hafter hhandle]
    rfl
  case takes =>
    rw [hcons]
    refine h.takes.trans ?_
    rw [takesInput_of_engine hafter hhandle, takesInput_of_engine hengine rfl, List.map_cons,
      List.all_cons, ← Bool.and_assoc, ShimEngine.readReply_snd]
    rfl

/-- Requests are fed to a shim as long as it takes its input, and the others come too late. -/
theorem exists_conversed (programs : Programs π) (settings : UvSettings) (env : Environment)
    (handle : Handle) (requests : List Shim.Request) (s : UvHost (Recorded π)) (files : FileTree) :
    ∃ fed late, Conversed programs settings env handle requests s files fed late := by
  induction requests generalizing s with
  | nil => exact ⟨[], [], conversed_nil s files⟩
  | cons r requests ih =>
      cases htakes : s.takesInput handle with
      | false => exact ⟨[], r :: requests, conversed_late htakes _ files⟩
      | true =>
          obtain ⟨e, hengine, rfl, he⟩ := exists_engine_of_takesInput htakes
          obtain ⟨fed, late, hrest⟩ := ih (afterFeeding programs s e r)
          exact ⟨_, late, hrest.feed hengine he⟩

end

/-! ## What is written -/

/-- A host whose programs are on record from now on. -/
def recorded (s : UvHost π) : UvHost (Recorded π) :=
  ⟨.start s.programs, s.uv, s.engine⟩

theorem bytesTo_fed (handle : Handle) (fed : List (Shim.Request × Frame)) :
    (fed.map fun x => Deed.fed handle x.1.encode x.2).flatMap (Deed.bytesTo handle) =
      (fed.map Prod.fst).flatMap fun r => Utf8.encode r.encode.toList := by
  rw [List.flatMap_map, List.flatMap_map]
  apply List.flatMap_congr
  intro x _
  exact if_pos rfl

theorem framesFrom_fed (handle : Handle) (fed : List (Shim.Request × Frame)) :
    (fed.map fun x => Deed.fed handle x.1.encode x.2).filterMap (Deed.frameFrom? handle) =
      fed.map Prod.snd := by
  have hframe : (Deed.frameFrom? handle ∘ fun x : Shim.Request × Frame =>
      Deed.fed handle x.1.encode x.2) = some ∘ Prod.snd := by
    funext x
    exact if_pos rfl
  rw [List.filterMap_map, hframe, List.filterMap_eq_map]

theorem closesInput_eq_false_iff {frame : Frame} :
    frame.closesInput = false ↔ frame.shutsInput = false ∧ frame.exit? = none := by
  rw [Frame.closesInput, Bool.or_eq_false_iff, Option.isSome_eq_false_iff, Option.isNone_iff_eq_none]

/-- The requests that a shim has taken are what is read of the bytes that were written to it. Only a
shim that takes no more input is written nothing; one that took its input at first takes it until it
closes it in a frame. -/
structure Writes (s : UvHost (Recorded π)) (d : Dialogue (UvHost (Recorded π))) (handle : Handle)
    (requests taken late : List Shim.Request) : Prop where
  requests_eq : requests = taken ++ late
  written : Shim.Request.readStream
    (d.state.programs.deeds.flatMap (Deed.bytesTo handle)) = (some taken, [])
  takes : d.state.takesInput handle = true ↔ s.takesInput handle = true ∧
    ∀ frame ∈ d.state.programs.deeds.filterMap (Deed.frameFrom? handle),
      frame.shutsInput = false ∧ frame.exit? = none
  late_closed : late ≠ [] → d.state.takesInput handle = false
  late_failed : d.exchanges.drop taken.length =
    late.map fun r => r.ended handle (.error ShimEngine.closedInput)

/-- A request is one line, which is a JSON document of it and of nothing else; and whatever is asked
of a shim in turn, the bytes that are written to it fall apart into just these requests, up to where
it has closed its input. -/
theorem written_verbatim (programs : Programs π) (settings : UvSettings) (env : Environment)
    (handle : Handle) :
    (∀ r : Shim.Request, ∃ line, r.encode = line ++ "\n" ∧ '\n' ∉ line.toList ∧
      (∀ v, Json.Document v line.toList ↔ v = r.value) ∧ Shim.Request.decode? line = some r) ∧
    ∀ (requests : List Shim.Request) (s : UvHost π) (files : FileTree), ∃ taken late,
      Writes (recorded s)
        (converse programs.recording settings env handle requests (recorded s) files) handle
        requests taken late := by
  constructor
  · intro r
    exact ⟨r.text, r.encode_eq, r.clear_text.ne_newline, fun _ => r.document_text_iff,
      r.decode?_text⟩
  · intro requests s files
    obtain ⟨fed, late, h⟩ :=
      exists_conversed programs settings env handle requests (recorded s) files
    have hdeeds := h.deeds_eq
    rw [show (recorded s).programs.deeds = [] from rfl, List.nil_append] at hdeeds
    refine ⟨fed.map Prod.fst, late, h.requests_eq, ?_, ?_, h.late_closed, ?_⟩
    · rw [hdeeds, bytesTo_fed]
      exact Shim.Request.readStream_flatMap _
    · rw [h.takes, hdeeds, framesFrom_fed, Bool.and_eq_true, List.all_eq_true]
      simp only [Bool.not_eq_true', closesInput_eq_false_iff]
    · rw [List.length_map]
      exact h.late_failed

end UvHost

end CheckWorker
