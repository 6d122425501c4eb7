import CheckWorker.Proofs.Engine.Jobs
import CheckWorker.Proofs.Shim.Conversation
import CheckWorker.Proofs.Shim.Replies

/-!
# Replies in step with requests

A shim that writes one line before anything is asked of it and one for each request answers the
requests in turn: what comes of the request of some number hangs on the line of that number and on
no other, whatever the lines before it were. Once the lines are used up every call fails.
-/

namespace CheckWorker

namespace Shim.Request

def failed (handle : Handle) (why : String) : Request → Exchange
  | .importEntry => ⟨.importEntry handle, .failed (.importing why)⟩
  | .run args => ⟨.run handle args, .failed (.invocation why)⟩

def succeeded (handle : Handle) (reply : Reply) : Request → Exchange
  | .importEntry => ⟨.importEntry handle, .ok ()⟩
  | .run args => ⟨.run handle args,
      .ok ⟨reply.stdout.getD "", reply.stderr.getD "", reply.status.getD 0⟩⟩

/-- How the call for a request ends that a line is the answer to. -/
def answer (handle : Handle) (line : String) (r : Request) : Exchange :=
  match Reply.decode line with
  | .error t => r.failed handle t.line
  | .ok reply =>
      if reply.ok then r.succeeded handle reply
      else r.failed handle
        (reply.error.getD "engine shim reported failure without a message")

theorem ended_error (handle : Handle) (r : Request) (t : Trouble) :
    r.ended handle (.error t) = r.failed handle t.line := by
  cases r <;> rfl

theorem ended_decode (handle : Handle) (r : Request) (line : String) :
    r.ended handle (Reply.decode line) = r.answer handle line := by
  rw [answer]
  cases Reply.decode line with
  | error t => exact ended_error handle r t
  | ok reply =>
      cases hok : reply.ok with
      | true =>
          cases r <;> simp [ended, ShimEngine.importOutcome, ShimEngine.runOutcome, hok, succeeded]
      | false =>
          cases r <;> simp [ended, ShimEngine.importOutcome, ShimEngine.runOutcome, hok, failed,
            Reply.failure]

end Shim.Request

/-! ## Lines of a shim -/

namespace Shim

/-- All that is written in some frames. -/
def output (frames : List Frame) : List UInt8 :=
  frames.flatMap fun frame => frame.stdout.toList

/-- The bytes of some lines, each with its end. -/
def wire (lines : List String) : List UInt8 :=
  lines.flatMap fun line => Utf8.encode (line ++ "\n").toList

@[simp] theorem output_nil : output [] = [] := rfl

@[simp] theorem output_cons (frame : Frame) (frames : List Frame) :
    output (frame :: frames) = frame.stdout.toList ++ output frames := rfl

@[simp] theorem wire_nil : wire [] = [] := rfl

@[simp] theorem wire_cons (line : String) (lines : List String) :
    wire (line :: lines) = Utf8.encode (line ++ "\n").toList ++ wire lines := rfl

/-- Bytes that are unread and what is written in some frames are the bytes of some lines and no
more, and after each frame one more of the lines is there. -/
structure Owes (unread : List UInt8) (frames : List Frame) (lines : List String) : Prop where
  whole : unread ++ output frames <+: wire lines
  timely : ∀ n ≤ frames.length, wire (lines.take n) <+: unread ++ output (frames.take n)

/-- With the next frame the next line is there, and the others are owed still. -/
theorem Owes.next {unread : List UInt8} {frame : Frame} {frames : List Frame} {line : String}
    {lines : List String} (h : Owes unread (frame :: frames) (line :: lines)) :
    ∃ rest, unread ++ frame.stdout.toList = Utf8.encode (line ++ "\n").toList ++ rest ∧
      Owes rest frames lines := by
  have hfirst := h.timely 1 (by simp)
  simp only [List.take_succ_cons, List.take_zero, wire_cons, wire_nil, output_cons, output_nil,
    List.append_nil] at hfirst
  obtain ⟨rest, hrest⟩ := hfirst
  refine ⟨rest, hrest.symm, ?_, fun n hn => ?_⟩
  · have hwhole := h.whole
    rw [output_cons, ← List.append_assoc, ← hrest, wire_cons, List.append_assoc] at hwhole
    exact (List.prefix_append_right_inj _).mp hwhole
  · have htimely := h.timely (n + 1) (Nat.succ_le_succ hn)
    rw [List.take_succ_cons, List.take_succ_cons, output_cons, ← List.append_assoc, ← hrest,
      wire_cons, List.append_assoc] at htimely
    exact (List.prefix_append_right_inj _).mp htimely

/-- Nothing more is written once all lines are there. -/
theorem Owes.used_up {unread : List UInt8} {frame : Frame} {frames : List Frame}
    (h : Owes unread (frame :: frames) []) :
    unread ++ frame.stdout.toList = [] ∧ Owes [] frames [] := by
  have hnone := List.prefix_nil.mp h.whole
  rw [output_cons, ← List.append_assoc] at hnone
  obtain ⟨hunread, houtput⟩ := List.append_eq_nil_iff.mp hnone
  refine ⟨hunread, ?_, fun n _ => ?_⟩
  · rw [houtput]
    exact List.nil_prefix
  · rw [List.take_nil]
    exact List.nil_prefix

end Shim

/-! ## What is read -/

namespace ShimEngine

theorem firstLine_append {line : List UInt8} (h : 10 ∉ line) (rest : List UInt8) :
    firstLine (line ++ 10 :: rest) = (line ++ [10], rest) := by
  have htake : (line ++ 10 :: rest).takeWhile (· != 10) = line := by
    rw [List.takeWhile_append_of_pos fun a ha => bne_iff_ne.mpr (ne_of_mem_of_not_mem ha h)]
    simp
  simp only [firstLine, htake, List.drop_left]

theorem readReply_of_line {e : ShimEngine} {line : String} {rest : List UInt8}
    (h : e.unread = Utf8.encode (line ++ "\n").toList ++ rest) (hline : '\n' ∉ line.toList) :
    e.readReply = (Shim.Reply.decode line, { e with unread := rest }) := by
  have hencode : Utf8.encode (line ++ "\n").toList = Utf8.encode line.toList ++ [10] := by
    rw [String.toList_append, Utf8.encode_append]
    rfl
  have hfirst : firstLine e.unread = (Utf8.encode (line ++ "\n").toList, rest) := by
    rw [h, hencode, List.append_assoc]
    exact firstLine_append (Text.feed_notMem_encode hline) rest
  have hempty : (Utf8.encode (line ++ "\n").toList).isEmpty = false := by
    rw [hencode]
    simp
  simp only [readReply, hfirst, hempty, Bool.false_eq_true, if_false, Utf8.decode_encode,
    String.ofList_toList, Shim.Reply.decode_newline]

theorem readReply_of_nil {e : ShimEngine} (h : e.unread = []) :
    e.readReply = (.error (exited e.ended), { e with unread := [] }) := by
  have hfirst : firstLine e.unread = ([], []) := by
    rw [h]
    rfl
  simp only [readReply, hfirst, List.isEmpty_nil, if_true]

/-- The replies that are read are those that the lines are, one for each frame, and once the lines
are used up there is none. -/
theorem getElem?_replies {e : ShimEngine} {frames : List Frame} {lines : List String}
    (h : Shim.Owes e.unread frames lines) (hlines : ∀ line ∈ lines, '\n' ∉ line.toList) {k : Nat}
    (hk : k < frames.length) : ∃ status, (e.replies frames)[k]? =
      some ((lines[k]?.map Shim.Reply.decode).getD (.error (exited status))) := by
  induction frames generalizing e lines k with
  | nil => exact absurd hk (Nat.not_lt_zero k)
  | cons frame frames ih =>
      cases lines with
      | nil =>
          obtain ⟨hunread, howes⟩ := h.used_up
          have hread : (e.absorb frame).1.readReply =
              (.error (exited (e.absorb frame).1.ended), _) := readReply_of_nil hunread
          rw [replies, hread]
          cases k with
          | zero => exact ⟨_, rfl⟩
          | succ k =>
              rw [List.getElem?_cons_succ]
              exact ih howes hlines (Nat.lt_of_succ_lt_succ hk)
      | cons line lines =>
          obtain ⟨rest, hunread, howes⟩ := h.next
          obtain ⟨hline, hlines⟩ := List.forall_mem_cons.mp hlines
          have hread : (e.absorb frame).1.readReply = (Shim.Reply.decode line, _) :=
            readReply_of_line hunread hline
          rw [replies, hread]
          cases k with
          | zero =>
              refine ⟨none, ?_⟩
              rw [List.getElem?_cons_zero, List.getElem?_cons_zero, Option.map_some,
                Option.getD_some]
          | succ k =>
              rw [List.getElem?_cons_succ, List.getElem?_cons_succ]
              exact ih howes hlines (Nat.lt_of_succ_lt_succ hk)

end ShimEngine

/-! ## A launch -/

/-- Greeting a shim takes its first line, whatever the line is. -/
theorem ShimEngine.greet_snd (e : ShimEngine) : e.greet.2 = e.readReply.2 := by
  rw [greet]
  rcases e.readReply with ⟨reply | hello, e'⟩
  · rfl
  · dsimp only
    split <;> rfl

namespace UvHost

variable {π : Type} {programs : Programs π} {settings : UvSettings} {env : Environment}
  {handle : Handle}

/-- The engine of a launch, after its first line was read. -/
def greeted (handle : Handle) (hello : Frame) : ShimEngine :=
  ((ShimEngine.start handle).absorb hello).1.readReply.2

theorem greeted_eq (handle : Handle) (hello : Frame) :
    greeted handle hello =
      { ((ShimEngine.start handle).absorb hello).1 with
        unread := (ShimEngine.firstLine hello.stdout.toList).2 } :=
  ShimEngine.readReply_snd _

theorem handle_greeted (handle : Handle) (hello : Frame) :
    (greeted handle hello).handle = handle := by
  rw [greeted_eq]
  rfl

theorem takesInput_greeted (handle : Handle) (hello : Frame) :
    (greeted handle hello).takesInput = !hello.closesInput := by
  rw [greeted_eq]
  exact Bool.true_and _

/-- A host that has launched an engine, with the launch on record. -/
structure Launched (settings : UvSettings) (spec : EngineSpec) (handle : Handle)
    (s s' : UvHost (Recorded π)) (frame : Frame) : Prop where
  engine_eq : s'.engine = some (greeted handle frame)
  deeds_eq : ∃ shim : FilePath, s'.programs.deeds = s.programs.deeds ++
    [.started handle (interpreter settings.runtimeDir) ["-u", shim.text, spec.module] (.ok frame)]

theorem exists_launched_of_startShim {spec : EngineSpec} {shim : FilePath}
    {s : UvHost (Recorded π)} {files : FileTree}
    (h : (startShim programs.recording handle (interpreter settings.runtimeDir) shim spec.module s
      files).outcome = .ok ()) :
    ∃ frame, Launched settings spec handle s (startShim programs.recording handle
      (interpreter settings.runtimeDir) shim spec.module s files).state frame := by
  have hdeeds (frame : Frame) (hstarted : (programs.recording.tryStart handle
      (interpreter settings.runtimeDir) ["-u", shim.text, spec.module] s.programs files).1 =
      .ok frame) := Programs.deeds_tryStart programs hstarted
  rw [startShim] at h ⊢
  rcases htry : programs.recording.tryStart handle (interpreter settings.runtimeDir)
    ["-u", shim.text, spec.module] s.programs files with ⟨started, p, files'⟩
  rw [htry] at h hdeeds
  cases started with
  | error e => cases h
  | ok frame =>
      have hgreet := ShimEngine.greet_snd ((ShimEngine.start handle).absorb frame).1
      rcases hgreeting : ((ShimEngine.start handle).absorb frame).1.greet with ⟨greeting, engine⟩
      simp only [hgreeting] at h hgreet ⊢
      cases greeting with
      | error t => cases h
      | ok _ => exact ⟨frame, congrArg some hgreet, shim, hdeeds frame rfl⟩

theorem exists_launched {spec : EngineSpec} {s : UvHost (Recorded π)} {files : FileTree}
    (h : (launch programs.recording settings spec handle s files).outcome = .ok ()) :
    ∃ frame, Launched settings spec handle s
      (launch programs.recording settings spec handle s files).state frame := by
  obtain ⟨made, hmade, h, hstate⟩ := Job.exists_of_bind_ok h
  obtain ⟨shim, hshim, h, hstate'⟩ := Job.exists_of_bind_ok h
  cases made with
  | error t => cases hshim
  | ok path =>
      obtain ⟨frame, hframe⟩ := exists_launched_of_startShim h
      have hwhole : (launch programs.recording settings spec handle s files).state = _ :=
        hstate.trans hstate'
      rw [hwhole]
      exact ⟨frame, hframe⟩

/-! ## The whole conversation -/

/-- What a shim writes in its frames is some lines and no more, one of them with each frame or
before, and it takes requests as long as not all of them are there. -/
structure Carries (frames : List Frame) (lines : List String) : Prop where
  ended : ∀ line ∈ lines, '\n' ∉ line.toList
  whole : Shim.output frames <+: Shim.wire lines
  timely : ∀ n ≤ frames.length,
    Shim.wire (lines.take n) <+: Shim.output (frames.take n)
  takes : ∀ frame ∈ frames.take (lines.length - 1), frame.closesInput = false

/-- What is told of a shim that has no line left: that it has closed its output, or its input. -/
inductive Silence : String → Prop
  | exited (status : String) :
      Silence ("Engine shim exited unexpectedly (status: " ++ status ++ ")")
  | closed : Silence "Failed to write to engine shim: Broken pipe (os error 32)"

/-- What is known of the calls for some requests to which a shim has some lines as answers. -/
structure InStep (handle : Handle) (requests : List Shim.Request) (lines : List String)
    (exchanges : List Exchange) : Prop where
  length_eq : exchanges.length = requests.length
  answered : ∀ (k : Nat) (r : Shim.Request) (line : String), requests[k]? = some r →
    lines[k]? = some line → exchanges[k]? = some (r.answer handle line)
  used_up : ∀ (k : Nat) (r : Shim.Request), requests[k]? = some r → lines.length ≤ k →
    ∃ why, Silence why ∧ exchanges[k]? = some (r.failed handle why)

theorem length_answerAll {σ : Type} (host : Host σ) (calls : List Call) (s : σ) (files : FileTree) :
    (host.answerAll calls s files).exchanges.length = calls.length := by
  induction calls generalizing s files with
  | nil => rfl
  | cons call calls ih => rw [Host.answerAll, List.length_cons, ih, List.length_cons]

section

variable {requests : List Shim.Request} {s : UvHost (Recorded π)} {files : FileTree}
  {fed : List (Shim.Request × Frame)} {late : List Shim.Request} {hello : Frame}
  {lines : List String} {first : String}

/-- What the shim wrote in a conversation after its launch. -/
theorem frames_eq {spec : EngineSpec} {s₀ : UvHost (Recorded π)}
    (hlaunch : Launched settings spec handle s₀ s hello) (hnone : s₀.programs.deeds = [])
    (h : Conversed programs settings env handle requests s files fed late) :
    (converse programs.recording settings env handle requests s
      files).state.programs.deeds.filterMap (Deed.frameFrom? handle) =
        hello :: fed.map Prod.snd := by
  obtain ⟨shim, hdeeds⟩ := hlaunch.deeds_eq
  have hstarted : Deed.frameFrom? handle (.started handle (interpreter settings.runtimeDir)
      ["-u", shim.text, spec.module] (.ok hello)) = some hello := if_pos rfl
  rw [h.deeds_eq, hdeeds, hnone, List.nil_append, List.singleton_append,
    List.filterMap_cons_some hstarted, framesFrom_fed]

/-- What the shim has not taken came after all lines were there. -/
theorem length_le_of_late {spec : EngineSpec} {s₀ : UvHost (Recorded π)}
    (hlaunch : Launched settings spec handle s₀ s hello)
    (h : Conversed programs settings env handle requests s files fed late)
    (hcarries : Carries (hello :: fed.map Prod.snd) (first :: lines)) (hlate : late ≠ []) :
    lines.length ≤ fed.length := by
  by_contra hlt
  have hall : (hello :: fed.map Prod.snd).take lines.length = hello :: fed.map Prod.snd := by
    apply List.take_of_length_le
    rw [List.length_cons, List.length_map]
    omega
  have htakes := hcarries.takes
  rw [List.length_cons, Nat.add_sub_cancel, hall] at htakes
  obtain ⟨hhello, hfed⟩ := List.forall_mem_cons.mp htakes
  have hopen : ((fed.map Prod.snd).all fun frame => !frame.closesInput) = true := by
    rw [List.all_eq_true]
    intro frame hframe
    rw [hfed frame hframe, Bool.not_false]
  have hclosed := h.late_closed hlate
  rw [h.takes, takesInput_of_engine hlaunch.engine_eq (handle_greeted handle hello),
    takesInput_greeted, hhello, hopen] at hclosed
  cases hclosed

theorem getElem?_replies_greeted (hcarries : Carries (hello :: fed.map Prod.snd) (first :: lines))
    {k : Nat} (hk : k < fed.length) :
    ∃ status, ((greeted handle hello).replies (fed.map Prod.snd))[k]? =
      some ((lines[k]?.map Shim.Reply.decode).getD (.error (ShimEngine.exited status))) := by
  have howes : Shim.Owes (ShimEngine.start handle).unread (hello :: fed.map Prod.snd)
      (first :: lines) := ⟨hcarries.whole, hcarries.timely⟩
  have hlength : k + 1 < (hello :: fed.map Prod.snd).length := by
    rw [List.length_cons, List.length_map]
    exact Nat.succ_lt_succ hk
  have hreplies := ShimEngine.getElem?_replies howes hcarries.ended hlength
  rwa [ShimEngine.replies, List.getElem?_cons_succ, List.getElem?_cons_succ] at hreplies

/-- A request that was fed to the shim is answered by the line of its own number. -/
theorem getElem?_of_fed {spec : EngineSpec} {s₀ : UvHost (Recorded π)}
    (hlaunch : Launched settings spec handle s₀ s hello)
    (h : Conversed programs settings env handle requests s files fed late)
    (hcarries : Carries (hello :: fed.map Prod.snd) (first :: lines)) {k : Nat}
    (hk : k < fed.length) {r : Shim.Request} (hr : requests[k]? = some r) :
    ∃ status, (converse programs.recording settings env handle requests s files).exchanges[k]? =
      some (r.ended handle
        ((lines[k]?.map Shim.Reply.decode).getD (.error (ShimEngine.exited status)))) := by
  have hfed : (fed.map Prod.fst)[k]? = some r := by
    rwa [h.requests_eq, List.getElem?_append_left (by rwa [List.length_map])] at hr
  have hheard := h.heard _ hlaunch.engine_eq (handle_greeted handle hello)
  obtain ⟨status, hreply⟩ := getElem?_replies_greeted hcarries hk
  refine ⟨status, ?_⟩
  rw [← List.getElem?_take_of_lt hk, hheard, List.getElem?_zipWith, hfed, hreply]

/-- A request that came too late fails, since the shim takes no more input. -/
theorem getElem?_of_late (h : Conversed programs settings env handle requests s files fed late)
    {k : Nat} (hk : fed.length ≤ k) {r : Shim.Request} (hr : requests[k]? = some r) :
    late ≠ [] ∧
      (converse programs.recording settings env handle requests s files).exchanges[k]? =
        some (r.ended handle (.error ShimEngine.closedInput)) := by
  have hlate : late[k - fed.length]? = some r := by
    rwa [h.requests_eq, List.getElem?_append_right (by rwa [List.length_map]),
      List.length_map] at hr
  have hfailed := congrArg (fun xs => xs[k - fed.length]?) h.late_failed
  simp only [List.getElem?_drop, List.getElem?_map, hlate, Option.map_some,
    Nat.add_sub_cancel' hk] at hfailed
  refine ⟨?_, hfailed⟩
  rintro rfl
  cases hlate

theorem inStep_of_conversed {spec : EngineSpec} {s₀ : UvHost (Recorded π)}
    (hlaunch : Launched settings spec handle s₀ s hello)
    (h : Conversed programs settings env handle requests s files fed late)
    (hcarries : Carries (hello :: fed.map Prod.snd) (first :: lines)) :
    InStep handle requests lines
      (converse programs.recording settings env handle requests s files).exchanges where
  length_eq := by
    rw [converse, length_answerAll, List.length_map]
  answered k r line hr hline := by
    rcases Nat.lt_or_ge k fed.length with hk | hk
    · obtain ⟨status, hended⟩ := getElem?_of_fed hlaunch h hcarries hk hr
      rw [hended, hline, Option.map_some, Option.getD_some, Shim.Request.ended_decode]
    · have hlate := (getElem?_of_late h hk hr).1
      have hle := length_le_of_late hlaunch h hcarries hlate
      have hlt := (List.getElem?_eq_some_iff.mp hline).1
      omega
  used_up k r hr hlines := by
    rcases Nat.lt_or_ge k fed.length with hk | hk
    · obtain ⟨status, hended⟩ := getElem?_of_fed hlaunch h hcarries hk hr
      refine ⟨_, .exited (ShimEngine.statusText status), ?_⟩
      rw [hended, List.getElem?_eq_none hlines, Option.map_none, Option.getD_none,
        Shim.Request.ended_error]
      rfl
    · refine ⟨_, .closed, ?_⟩
      rw [(getElem?_of_late h hk hr).2, Shim.Request.ended_error]
      rfl

end

/-- The host with a new engine. -/
def launched (programs : Programs π) (settings : UvSettings) (env : Environment) (spec : EngineSpec)
    (handle : Handle) (s : UvHost π) (files : FileTree) : Reply (UvHost (Recorded π)) Unit :=
  (host programs.recording settings env).answer (.launch spec handle) (recorded s) files

/-- What comes of a launch and of calls for some requests after it. -/
def launchAndConverse (programs : Programs π) (settings : UvSettings) (env : Environment)
    (spec : EngineSpec) (handle : Handle) (requests : List Shim.Request) (s : UvHost π)
    (files : FileTree) : Dialogue (UvHost (Recorded π)) :=
  let reply := launched programs settings env spec handle s files
  converse programs.recording settings env handle requests reply.state reply.files

/-- Whatever lines a shim writes, one for each request, each call ends as the line of its own number
says, and all calls fail that find no line left. A line that cannot be read is quoted in the error.
Only a line in the form of JSON is read, and what is read of a document is the reply that it is. -/
theorem replies_in_step (programs : Programs π) (settings : UvSettings) (env : Environment)
    (spec : EngineSpec) (handle : Handle) (requests : List Shim.Request) (s : UvHost π)
    (files : FileTree) (hello : String) (lines : List String)
    (hlaunch : (launched programs settings env spec handle s files).outcome = .ok ())
    (hcarries : Carries ((launchAndConverse programs settings env spec handle requests s
      files).state.programs.deeds.filterMap (Deed.frameFrom? handle)) (hello :: lines)) :
    InStep handle requests lines
        (launchAndConverse programs settings env spec handle requests s files).exchanges ∧
      (∀ line t, Shim.Reply.decode line = .error t → ∃ cause,
        t.line = "Invalid engine shim reply: " ++ line.withoutBlankEnd ++ ": " ++ cause) ∧
      (∀ line reply, Shim.Reply.decode line = .ok reply →
        Json.HasForm line.withoutBlankEnd.toList) ∧
      ∀ line v reply, Json.Document v line.withoutBlankEnd.toList →
        (Shim.Reply.decode line = .ok reply ↔ Shim.Says v reply) := by
  refine ⟨?_, fun _ _ h => Shim.Reply.exists_line_of_decode_error h,
    fun _ _ h => Shim.Reply.hasForm_of_decode h, fun _ _ _ h => Shim.Reply.decode_document_iff h⟩
  obtain ⟨frame, hframe⟩ : ∃ frame, Launched settings spec handle (recorded s)
      (launched programs settings env spec handle s files).state frame := exists_launched hlaunch
  obtain ⟨fed, late, h⟩ := exists_conversed programs settings env handle requests
    (launched programs settings env spec handle s files).state
    (launched programs settings env spec handle s files).files
  have hframes := frames_eq hframe rfl h
  rw [launchAndConverse, hframes] at hcarries
  exact inStep_of_conversed hframe h hcarries

end UvHost

/-- Programs of which a shim writes some lines one after the other, whatever is asked of it. -/
def Programs.scripted : Programs (List String) where
  complete _ _ lines files := (.error .notFound, lines, files)
  start _ _ _ lines files := (.ok (lineFrame lines.head?), lines.tail, files)
  feed _ _ lines := (lineFrame lines.head?, lines.tail)
  stop _ lines := lines
where
  lineFrame : Option String → Frame
    | some line => { Frame.silent with stdout := (line ++ "\n").toUTF8 }
    | none => .silent

namespace UvHost

/-- A reply that cannot be read and one that tells of a failure cost the calls of their own number
and no other. -/
theorem scripted_replies_in_step :
    let settings : UvSettings := ⟨⟨"/home"⟩, ⟨"/runtime"⟩, none, none⟩
    let env : Environment := ⟨none, none, none, none, none, none⟩
    let hello := "\x7b\"ok\":true,\"protocol\":\"1\"\x7d"
    let lines := ["no reply", "\x7b\"ok\":false\x7d", "\x7b\"ok\":true,\"stdout\":\"x\"\x7d"]
    let requests : List Shim.Request := [.importEntry, .importEntry, .run ["a"], .run ["b"]]
    let s : UvHost (List String) := ⟨hello :: lines, none, none⟩
    let d := launchAndConverse Programs.scripted settings env .standard 0 requests s ⟨[], []⟩
    (launched Programs.scripted settings env .standard 0 s ⟨[], []⟩).outcome = .ok () ∧
      Carries (d.state.programs.deeds.filterMap (Deed.frameFrom? 0)) (hello :: lines) ∧
        InStep 0 requests lines d.exchanges := by
  intro settings env hello lines requests s
  have hrun : (launched Programs.scripted settings env .standard 0 s ⟨[], []⟩).outcome = .ok () ∧
      Carries ((launchAndConverse Programs.scripted settings env .standard 0 requests s
        ⟨[], []⟩).state.programs.deeds.filterMap (Deed.frameFrom? 0)) (hello :: lines) := by
    unfold launchAndConverse launched host
    simp only [launch]
    -- the search for a character in a text computes only as membership in its characters
    delta startShim Programs.tryStart checkCommand
    simp only [String.contains_char_eq]
    refine ⟨by decide +kernel, ?_⟩
    constructor <;> decide +kernel
  obtain ⟨hlaunch, hcarries⟩ := hrun
  have hstep := replies_in_step Programs.scripted settings env .standard 0 requests s ⟨[], []⟩ hello
    lines hlaunch hcarries
  exact ⟨hlaunch, hcarries, hstep.1⟩

end UvHost

end CheckWorker
