import CheckWorker.Proofs.Json.Accepting
import CheckWorker.Proofs.Message.Grammar
import CheckWorker.Shim.Protocol

/-!
# The grammar of replies

Which documents are replies of the shim, told by the value that a document spells. A reply is an
object that says whether all went well and gives each other part at most once, or an array of the
parts in order, of which the last may be left out. What is read of a line that spells a document is
just what these relations say; a line of which nothing can be read is quoted in the error.
-/

namespace CheckWorker.Shim

open Json
open CheckWorker.Request (MaybeText optional?_maybe_text_iff)

/-- What may be given for a status that may be left out: nothing, null or an integer in range. -/
inductive MaybeStatus : List Value → Option Int32 → Prop
  | absent : MaybeStatus [] none
  | null : MaybeStatus [.null] none
  | whole (n : Int32) : MaybeStatus [.number (.whole n.toInt)] (some n)

/-- What may be given for each part of a reply. -/
structure Parts (ok error protocol stdout stderr status : List Value) (reply : Reply) : Prop where
  ok : ok = [.boolean reply.ok]
  error : MaybeText error reply.error
  protocol : MaybeText protocol reply.protocol
  stdout : MaybeText stdout reply.stdout
  stderr : MaybeText stderr reply.stderr
  status : MaybeStatus status reply.status

/-- A value is a reply: an object gives its parts by name, an array in order. -/
inductive Says : Value → Reply → Prop
  | object {entries : List (String × Value)} {reply : Reply} :
      Parts (given ["ok"] entries) (given ["error"] entries) (given ["protocol"] entries)
        (given ["stdout"] entries) (given ["stderr"] entries) (given ["status"] entries) reply →
      Says (.object entries) reply
  | array {v : Value} {more : List Value} {reply : Reply} :
      Parts [v] (more.take 1) ((more.drop 1).take 1) ((more.drop 2).take 1) ((more.drop 3).take 1)
        (more.drop 4) reply → Says (.array (v :: more)) reply

namespace Reply

section

variable {origin : Origin} {vs : List Value}

theorem required?_flag_iff {b : Bool} :
    required? origin .flag vs = some b ↔ vs = [.boolean b] := by
  constructor
  · intro h
    match vs with
    | [] => cases h
    | [v] =>
        cases v with
        | boolean b' =>
            cases h
            rfl
        | _ => cases h
    | _ :: _ :: _ => cases h
  · rintro rfl
    rfl

theorem signed32?_eq_some_iff {k : Int} {n : Int32} :
    Width.signed32? k = some n ↔ k = n.toInt := by
  constructor
  · intro h
    obtain ⟨⟨hlow, hhigh⟩, hn⟩ := Option.ite_none_right_eq_some.mp h
    rw [← Option.some.inj hn]
    exact (Int32.toInt_ofInt_of_le hlow hhigh).symm
  · rintro rfl
    exact Width.signed32?_toInt n

theorem ofValue_whole_iff {v : Value} {n : Int32} :
    (Shape.ofValue origin (.whole .i32) v).toOption = some n ↔ v = .number (.whole n.toInt) := by
  constructor
  · intro h
    cases v with
    | number m =>
        cases m with
        | whole k =>
            have hread : (Width.ofNumber .i32 (.whole k)).toOption = Width.signed32? k := by
              simp only [Width.ofNumber, Width.ofInt?]
              cases Width.signed32? k <;> rfl
            rw [signed32?_eq_some_iff.mp (hread.symm.trans h)]
        | double x => cases h
    | _ => cases h
  · rintro rfl
    have hn : Width.ofNumber .i32 (.whole n.toInt) = .ok n := by
      simp only [Width.ofNumber, Width.ofInt?, Width.signed32?_toInt]
    exact toOption_eq_some_iff.mpr hn

theorem optional?_maybe_whole_iff {n : Option Int32} :
    (∃ d, optional? origin (.maybe (.whole .i32)) vs = some d ∧ Option.join d = n) ↔
      MaybeStatus vs n := by
  have hnumber (m : Number) : optional? origin (.maybe (.whole .i32)) [.number m] =
      ((Shape.ofValue origin (.whole .i32) (.number m)).toOption.map some).map some :=
    congrArg (Option.map some) (toOption_map some _)
  constructor
  · rintro ⟨d, h, rfl⟩
    match vs with
    | [] =>
        cases h
        exact .absent
    | [.null] =>
        cases h
        exact .null
    | [.number m] =>
        rw [hnumber, Option.map_map] at h
        obtain ⟨status, hstatus, rfl⟩ := Option.map_eq_some_iff.mp h
        rw [ofValue_whole_iff.mp hstatus]
        exact .whole status
    | [.text _] => cases h
    | [.boolean _] => cases h
    | [.array _] => cases h
    | [.object _] => cases h
    | _ :: _ :: _ => cases h
  · intro h
    cases h with
    | absent => exact ⟨none, rfl, rfl⟩
    | null => exact ⟨some none, rfl, rfl⟩
    | whole status =>
        refine ⟨some (some status), ?_, rfl⟩
        rw [hnumber, ofValue_whole_iff.mpr rfl]
        rfl

end

/-- What is read of the parts of a reply, each in its own place. -/
structure Reads (origin : Origin) (ok error protocol stdout stderr status : List Value)
    (d : shape.Data) : Prop where
  ok_eq : ok = [.boolean d.1]
  error_eq : optional? origin (.maybe .text) error = some d.2.1
  protocol_eq : optional? origin (.maybe .text) protocol = some d.2.2.1
  stdout_eq : optional? origin (.maybe .text) stdout = some d.2.2.2.1
  stderr_eq : optional? origin (.maybe .text) stderr = some d.2.2.2.2.1
  status_eq : optional? origin (.maybe (.whole .i32)) status = some d.2.2.2.2.2.1

theorem toOption_object_iff {origin : Origin} {entries : List (String × Value)} {d : shape.Data} :
    (shape.ofValue origin (.object entries)).toOption = some d ↔
      Reads origin (given ["ok"] entries) (given ["error"] entries) (given ["protocol"] entries)
        (given ["stdout"] entries) (given ["stderr"] entries) (given ["status"] entries) d := by
  have hobject : (shape.ofValue origin (.object entries)).toOption = _ :=
    toOption_ofValue_object origin "ShimReply" _ entries
  obtain ⟨ok, error, protocol, stdout, stderr, status, ⟨⟩⟩ := d
  rw [hobject]
  constructor
  · intro h
    obtain ⟨hok, h⟩ := ofEntries?_required_iff.mp h
    obtain ⟨herror, h⟩ := ofEntries?_optional_iff.mp h
    obtain ⟨hprotocol, h⟩ := ofEntries?_optional_iff.mp h
    obtain ⟨hstdout, h⟩ := ofEntries?_optional_iff.mp h
    obtain ⟨hstderr, h⟩ := ofEntries?_optional_iff.mp h
    obtain ⟨hstatus, -⟩ := ofEntries?_optional_iff.mp h
    simp (disch := decide) only [given_without] at herror hprotocol hstdout hstderr hstatus
    exact ⟨required?_flag_iff.mp hok, herror, hprotocol, hstdout, hstderr, hstatus⟩
  · rintro ⟨hok, herror, hprotocol, hstdout, hstderr, hstatus⟩
    refine ofEntries?_required_iff.mpr ⟨required?_flag_iff.mpr hok, ?_⟩
    refine ofEntries?_optional_iff.mpr ⟨?_, ofEntries?_optional_iff.mpr ⟨?_,
      ofEntries?_optional_iff.mpr ⟨?_, ofEntries?_optional_iff.mpr ⟨?_,
        ofEntries?_optional_iff.mpr ⟨?_, rfl⟩⟩⟩⟩⟩
    all_goals simp (disch := decide) only [given_without]
    all_goals assumption

theorem toOption_array_iff {origin : Origin} {v : Value} {more : List Value} {d : shape.Data} :
    (shape.ofValue origin (.array (v :: more))).toOption = some d ↔
      Reads origin [v] (more.take 1) ((more.drop 1).take 1) ((more.drop 2).take 1)
        ((more.drop 3).take 1) (more.drop 4) d := by
  obtain ⟨ok, error, protocol, stdout, stderr, status, ⟨⟩⟩ := d
  constructor
  · intro h
    obtain ⟨hok, h⟩ := ofItems_required_iff.mp h
    obtain ⟨herror, h⟩ := ofItems_optional_iff.mp h
    obtain ⟨hprotocol, h⟩ := ofItems_optional_iff.mp h
    obtain ⟨hstdout, h⟩ := ofItems_optional_iff.mp h
    obtain ⟨hstderr, h⟩ := ofItems_optional_iff.mp h
    have hstatus := ofItems_last_iff.mp h
    simp only [List.drop_drop] at hprotocol hstdout hstderr hstatus
    exact ⟨required?_flag_iff.mp hok, herror, hprotocol, hstdout, hstderr, hstatus⟩
  · rintro ⟨hok, herror, hprotocol, hstdout, hstderr, hstatus⟩
    refine ofItems_required_iff.mpr ⟨required?_flag_iff.mpr hok, ?_⟩
    refine ofItems_optional_iff.mpr ⟨herror, ofItems_optional_iff.mpr ⟨hprotocol,
      ofItems_optional_iff.mpr ⟨?_, ofItems_optional_iff.mpr ⟨?_, ofItems_last_iff.mpr ?_⟩⟩⟩⟩
    all_goals simp only [List.drop_drop]
    all_goals assumption

theorem exists_reads_iff {origin : Origin} {ok error protocol stdout stderr status : List Value}
    {reply : Reply} :
    (∃ d, Reads origin ok error protocol stdout stderr status d ∧ ofData d = reply) ↔
      Parts ok error protocol stdout stderr status reply := by
  constructor
  · rintro ⟨d, h, rfl⟩
    constructor
    case ok => exact h.ok_eq
    case error => exact optional?_maybe_text_iff.mp ⟨_, h.error_eq, rfl⟩
    case protocol => exact optional?_maybe_text_iff.mp ⟨_, h.protocol_eq, rfl⟩
    case stdout => exact optional?_maybe_text_iff.mp ⟨_, h.stdout_eq, rfl⟩
    case stderr => exact optional?_maybe_text_iff.mp ⟨_, h.stderr_eq, rfl⟩
    case status => exact optional?_maybe_whole_iff.mp ⟨_, h.status_eq, rfl⟩
  · intro h
    obtain ⟨error, herror, herrorIs⟩ := optional?_maybe_text_iff.mpr h.error
    obtain ⟨protocol, hprotocol, hprotocolIs⟩ := optional?_maybe_text_iff.mpr h.protocol
    obtain ⟨stdout, hstdout, hstdoutIs⟩ := optional?_maybe_text_iff.mpr h.stdout
    obtain ⟨stderr, hstderr, hstderrIs⟩ := optional?_maybe_text_iff.mpr h.stderr
    obtain ⟨status, hstatus, hstatusIs⟩ := optional?_maybe_whole_iff.mpr h.status
    refine ⟨(reply.ok, error, protocol, stdout, stderr, status, ()),
      ⟨h.ok, herror, hprotocol, hstdout, hstderr, hstatus⟩, ?_⟩
    simp only [ofData, herrorIs, hprotocolIs, hstdoutIs, hstderrIs, hstatusIs]

/-- What is read of a value is a reply just when the value is one. -/
theorem exists_ofValue_iff {origin : Origin} {v : Value} {reply : Reply} :
    (∃ d, (shape.ofValue origin v).toOption = some d ∧ ofData d = reply) ↔ Says v reply := by
  cases v with
  | object entries =>
      simp only [toOption_object_iff, exists_reads_iff]
      constructor
      · exact Says.object
      · rintro ⟨h⟩
        exact h
  | array items =>
      cases items with
      | nil =>
          constructor
          · rintro ⟨d, h, -⟩
            cases h
          · intro h
            cases h
      | cons v more =>
          simp only [toOption_array_iff, exists_reads_iff]
          constructor
          · exact Says.array
          · intro h
            cases h with
            | array h => exact h
  | _ =>
      constructor
      · rintro ⟨d, h, -⟩
        cases h
      · intro h
        cases h

/-! ## Lines -/

theorem decode_eq_ok_iff {line : String} {reply : Reply} :
    decode line = .ok reply ↔
      ∃ d, (shape.ofText line.withoutBlankEnd).toOption = some d ∧ ofData d = reply := by
  rw [decode]
  cases shape.ofText line.withoutBlankEnd with
  | error f => simp
  | ok d => simp

/-- A line that is a document, but for blanks at its end, is read as the reply that its value is. -/
theorem decode_document_iff {line : String} {v : Value}
    (h : Document v line.withoutBlankEnd.toList) {reply : Reply} :
    decode line = .ok reply ↔ Says v reply := by
  have hshape : shape.Wordless := ⟨trivial, trivial, trivial, trivial, trivial, trivial, trivial⟩
  rw [decode_eq_ok_iff, Shape.toOption_ofText hshape h .settled]
  exact exists_ofValue_iff

/-- A reply is read only of a line that has the form of JSON, but for blanks at its end. -/
theorem hasForm_of_decode {line : String} {reply : Reply} (h : decode line = .ok reply) :
    HasForm line.withoutBlankEnd.toList := by
  obtain ⟨d, hread, -⟩ := decode_eq_ok_iff.mp h
  exact Shape.hasForm_of_ofText (toOption_eq_some_iff.mp hread)

/-- The error for a line that no reply is read of quotes the line, without the blanks at its end. -/
theorem exists_line_of_decode_error {line : String} {t : Trouble} (h : decode line = .error t) :
    ∃ cause, t.line = "Invalid engine shim reply: " ++ line.withoutBlankEnd ++ ": " ++ cause := by
  rw [decode] at h
  cases hread : shape.ofText line.withoutBlankEnd with
  | ok d =>
      simp only [hread] at h
      cases h
  | error f =>
      simp only [hread] at h
      cases h
      exact ⟨_, rfl⟩

theorem withoutBlankEnd_newline (line : String) :
    (line ++ "\n").withoutBlankEnd = line.withoutBlankEnd := by
  rw [String.withoutBlankEnd, String.withoutBlankEnd, String.toList_append]
  have htrim : Text.trimEnd (line.toList ++ "\n".toList) = Text.trimEnd line.toList := by
    rw [Text.trimEnd, List.reverse_append]
    exact congrArg List.reverse (Text.trimStart_cons_blank (by decide) _)
  rw [htrim]

theorem decode_newline (line : String) : decode (line ++ "\n") = decode line := by
  simp only [decode, withoutBlankEnd_newline]

end Reply

end CheckWorker.Shim
