import CheckWorker.Message.Event
import CheckWorker.Proofs.Text.Decoding
import CheckWorker.Proofs.Text.Lines
import CheckWorker.Shim.Engine
import Mathlib.Data.List.TakeWhile

/-!
# What is passed on of an engine's errors

The error stream of an engine is passed on line by line, and it makes no difference into which frames
its bytes are cut. As long as the lines are UTF-8, the events are those that the whole text would
give at once, as what an installer writes does. The first line that is not UTF-8 ends that: neither
the line itself nor anything after it is passed on, where the lossy decoding of the whole would have
given at least one event more.
-/

namespace CheckWorker

namespace Forwarder

/-- What is passed on of bytes that come in parts and then end. -/
def passAll (f : Forwarder) : List (List UInt8) → List String
  | [] => f.close
  | bytes :: parts => (f.feed bytes).2 ++ (f.feed bytes).1.passAll parts

/-! ## Parts of a stream -/

theorem textOf_append (front back : List (List UInt8)) :
    textOf (front ++ back) =
      ((textOf front).1 ++ (if (textOf front).2 then (textOf back).1 else []),
        (textOf front).2 && (textOf back).2) := by
  induction front with
  | nil => rfl
  | cons line front ih =>
      rw [List.cons_append, textOf, textOf]
      cases Utf8.decode line with
      | error fault => rfl
      | ok text => simp only [ih, List.append_assoc]

theorem take_length_sub {bytes front back : List UInt8} (h : bytes = front ++ back) :
    bytes.take (bytes.length - back.length) = front := by
  rw [h, List.length_append, Nat.add_sub_cancel, List.take_left]

/-- Bytes up to the end of their last line, and those after it. -/
theorem exists_finished (bytes : List UInt8) :
    ∃ finished, bytes = finished ++ unfinished bytes ∧
      (∀ a ∈ finished.getLast?, a = 10) ∧ 10 ∉ unfinished bytes := by
  refine ⟨(bytes.reverse.dropWhile (· != 10)).reverse, ?_, ?_, ?_⟩
  · rw [unfinished, ← List.reverse_append, List.takeWhile_append_dropWhile, List.reverse_reverse]
  · intro a ha
    rw [List.getLast?_reverse] at ha
    have hnot := List.head?_dropWhile_not (· != 10) bytes.reverse
    rw [ha] at hnot
    simpa using hnot
  · intro hmem
    have htake := List.mem_takeWhile_imp (List.mem_reverse.mp hmem)
    exact absurd htake (by decide)

theorem feed_of_readable {f : Forwarder} (h : f.readable = true) (bytes : List UInt8) :
    ∃ finished, f.pending ++ bytes = finished ++ (f.feed bytes).1.pending ∧
      (∀ a ∈ finished.getLast?, a = 10) ∧ 10 ∉ (f.feed bytes).1.pending ∧
      (f.feed bytes).1.readable = (textOf (Text.splitLines 10 13 finished)).2 ∧
      (f.feed bytes).2 = (textOf (Text.splitLines 10 13 finished)).1 := by
  obtain ⟨finished, hall, hlast, hfeed⟩ := exists_finished (f.pending ++ bytes)
  have hfed : f.feed bytes = (⟨unfinished (f.pending ++ bytes),
      (textOf (Text.splitLines 10 13 finished)).2⟩,
      (textOf (Text.splitLines 10 13 finished)).1) := by
    simp only [feed, h, Bool.not_true, Bool.false_eq_true, if_false, take_length_sub hall]
  rw [hfed]
  exact ⟨finished, hall, hlast, hfeed, rfl, rfl⟩

/-- However the bytes come, what is passed on are their lines, up to the first that is not UTF-8. -/
theorem passAll_eq {f : Forwarder} (h : 10 ∉ f.pending) (parts : List (List UInt8)) :
    f.passAll parts = if f.readable
      then (textOf (Text.splitLines 10 13 (f.pending ++ parts.flatten))).1 else [] := by
  induction parts generalizing f with
  | nil => rw [passAll, close, List.flatten_nil, List.append_nil]
  | cons bytes parts ih =>
      rw [passAll]
      cases hread : f.readable with
      | false =>
          have hfeed : f.feed bytes = (f, []) := by simp [feed, hread]
          rw [hfeed, ih h, hread]
          rfl
      | true =>
          obtain ⟨finished, hall, hlast, hpending, hflag, hlogs⟩ := feed_of_readable hread bytes
          have hbytes : f.pending ++ (bytes :: parts).flatten =
              finished ++ ((f.feed bytes).1.pending ++ parts.flatten) := by
            rw [List.flatten_cons, ← List.append_assoc, hall, List.append_assoc]
          rw [if_pos rfl, ih hpending, hbytes, Text.splitLines_append hlast, textOf_append, hflag,
            hlogs]

/-! ## Lines that are UTF-8 -/

theorem textOf_map_encode {lines : List (List Char)} (h : ∀ line ∈ lines, '\n' ∉ line) :
    textOf (lines.map Utf8.encode) =
      ((lines.map String.ofList).filter fun line => !line.isBlank, true) := by
  induction lines with
  | nil => rfl
  | cons line lines ih =>
      have hlines : ∀ line ∈ lines, '\n' ∉ line := fun line hmem =>
        h line (List.mem_cons_of_mem _ hmem)
      rw [List.map_cons, textOf, Utf8.decode_encode]
      simp only [ih hlines]
      rw [String.solidLines_of_notMem (h line List.mem_cons_self), List.map_cons,
        ← List.filter_append]
      rfl

theorem textOf_encode (text : List Char) :
    textOf (Text.splitLines 10 13 (Utf8.encode text)) = ((String.ofList text).solidLines, true) := by
  have hlines : ∀ line ∈ Text.lines text, '\n' ∉ line := fun line hmem =>
    Text.feed_notMem_of_mem_splitFrom List.not_mem_nil hmem
  rw [Text.splitLines_encode, textOf_map_encode hlines, String.solidLines, String.textLines,
    String.toList_ofList]

/-! ## The first line that is not -/

/-- A line that is not UTF-8 stands first among the lines of bytes. -/
def Refused (bytes : List UInt8) : Prop :=
  ∃ line lines, Text.splitLines 10 13 bytes = line :: lines ∧ ∀ text, Utf8.decode line ≠ .ok text

/-- The lines of bytes that are UTF-8, up to the first that is not. -/
structure ReadableTo (bytes : List UInt8) (text : List Char) (rest : List UInt8) : Prop where
  bytes_eq : bytes = Utf8.encode text ++ rest
  refused : rest = [] ∨ Refused rest ∧ ∀ c ∈ text.getLast?, c = '\n'

theorem textOf_of_refused {bytes : List UInt8} (h : Refused bytes) :
    textOf (Text.splitLines 10 13 bytes) = ([], false) := by
  obtain ⟨line, lines, hlines, hline⟩ := h
  rw [hlines, textOf]
  cases hdecode : Utf8.decode line with
  | error fault => rfl
  | ok text => exact absurd hdecode (hline text)

theorem Refused.decode_ne {bytes : List UInt8} (h : Refused bytes) (text : List Char) :
    Utf8.decode bytes ≠ .ok text := by
  intro hdecode
  have htext := textOf_encode text
  rw [← Utf8.decode_eq_ok_iff.mp hdecode, textOf_of_refused h] at htext
  exact Bool.false_ne_true (congrArg Prod.snd htext)

theorem ReadableTo.cons_line {bytes rest : List UInt8} {text : List Char}
    (h : ReadableTo bytes text rest) (line : List Char) :
    ReadableTo (Utf8.encode line ++ 10 :: bytes) (line ++ '\n' :: text) rest where
  bytes_eq := by
    rw [Text.encode_append_feed, h.bytes_eq, List.append_assoc, List.cons_append]
  refused := h.refused.imp_right <| by
    rintro ⟨hrefused, hlast⟩
    refine ⟨hrefused, ?_⟩
    intro c hc
    rcases List.eq_nil_or_concat' text with rfl | ⟨front, d, rfl⟩
    · simpa using hc.symm
    · rw [← List.cons_append, ← List.append_assoc, List.getLast?_concat] at hc
      exact hlast c (by rwa [List.getLast?_concat])

theorem exists_readableTo (bytes : List UInt8) : ∃ text rest, ReadableTo bytes text rest := by
  induction bytes using Text.induction_on_lines (10 : UInt8) with
  | last line hline =>
      cases hdecode : Utf8.decode line with
      | ok text =>
          refine ⟨text, [], ?_, Or.inl rfl⟩
          rw [List.append_nil]
          exact Utf8.decode_eq_ok_iff.mp hdecode
      | error fault =>
          refine ⟨[], line, rfl, Or.inr ⟨⟨line, [], ?_, ?_⟩, nofun⟩⟩
          · have hne : line ≠ [] := by
              rintro rfl
              cases hdecode.symm.trans (Utf8.decode_encode [])
            rw [Text.splitLines_of_notMem hline, if_neg (by simpa using hne)]
          · intro text htext
            cases hdecode.symm.trans htext
  | more line rest hline ih =>
      have hlines := Text.splitLines_append_feed hline (13 : UInt8) rest
      cases hdecode : Utf8.decode (Text.closeLine 13 line.reverse) with
      | error fault =>
          refine ⟨[], line ++ 10 :: rest, rfl, Or.inr ⟨⟨_, _, hlines, ?_⟩, nofun⟩⟩
          intro text htext
          cases hdecode.symm.trans htext
      | ok closed =>
          have hclosed := Utf8.decode_eq_ok_iff.mp hdecode
          obtain ⟨first, hfirst⟩ : ∃ first, line = Utf8.encode first := by
            rcases Text.closeLine_cases 13 line with h | h
            · exact ⟨closed, h.symm.trans hclosed⟩
            · refine ⟨closed ++ ['\r'], ?_⟩
              rw [h, hclosed, Utf8.encode_append]
              rfl
          obtain ⟨text, refused, hread⟩ := ih
          exact ⟨_, refused, hfirst ▸ hread.cons_line first⟩

theorem ReadableTo.textOf_eq {bytes rest : List UInt8} {text : List Char}
    (h : ReadableTo bytes text rest) : textOf (Text.splitLines 10 13 bytes) =
      ((String.ofList text).solidLines, rest.isEmpty) := by
  obtain ⟨rfl, rfl | ⟨hrefused, hlast⟩⟩ := h
  · rw [List.append_nil, textOf_encode]
    rfl
  · have hend : ∀ a ∈ (Utf8.encode text).getLast?, a = 10 := by
      rcases List.eq_nil_or_concat' text with rfl | ⟨front, c, rfl⟩
      · nofun
      · obtain rfl : c = '\n' := hlast c (by simp)
        intro a ha
        rw [Utf8.encode_append] at ha
        simpa [Utf8.encode, String.utf8EncodeChar] using ha.symm
    have hne : rest ≠ [] := by
      rintro rfl
      exact hrefused.decode_ne [] (Utf8.decode_encode [])
    rw [Text.splitLines_append hend, textOf_append, textOf_encode, textOf_of_refused hrefused]
    simp [hne]

theorem ReadableTo.rest_eq_nil_iff {bytes rest : List UInt8} {text : List Char}
    (h : ReadableTo bytes text rest) : rest = [] ↔ ∃ all, Utf8.decode bytes = .ok all := by
  constructor
  · rintro rfl
    refine ⟨text, Utf8.decode_eq_ok_iff.mpr ?_⟩
    rw [h.bytes_eq, List.append_nil]
  · rintro ⟨all, hall⟩
    have hflag := h.textOf_eq
    rw [Utf8.decode_eq_ok_iff.mp hall, textOf_encode] at hflag
    exact List.isEmpty_iff.mp (congrArg Prod.snd hflag).symm

/-- What is passed on is what the lossy decoding of everything would give only if everything is
UTF-8. -/
theorem ReadableTo.solidLines_eq_iff {bytes rest : List UInt8} {text : List Char}
    (h : ReadableTo bytes text rest) :
    (String.ofList text).solidLines = (String.ofList (Utf8.decodeLossy bytes)).solidLines ↔
      rest = [] := by
  obtain ⟨rfl, hrest⟩ := h
  rw [Utf8.decodeLossy_encode_append, String.ofList_append]
  constructor
  · intro hlines
    rcases hrest with hrest | ⟨hrefused, hlast⟩
    · exact hrest
    · rw [String.solidLines_append (by rwa [String.toList_ofList]),
        List.self_eq_append_right] at hlines
      have hmem := Utf8.replacement_mem_decodeLossy hrefused.decode_ne
      exact absurd hlines
        (String.solidLines_ne_nil (by rwa [String.toList_ofList]) (by decide))
  · rintro rfl
    rw [Utf8.decodeLossy, Utf8.pieces_nil, List.map_nil, String.ofList_nil, String.append_empty]

end Forwarder

namespace ShimEngine

/-- What is passed on of the frames that a shim writes, and of what is left when it is given up. -/
def passedOn (e : ShimEngine) : List Frame → List String
  | [] => e.errors.close
  | frame :: frames => (e.absorb frame).2 ++ (e.absorb frame).1.passedOn frames

theorem passedOn_eq (e : ShimEngine) (frames : List Frame) :
    e.passedOn frames = e.errors.passAll (frames.map fun frame => frame.stderr.toList) := by
  induction frames generalizing e with
  | nil => rfl
  | cons frame frames ih =>
      rw [passedOn, ih]
      rfl

/-- Reading a reply takes one line from what is unread, whatever the line is. -/
theorem readReply_snd (e : ShimEngine) :
    e.readReply.2 = { e with unread := (firstLine e.unread).2 } := by
  simp only [readReply]
  split
  · rfl
  · cases Utf8.decode (firstLine e.unread).1 <;> rfl

theorem errors_readReply (e : ShimEngine) : e.readReply.2.errors = e.errors := by
  rw [readReply_snd]

theorem passedOn_congr {e e' : ShimEngine} (h : e.errors = e'.errors) (frames : List Frame) :
    e.passedOn frames = e'.passedOn frames := by
  rw [passedOn_eq, passedOn_eq, h]

/-- A request passes on what the shim writes before it answers, if the shim takes it. -/
theorem exchange_passedOn {π : Type} (programs : Programs π) (request : Shim.Request)
    (e : ShimEngine) (p : π) (frames : List Frame) :
    (e.exchange programs request p).2.2.2 ++ (e.exchange programs request p).2.1.passedOn frames =
      if e.takesInput then e.passedOn ((programs.feed e.handle request.encode p).1 :: frames)
      else e.passedOn frames := by
  cases h : e.takesInput with
  | false =>
      simp only [exchange, h]
      rfl
  | true =>
      simp only [exchange, h, Bool.not_true, Bool.false_eq_true, if_false, if_true]
      rw [passedOn, passedOn_congr (errors_readReply _)]

/-- The events for what a shim wrote to its errors are those for a text, and they stop where that
text stops: before the first line that is not UTF-8. Only if there is no such line they are the
events for the lossy decoding of everything. -/
theorem events_passedOn (handle : Handle) (frames : List Frame) :
    let bytes := frames.flatMap fun frame => frame.stderr.toList
    let events := ((start handle).passedOn frames).map Event.log
    (∃ text rest, Forwarder.ReadableTo bytes text rest ∧
      events = Event.ofToolText (String.ofList text)) ∧
    (events = Event.ofToolText (String.ofList (Utf8.decodeLossy bytes)) ↔
      ∃ text, Utf8.decode bytes = .ok text) := by
  intro bytes events
  obtain ⟨text, rest, hread⟩ := Forwarder.exists_readableTo bytes
  have hpassed : (start handle).passedOn frames = (String.ofList text).solidLines := by
    have hpending : 10 ∉ Forwarder.start.pending := List.not_mem_nil
    have hall := Forwarder.passAll_eq hpending (frames.map fun frame => frame.stderr.toList)
    have hbytes : (frames.map fun frame => frame.stderr.toList).flatten = bytes :=
      List.flatMap_def.symm
    rw [passedOn_eq, show (start handle).errors = Forwarder.start from rfl, hall, hbytes]
    exact congrArg Prod.fst hread.textOf_eq
  have hevents : events = Event.ofToolText (String.ofList text) :=
    congrArg (List.map Event.log) hpassed
  refine ⟨⟨text, rest, hread, hevents⟩, ?_⟩
  rw [hevents, Event.ofToolText, Event.ofToolText,
    List.map_inj_right fun _ _ h => Event.log.inj h, hread.solidLines_eq_iff]
  exact hread.rest_eq_nil_iff

/-- A byte that is no UTF-8 costs the line it stands in and the next. -/
theorem events_lost_after_stray_byte :
    let frames : List Frame :=
      [{ stdout := ByteArray.empty, stderr := ⟨#[0x61, 0xFF, 0x0A, 0x62, 0x0A]⟩ }]
    ((start 0).passedOn frames).map Event.log = [] ∧
      Event.ofToolText (ByteArray.decodeLossy ⟨#[0x61, 0xFF, 0x0A, 0x62, 0x0A]⟩) =
        [.log "a\uFFFD", .log "b"] := by
  decide +kernel

end ShimEngine

end CheckWorker
