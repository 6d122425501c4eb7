import CheckWorker.Proofs.Json.Controls
import CheckWorker.Proofs.Json.ReadBack
import CheckWorker.Proofs.Text.Lines
import CheckWorker.Transport

/-!
# Events there and back

The line that is written for an event is read as that event. It holds no control, so no line feed
but the one that ends it, and a stream of events falls apart at its line feeds into their lines.
-/

namespace CheckWorker

open Json

namespace Event

theorem fits_content (k : Kind) : ∀ shape ∈ tagging.content k, shape.Fits 126 := by
  intro shape hshape
  cases k <;> cases hshape
  case initDone => exact ⟨⟨trivial, trivial, trivial, trivial⟩, trivial⟩
  case log => exact ⟨trivial, trivial⟩
  case result =>
    exact ⟨⟨trivial, trivial, trivial, trivial, trivial, trivial, trivial⟩, trivial, trivial,
      trivial, trivial⟩
  case error => exact ⟨trivial, trivial⟩

theorem legible_tagging : tagging.Legible where
  key_ne := by decide
  mem_kinds k := by cases k <;> decide
  words_nodup := by decide
  content k shape hshape := by
    refine ⟨?_, fits_content k shape hshape⟩
    cases k <;> cases hshape
    all_goals
      simp [initDoneShape, versionsShape, logShape, errorShape, resultShape, diagnosticShape,
        severityShape, Shape.Legible, Fields.Legible, Fields.Apart, Fields.names]

/-- What is written for an event holds no control. -/
theorem clear_encode (e : Event) : Clear e.encode.toList := by
  rw [encode, Tagging.toText, String.toList_ofList]
  exact tagging.clear_print fits_content e.toData

theorem decode_encode (e : Event) : decode e.encode = .ok e := by
  rw [decode, encode, Tagging.ofText_toText legible_tagging]
  exact congrArg Except.ok (ofData_toData e)

/-! ## Streams of events -/

/-- The event that is written in some bytes, if they are those of one. -/
def ofBytes? (bytes : List UInt8) : Option Event :=
  (Utf8.decode bytes).toOption.bind fun text => (decode (String.ofList text)).toOption

/-- The events on a stream, one before each line feed, and the bytes that are left over. -/
def readStream (bytes : List UInt8) : Option (List Event) × List UInt8 :=
  let pieces := bytes.splitOn 10
  (pieces.dropLast.mapM ofBytes?, pieces.getLast?.getD [])

theorem ofBytes?_encode (e : Event) : ofBytes? (Utf8.encode e.encode.toList) = some e := by
  rw [ofBytes?, Utf8.decode_encode]
  simp [Except.toOption, decode_encode]

theorem newline_notMem_encode (e : Event) : 10 ∉ Utf8.encode e.encode.toList := by
  intro hmem
  exact (clear_encode e).ne_newline (Utf8.mem_of_mem_encode hmem (by decide))

theorem wire_eq (e : Event) : e.wire = Utf8.encode e.encode.toList ++ [10] := by
  rw [wire, wireLine, String.toList_append, Utf8.encode_append]
  rfl

/-- A stream of events is read as those events, and nothing is left over. -/
theorem readStream_writeEvents (events : List Event) :
    readStream (writeEvents events) = (some events, []) := by
  have hwrite : writeEvents events =
      events.flatMap fun e => Utf8.encode e.encode.toList ++ [10] := by
    rw [writeEvents, funext wire_eq]
  rw [hwrite]
  exact Text.readRecords_flatMap ofBytes?_encode newline_notMem_encode events

/-- The text that is printed for events has the bytes that are written for them. -/
theorem encode_wireText (events : List Event) :
    Utf8.encode (wireText events).toList = writeEvents events := by
  rw [wireText, String.toList_join, List.flatMap_map]
  exact List.flatMap_assoc

/-- An event is written without controls and read back, and so is any sequence of events. -/
theorem framing :
    (∀ e : Event, (∀ c ∈ e.encode.toList, 0x20 ≤ c.toNat) ∧ decode e.encode = .ok e) ∧
      ∀ events : List Event, readStream (writeEvents events) = (some events, []) :=
  ⟨fun e => ⟨clear_encode e, decode_encode e⟩, readStream_writeEvents⟩

end Event

end CheckWorker
