import CheckWorker.Proofs.Json.Agreement
import CheckWorker.Proofs.Json.Controls
import CheckWorker.Proofs.Json.ReadBack
import CheckWorker.Proofs.Text.Lines
import CheckWorker.Shim.Protocol

/-!
# Requests to the shim there and back

The line that is written for a request is a JSON document of one value, and it is read as that
request. It holds no line feed but the one that ends it, so a stream of requests falls apart at its
line feeds into their lines.
-/

namespace CheckWorker.Shim.Request

open Json

/-- What is written for a request, up to the end of its line. -/
def text (r : Request) : String :=
  shape.toText r.toData

/-- The value that is written for a request. -/
def value : Request → Value
  | .importEntry => .object [("op", .text "import")]
  | .run args => .object [("op", .text "run"), ("args", .array (args.map .text))]

theorem encode_eq (r : Request) : r.encode = r.text ++ "\n" := rfl

theorem fits_shape : shape.Fits depthLimit :=
  ⟨trivial, trivial, trivial⟩

theorem legible_shape : shape.Legible := by
  simp [shape, Shape.Legible, Fields.Legible, Fields.Apart, Fields.names]

theorem value_toData (r : Request) : shape.value r.toData = r.value := by
  cases r <;> rfl

/-! ## One request -/

/-- What is written for a request holds no control. -/
theorem clear_text (r : Request) : Clear r.text.toList := by
  rw [text, Shape.toText, String.toList_ofList]
  exact shape.clear_print fits_shape r.toData

theorem document_text_iff {r : Request} {v : Value} :
    Document v r.text.toList ↔ v = r.value := by
  have hdocument := Shape.document fits_shape r.toData
  rw [value_toData] at hdocument
  constructor
  · intro hv
    exact hv.eq hdocument
  · rintro rfl
    exact hdocument

theorem decode?_text (r : Request) : decode? r.text = some r := by
  rw [decode?, text, Shape.ofText_toText legible_shape fits_shape]
  cases r <;> rfl

/-! ## Streams of requests -/

/-- The request that is written in some bytes, if they are those of one. -/
def ofBytes? (bytes : List UInt8) : Option Request :=
  (Utf8.decode bytes).toOption.bind fun text => decode? (String.ofList text)

/-- The requests on a stream, one before each line feed, and the bytes that are left over. -/
def readStream : List UInt8 → Option (List Request) × List UInt8 :=
  Text.readRecords ofBytes?

theorem ofBytes?_encode (r : Request) : ofBytes? (Utf8.encode r.text.toList) = some r := by
  rw [ofBytes?, Utf8.decode_encode]
  simp [Except.toOption, decode?_text]

theorem encode_encode (r : Request) :
    Utf8.encode r.encode.toList = Utf8.encode r.text.toList ++ [10] := by
  rw [encode_eq, String.toList_append, Utf8.encode_append]
  rfl

/-- A stream of requests is read as those requests, and nothing is left over. -/
theorem readStream_flatMap (requests : List Request) :
    readStream (requests.flatMap fun r => Utf8.encode r.encode.toList) = (some requests, []) := by
  rw [funext encode_encode]
  apply Text.readRecords_flatMap ofBytes?_encode
  intro r
  apply Text.feed_notMem_encode
  exact (clear_text r).ne_newline

end CheckWorker.Shim.Request
