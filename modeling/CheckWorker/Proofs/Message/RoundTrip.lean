import CheckWorker.Proofs.Gateway.Handling
import CheckWorker.Proofs.Message.Decoding

/-!
# Requests there and back

The line that is written for a request is a document of the value that the request stands for. This
value is an envelope of its kind, with a payload that gives the request. So the line is decoded to
the request, and a gateway does for the line just what it does for the request itself.
-/

namespace CheckWorker

open Json

namespace Request

/-- The value that is written for a request. -/
def value (r : Request) : Value :=
  tagging.value r.toData

/-- The payload that is written for a request; for a warm-up there is none. -/
def payload : Request → Value
  | .init version => initShape.value (initToData version)
  | .warmup => .null
  | .check c => checkShape.value (checkToData c)

theorem document_encode (r : Request) : Document r.value r.encode.toList := by
  refine tagging.document ?_ r.toData
  intro kind shape hshape
  cases kind with
  | init =>
      cases hshape
      exact ⟨trivial, trivial⟩
  | warmup => cases hshape
  | check =>
      cases hshape
      exact ⟨trivial, trivial, trivial, trivial, trivial⟩

theorem envelope_value (r : Request) : Envelope r.value (some r.kind.word) r.payload := by
  cases r with
  | init version => exact .object (.text _) (.one _)
  | warmup => exact .object (.text _) .absent
  | check c => exact .object (.text _) (.one _)

theorem initPayload_value (version : Option String) :
    InitPayload (initShape.value (initToData version)) version := by
  cases version with
  | none => exact .object .absent
  | some s => exact .object (.text s)

theorem checkPayload_value (c : Check) : CheckPayload (checkShape.value (checkToData c)) c := by
  obtain ⟨filename, code, flags, cacheDir⟩ := c
  cases cacheDir with
  | none => exact .object rfl rfl (.array flags) .absent
  | some dir => exact .object rfl rfl (.array flags) (.text dir)

theorem payload_payload (r : Request) : Payload r r.payload := by
  cases r with
  | init version => exact .init (initPayload_value version)
  | warmup => exact .warmup
  | check c => exact .check (checkPayload_value c)

theorem decode_encode (r : Request) : decode r.encode = .ok r :=
  (answer_decode (document_encode r)).eq_ok (envelope_value r) (payload_payload r)

end Request

/-- A request is read from its line as it was, and a gateway cannot tell one from the other. -/
theorem Gateway.handleInbound_encode (r : Request) :
    Request.decode r.encode = .ok r ∧
      ∀ {σ : Type} (host : Host σ) (g : Gateway) (w : World σ),
        g.handleInbound host (.line r.encode) w = g.handleInbound host (.request r) w := by
  have hdecode := Request.decode_encode r
  refine ⟨hdecode, ?_⟩
  intro σ host g w
  rw [handleInbound_eq, handleInbound_eq]
  simp only [Inbound.read, hdecode]

end CheckWorker
