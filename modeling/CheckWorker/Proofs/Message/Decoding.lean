import CheckWorker.Proofs.Json.Writing
import CheckWorker.Proofs.Message.Grammar

/-!
# The decoding of requests

The answer to a document is determined by the value that it spells. `Answer` has one case for each
way in which decoding can end, and every document is answered as it says. A value is an envelope in
at most one way, and a payload gives at most one request of a kind, so no two cases hold together.
-/

namespace CheckWorker.Request

open Json

/-- The answers to a document, by the value that it spells. -/
inductive Answer (v : Value) : Except Fault Request → Prop
  | unreadable {cause : Cause} {place : Place} :
      (∀ type payload, ¬ Envelope v type payload) → Answer v (.error (.unreadable cause place))
  | missingType {payload : Value} : Envelope v none payload → Answer v (.error .missingType)
  | unknownType {word : String} {payload : Value} :
      Envelope v (some word) payload → (∀ kind : Kind, word ≠ kind.word) →
        Answer v (.error (.unknownType word))
  | badPayload {kind : Kind} {payload : Value} {cause : Cause} :
      Envelope v (some kind.word) payload → (∀ r, r.kind = kind → ¬ Payload r payload) →
        Answer v (.error (.badPayload kind cause))
  | ok {r : Request} {payload : Value} :
      Envelope v (some r.kind.word) payload → Payload r payload → Answer v (.ok r)

/-! ## From an envelope to a request -/

section

variable {v payload : Value}

/-- The answer of a kind to what was read from a payload. -/
def ofRead {α : Type} (kind : Kind) (request : α → Request) :
    Except Cause α → Except Fault Request
  | .ok a => .ok (request a)
  | .error cause => .error (.badPayload kind cause)

theorem answer_ofRead {α : Type} {kind : Kind} {request : α → Request} {read : Except Cause α}
    (hkind : ∀ a, (request a).kind = kind)
    (hread : ∀ r, r.kind = kind → (Payload r payload ↔ ∃ a, read = .ok a ∧ request a = r))
    (h : Envelope v (some kind.word) payload) : Answer v (ofRead kind request read) := by
  cases read with
  | ok a =>
      have hpayload : Payload (request a) payload := (hread _ (hkind a)).mpr ⟨a, rfl, rfl⟩
      rw [← hkind a] at h
      exact .ok h hpayload
  | error cause =>
      refine .badPayload h ?_
      intro r hr hpayload
      obtain ⟨a, ha, -⟩ := (hread r hr).mp hpayload
      cases ha

theorem ofParts_init (hpayload : payload ≠ .null) :
    ofParts Kind.init.word payload =
      ofRead .init (fun d => .init (initOfData d)) (initShape.ofValue .settled payload) := by
  have hinit : Kind.init.word = "init" := rfl
  unfold ofParts
  rw [if_pos hinit]
  split
  · exact absurd rfl hpayload
  · cases initShape.ofValue .settled payload <;> rfl

theorem ofParts_check (payload : Value) :
    ofParts Kind.check.word payload =
      ofRead .check (fun d => .check (checkOfData d)) (checkShape.ofValue .settled payload) := by
  have hinit : Kind.check.word ≠ "init" := by decide
  have hwarmup : Kind.check.word ≠ "warmup" := by decide
  have hcheck : Kind.check.word = "check" := rfl
  unfold ofParts
  rw [if_neg hinit, if_neg hwarmup, if_pos hcheck]
  cases checkShape.ofValue .settled payload <;> rfl

theorem payload_init_iff (hpayload : payload ≠ .null) {r : Request} (hr : r.kind = .init) :
    Payload r payload ↔
      ∃ d, initShape.ofValue .settled payload.settle = .ok d ∧ Request.init (initOfData d) = r := by
  cases r with
  | init version =>
      constructor
      · intro h
        cases h with
        | init h =>
            obtain ⟨d, hd, rfl⟩ := (init_iff hpayload).mpr h
            exact ⟨d, toOption_eq_some_iff.mp hd, rfl⟩
      · rintro ⟨d, hd, hversion⟩
        cases hversion
        exact .init ((init_iff hpayload).mp ⟨d, toOption_eq_some_iff.mpr hd, rfl⟩)
  | _ => cases hr

theorem payload_check_iff {r : Request} (hr : r.kind = .check) :
    Payload r payload ↔
      ∃ d, checkShape.ofValue .settled payload.settle = .ok d ∧
        Request.check (checkOfData d) = r := by
  cases r with
  | check c =>
      constructor
      · intro h
        cases h with
        | check h =>
            obtain ⟨d, hd, rfl⟩ := check_iff.mpr h
            exact ⟨d, toOption_eq_some_iff.mp hd, rfl⟩
      · rintro ⟨d, hd, hcheck⟩
        cases hcheck
        exact .check (check_iff.mp ⟨d, toOption_eq_some_iff.mpr hd, rfl⟩)
  | _ => cases hr

theorem answer_init (h : Envelope v (some Kind.init.word) payload) :
    Answer v (ofParts Kind.init.word payload.settle) := by
  by_cases hpayload : payload = .null
  · subst hpayload
    exact .ok (r := .init none) h (.init .null)
  · rw [ofParts_init fun hnull => hpayload (eq_null_of_settle hnull)]
    exact answer_ofRead (fun _ => rfl) (fun _ hr => payload_init_iff hpayload hr) h

theorem answer_check (h : Envelope v (some Kind.check.word) payload) :
    Answer v (ofParts Kind.check.word payload.settle) := by
  rw [ofParts_check]
  exact answer_ofRead (fun _ => rfl) (fun _ hr => payload_check_iff hr) h

/-- The kind is settled before the payload is looked at. -/
theorem answer_ofParts {word : String} (h : Envelope v (some word) payload) :
    Answer v (ofParts word payload.settle) := by
  by_cases hinit : word = Kind.init.word
  · subst hinit
    exact answer_init h
  by_cases hwarmup : word = Kind.warmup.word
  · subst hwarmup
    exact .ok (r := .warmup) h .warmup
  by_cases hcheck : word = Kind.check.word
  · subst hcheck
    exact answer_check h
  have hnone : ∀ kind : Kind, word ≠ kind.word := by
    intro kind
    cases kind with
    | init => exact hinit
    | warmup => exact hwarmup
    | check => exact hcheck
  have hunknown : ofParts word payload.settle = .error (.unknownType word) := by
    have hinit' : word ≠ "init" := hinit
    have hwarmup' : word ≠ "warmup" := hwarmup
    have hcheck' : word ≠ "check" := hcheck
    simp only [ofParts, if_neg hinit', if_neg hwarmup', if_neg hcheck']
  rw [hunknown]
  exact .unknownType h hnone

end

theorem answer_decode {line : String} {v : Value} (h : Document v line.toList) :
    Answer v (decode line) := by
  have henvelope := toOption_envelope h
  unfold decode
  split
  · next f hread =>
      rw [hread] at henvelope
      refine .unreadable ?_
      intro type payload hv
      obtain ⟨p, hp, -⟩ := envelope_iff.mpr hv
      cases henvelope.trans hp
  · next d hread =>
      rw [hread] at henvelope
      exact .missingType (envelope_iff.mp ⟨d.1, henvelope.symm, rfl⟩)
  · next word payload hread =>
      rw [hread] at henvelope
      exact answer_ofParts (envelope_iff.mp ⟨payload, henvelope.symm, rfl⟩)

/-! ## At most one answer -/

theorem MaybeText.unique {vs : List Value} {t t' : Option String} (h : MaybeText vs t)
    (h' : MaybeText vs t') : t = t' := by
  cases h <;> cases h' <;> rfl

theorem AtMostOne.unique {vs : List Value} {v v' : Value} (h : AtMostOne vs v)
    (h' : AtMostOne vs v') : v = v' := by
  cases h <;> cases h' <;> rfl

theorem Envelope.unique {v payload payload' : Value} {type type' : Option String}
    (h : Envelope v type payload) (h' : Envelope v type' payload') :
    type = type' ∧ payload = payload' := by
  cases h with
  | object htype hpayload =>
      cases h' with
      | object htype' hpayload' => exact ⟨htype.unique htype', hpayload.unique hpayload'⟩
  | array htype hpayload =>
      cases h' with
      | array htype' hpayload' => exact ⟨htype.unique htype', hpayload.unique hpayload'⟩

theorem Kind.word_injective {kind kind' : Kind} (h : kind.word = kind'.word) : kind = kind' := by
  cases kind <;> cases kind' <;> first | rfl | exact absurd h (by decide)

theorem InitPayload.unique {payload : Value} {version version' : Option String}
    (h : InitPayload payload version) (h' : InitPayload payload version') : version = version' := by
  cases h with
  | null =>
      cases h'
      rfl
  | object hversion =>
      cases h' with
      | object hversion' => exact hversion.unique hversion'
  | array hversion =>
      cases h' with
      | array hversion' => exact hversion.unique hversion'

theorem CheckPayload.unique {payload : Value} {c c' : Check} (h : CheckPayload payload c)
    (h' : CheckPayload payload c') : c = c' := by
  obtain ⟨d, hd, rfl⟩ := check_iff.mpr h
  obtain ⟨d', hd', rfl⟩ := check_iff.mpr h'
  rw [Option.some.inj (hd.symm.trans hd')]

theorem Payload.unique {payload : Value} {r r' : Request} (h : Payload r payload)
    (h' : Payload r' payload) (hkind : r.kind = r'.kind) : r = r' := by
  cases h with
  | init hinit =>
      cases h' with
      | init hinit' => rw [hinit.unique hinit']
      | warmup => cases hkind
      | check _ => cases hkind
  | warmup =>
      cases h' with
      | init _ => cases hkind
      | warmup => rfl
      | check _ => cases hkind
  | check hcheck =>
      cases h' with
      | init _ => cases hkind
      | warmup => cases hkind
      | check hcheck' => rw [hcheck.unique hcheck']

namespace Answer

variable {v payload : Value} {result : Except Fault Request}

theorem eq_unreadable (h : Answer v result) (hnone : ∀ type payload, ¬ Envelope v type payload) :
    ∃ cause place, result = .error (.unreadable cause place) := by
  cases h with
  | unreadable _ => exact ⟨_, _, rfl⟩
  | missingType h => exact absurd h (hnone _ _)
  | unknownType h _ => exact absurd h (hnone _ _)
  | badPayload h _ => exact absurd h (hnone _ _)
  | ok h _ => exact absurd h (hnone _ _)

theorem eq_missingType (h : Answer v result) (hv : Envelope v none payload) :
    result = .error .missingType := by
  cases h with
  | unreadable hnone => exact absurd hv (hnone _ _)
  | missingType _ => rfl
  | unknownType h _ => cases (h.unique hv).1
  | badPayload h _ => cases (h.unique hv).1
  | ok h _ => cases (h.unique hv).1

theorem eq_unknownType {word : String} (h : Answer v result)
    (hv : Envelope v (some word) payload) (hword : ∀ kind : Kind, word ≠ kind.word) :
    result = .error (.unknownType word) := by
  cases h with
  | unreadable hnone => exact absurd hv (hnone _ _)
  | missingType h => cases (h.unique hv).1
  | unknownType h _ => rw [Option.some.inj (h.unique hv).1]
  | badPayload h _ => exact absurd (Option.some.inj (h.unique hv).1).symm (hword _)
  | ok h _ => exact absurd (Option.some.inj (h.unique hv).1).symm (hword _)

/-- A word of a kind leaves two cases: a request of the kind, or none. -/
theorem of_word {kind : Kind} (h : Answer v result)
    (hv : Envelope v (some kind.word) payload) :
    (∃ r, result = .ok r ∧ r.kind = kind ∧ Payload r payload) ∨
      (∃ cause, result = .error (.badPayload kind cause)) ∧
        ∀ r, r.kind = kind → ¬ Payload r payload := by
  cases h with
  | unreadable hnone => exact absurd hv (hnone _ _)
  | missingType h => cases (h.unique hv).1
  | unknownType h hword => exact absurd (Option.some.inj (h.unique hv).1) (hword _)
  | badPayload h hbad =>
      obtain ⟨hword, rfl⟩ := h.unique hv
      obtain rfl := Kind.word_injective (Option.some.inj hword)
      exact .inr ⟨⟨_, rfl⟩, hbad⟩
  | ok h hpayload =>
      obtain ⟨hword, rfl⟩ := h.unique hv
      exact .inl ⟨_, rfl, Kind.word_injective (Option.some.inj hword), hpayload⟩

theorem eq_ok {r : Request} (h : Answer v result) (hv : Envelope v (some r.kind.word) payload)
    (hpayload : Payload r payload) : result = .ok r := by
  rcases h.of_word hv with ⟨r', hresult, hkind, hpayload'⟩ | ⟨-, hbad⟩
  · rw [hresult, hpayload'.unique hpayload hkind]
  · exact absurd hpayload (hbad r rfl)

theorem eq_badPayload {kind : Kind} (h : Answer v result)
    (hv : Envelope v (some kind.word) payload) (hbad : ∀ r, r.kind = kind → ¬ Payload r payload) :
    ∃ cause, result = .error (.badPayload kind cause) := by
  rcases h.of_word hv with ⟨r, -, hkind, hpayload⟩ | ⟨hresult, -⟩
  · exact absurd hpayload (hbad r hkind)
  · exact hresult

end Answer

/-! ## The grammar of the messages -/

/-- A document is a request exactly when its value is an envelope with a word of a kind and a
payload of that kind. Faults are told in a fixed order: of the envelope, of its type, of its
payload. -/
theorem decode_document {line : String} {v : Value} (h : Document v line.toList) :
    ((∃ cause place, decode line = .error (.unreadable cause place)) ↔
      ∀ type payload, ¬ Envelope v type payload) ∧
    (decode line = .error .missingType ↔ ∃ payload, Envelope v none payload) ∧
    (∀ word, decode line = .error (.unknownType word) ↔
      (∃ payload, Envelope v (some word) payload) ∧ ∀ kind : Kind, word ≠ kind.word) ∧
    (∀ kind, (∃ cause, decode line = .error (.badPayload kind cause)) ↔
      ∃ payload, Envelope v (some kind.word) payload ∧ ∀ r, r.kind = kind → ¬ Payload r payload) ∧
    ∀ r, decode line = .ok r ↔
      ∃ payload, Envelope v (some r.kind.word) payload ∧ Payload r payload := by
  have hanswer := answer_decode h
  refine ⟨⟨?_, hanswer.eq_unreadable⟩, ⟨?_, ?_⟩, fun word => ⟨?_, ?_⟩, fun kind => ⟨?_, ?_⟩,
    fun r => ⟨?_, ?_⟩⟩
  · rintro ⟨cause, place, hresult⟩
    rw [hresult] at hanswer
    cases hanswer with
    | unreadable hnone => exact hnone
  · intro hresult
    rw [hresult] at hanswer
    cases hanswer with
    | missingType hv => exact ⟨_, hv⟩
  · rintro ⟨payload, hv⟩
    exact hanswer.eq_missingType hv
  · intro hresult
    rw [hresult] at hanswer
    cases hanswer with
    | unknownType hv hword => exact ⟨⟨_, hv⟩, hword⟩
  · rintro ⟨⟨payload, hv⟩, hword⟩
    exact hanswer.eq_unknownType hv hword
  · rintro ⟨cause, hresult⟩
    rw [hresult] at hanswer
    cases hanswer with
    | badPayload hv hbad => exact ⟨_, hv, hbad⟩
  · rintro ⟨payload, hv, hbad⟩
    exact hanswer.eq_badPayload hv hbad
  · intro hresult
    rw [hresult] at hanswer
    cases hanswer with
    | ok hv hpayload => exact ⟨_, hv, hpayload⟩
  · rintro ⟨payload, hv, hpayload⟩
    exact hanswer.eq_ok hv hpayload

/-- Blanks, an escape, a key that comes twice, one that is unknown, and the payload before the
type. -/
theorem decode_document_out_of_order :
    ∃ v, Document v ("\x7b \"payload\":\x7b\"code\":\"\",\"code\":\"\\u0078\"," ++
        "\"filename\":\"a\"\x7d,\t\"note\":[],\"type\":\"check\"\x7d").toList ∧
      decode ("\x7b \"payload\":\x7b\"code\":\"\",\"code\":\"\\u0078\"," ++
          "\"filename\":\"a\"\x7d,\t\"note\":[],\"type\":\"check\"\x7d") =
        .ok (.check { filename := "a", code := "x", flags := [], cacheDir := none }) := by
  have htab : ∀ text, Gap ('\t' :: text) text := fun text => ⟨['\t'], by simp [isSpace], rfl⟩
  have hspace : ∀ text, Gap (' ' :: text) text := fun text => ⟨[' '], by simp [isSpace], rfl⟩
  have hx : hexValue4? '0' '0' '7' '8' = some 'x'.toNat := by decide
  have hcode : ∀ rest, Spells 125 (.text "x")
      ('"' :: '\\' :: 'u' :: '0' :: '0' :: '7' :: '8' :: '"' :: rest) rest :=
    fun rest => .scalar (.text (.mk (.char (.hex hx) .close)))
  have hpayload : ∀ rest, Spells 126 (.object [("code", .text ""), ("code", .text "x"),
      ("filename", .text "a")]) ('{' :: (printText "code" ++ ':' :: (printText "" ++ ',' ::
        (printText "code" ++ ':' :: '"' :: '\\' :: 'u' :: '0' :: '0' :: '7' :: '8' :: '"' ::
          ',' :: (printText "filename" ++ ':' :: (printText "a" ++ '}' :: rest)))))) rest := by
    intro rest
    refine .object (.first (Gap.refl _)
      (entry_printText ((Value.Written.text "").spells _) "code") ?_)
    refine .next (Gap.refl _) (Gap.refl _) (entry_printText (hcode _) "code") ?_
    refine .next (Gap.refl _) (Gap.refl _)
      (entry_printText ((Value.Written.text "a").spells _) "filename") ?_
    exact .done (Gap.refl _)
  have hnote : ∀ rest, Spells 126 (.array []) ('[' :: ']' :: rest) rest :=
    fun rest => .array (.done (Gap.refl _))
  have hobject := Nested.object (.first (hspace _) (entry_printText (hpayload _) "payload")
    (.next (Gap.refl _) (htab _) (entry_printText (hnote _) "note")
      (.next (Gap.refl _) (Gap.refl _)
        (entry_printText ((Value.Written.text "check").spells _) "type")
        (.done (Gap.refl ('}' :: []))))))
  have hdocument : Document _ ("\x7b \"payload\":\x7b\"code\":\"\",\"code\":\"\\u0078\"," ++
      "\"filename\":\"a\"\x7d,\t\"note\":[],\"type\":\"check\"\x7d").toList :=
    ⟨_, _, Gap.refl _, hobject, Gap.refl _⟩
  have hcheck : CheckPayload (.object [("code", .text ""), ("code", .text "x"),
      ("filename", .text "a")]) { filename := "a", code := "x", flags := [], cacheDir := none } :=
    .object rfl rfl .absent .absent
  obtain ⟨-, -, -, -, hok⟩ := decode_document hdocument
  exact ⟨_, hdocument, (hok (.check _)).mpr ⟨_, .object (.text "check") (.one _), .check hcheck⟩⟩

end CheckWorker.Request
