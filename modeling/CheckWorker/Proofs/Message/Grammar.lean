import CheckWorker.Message.Request
import CheckWorker.Proofs.Json.Records

/-!
# The grammar of requests

Which documents are requests, told by the value that a document spells. The envelope is an object
in which the type and the payload stand at most once, or an array of one or two. The payload is an
object, of which the last value of each key counts, or an array; which values belong in it depends
on the type. What is read for the shapes of an envelope and of the payloads is just what these
relations say.
-/

namespace CheckWorker.Request

open Json

/-! ## Parts of a request -/

/-- What may be given for a text that may be left out: nothing, null or a text. -/
inductive MaybeText : List Value → Option String → Prop
  | absent : MaybeText [] none
  | null : MaybeText [.null] none
  | text (s : String) : MaybeText [.text s] (some s)

/-- What may be given for texts: nothing, which stands for none, or an array of texts. -/
inductive Texts : List Value → List String → Prop
  | absent : Texts [] []
  | array (ss : List String) : Texts [.array (ss.map .text)] ss

/-- What may be given for a value that may be left out: nothing, which stands for null, or it. -/
inductive AtMostOne : List Value → Value → Prop
  | absent : AtMostOne [] .null
  | one (v : Value) : AtMostOne [v] v

/-- A value is an envelope of a type, if it has one, and a payload. -/
inductive Envelope : Value → Option String → Value → Prop
  | object {entries : List (String × Value)} {type : Option String} {payload : Value} :
      MaybeText (given ["type"] entries) type → AtMostOne (given ["payload"] entries) payload →
        Envelope (.object entries) type payload
  | array {v : Value} {more : List Value} {type : Option String} {payload : Value} :
      MaybeText [v] type → AtMostOne more payload → Envelope (.array (v :: more)) type payload

/-- The values that stand last for each of some keys. -/
def lastOf (names : List String) (entries : List (String × Value)) : List Value :=
  names.filterMap (last entries)

/-- What may be given to an installation: nothing, or the version under one of its names. -/
inductive InitPayload : Value → Option String → Prop
  | null : InitPayload .null none
  | object {entries : List (String × Value)} {version : Option String} :
      MaybeText (lastOf ["engineVersion", "mypyVersion"] entries) version →
        InitPayload (.object entries) version
  | array {items : List Value} {version : Option String} :
      MaybeText items version → InitPayload (.array items) version

/-- What may be given to a check. In an array its parts come in order, and the last two may be left
out. -/
inductive CheckPayload : Value → Check → Prop
  | object {entries : List (String × Value)} {filename code : String} {flags : List String}
      {cacheDir : Option String} :
      last entries "filename" = some (.text filename) → last entries "code" = some (.text code) →
      Texts (lastOf ["engineFlags", "mypyFlags"] entries) flags →
      MaybeText (lastOf ["cacheDir"] entries) cacheDir →
        CheckPayload (.object entries) { filename, code, flags, cacheDir }
  | array {filename code : String} {more : List Value} {flags : List String}
      {cacheDir : Option String} :
      Texts (more.take 1) flags → MaybeText (more.drop 1) cacheDir →
        CheckPayload (.array (.text filename :: .text code :: more))
          { filename, code, flags, cacheDir }

/-- The payloads that go with the type of a request. -/
inductive Payload : Request → Value → Prop
  | init {version : Option String} {payload : Value} :
      InitPayload payload version → Payload (.init version) payload
  | warmup {payload : Value} : Payload .warmup payload
  | check {c : Check} {payload : Value} : CheckPayload payload c → Payload (.check c) payload

/-! ## Fields -/

section

variable {origin : Origin} {vs : List Value}

theorem required?_maybe_text_iff {t : Option String} :
    required? origin (.maybe .text) vs = some t ↔ MaybeText vs t := by
  constructor
  · intro h
    match vs with
    | [] =>
        cases h
        exact .absent
    | [.null] =>
        cases h
        exact .null
    | [.text s] =>
        cases h
        exact .text s
    | [.boolean _] => cases h
    | [.number _] => cases h
    | [.array _] => cases h
    | [.object _] => cases h
    | _ :: _ :: _ => cases h
  · intro h
    cases h <;> rfl

theorem required?_text_iff {s : String} :
    required? origin .text vs = some s ↔ vs = [.text s] := by
  constructor
  · intro h
    match vs with
    | [] => cases h
    | [v] =>
        cases v with
        | text s =>
            cases h
            rfl
        | _ => cases h
    | _ :: _ :: _ => cases h
  · rintro rfl
    rfl

theorem optional?_maybe_text_iff {t : Option String} :
    (∃ d, optional? origin (.maybe .text) vs = some d ∧ Option.join d = t) ↔ MaybeText vs t := by
  constructor
  · rintro ⟨d, h, rfl⟩
    match vs with
    | [] =>
        cases h
        exact .absent
    | [v] =>
        cases v with
        | null =>
            cases h
            exact .null
        | text s =>
            cases h
            exact .text s
        | _ => cases h
    | _ :: _ :: _ => cases h
  · intro h
    cases h with
    | absent => exact ⟨none, rfl, rfl⟩
    | null => exact ⟨some none, rfl, rfl⟩
    | text s => exact ⟨some (some s), rfl, rfl⟩

theorem optional?_anything_iff {payload : Value} :
    (∃ d, optional? origin .anything vs = some d ∧ Option.getD d Value.null = payload) ↔
      AtMostOne vs payload := by
  constructor
  · rintro ⟨d, h, rfl⟩
    match vs with
    | [] =>
        cases h
        exact .absent
    | [_] =>
        cases h
        exact .one _
    | _ :: _ :: _ => cases h
  · intro h
    cases h with
    | absent => exact ⟨none, rfl, rfl⟩
    | one => exact ⟨some payload, rfl, rfl⟩

theorem readEach_iff {read : Value → Except Cause String}
    (hread : ∀ v s, read v = .ok s ↔ v = .text s) {items : List Value} {ss : List String} :
    readEach read items = .ok ss ↔ items = ss.map .text := by
  constructor
  · intro h
    induction items generalizing ss with
    | nil =>
        cases h
        rfl
    | cons v items ih =>
        cases hv : read v with
        | error cause => simp [readEach, hv, bind, Except.bind] at h
        | ok s =>
            cases hitems : readEach read items with
            | error cause => simp [readEach, hv, hitems, bind, Except.bind] at h
            | ok ss' =>
                simp only [readEach, hv, hitems, bind, Except.bind, pure, Except.pure] at h
                cases h
                rw [(hread v s).mp hv, ih hitems]
                rfl
  · rintro rfl
    induction ss with
    | nil => rfl
    | cons s ss ih =>
        have hs : read (.text s) = .ok s := (hread _ s).mpr rfl
        simp [readEach, hs, ih, bind, Except.bind, pure, Except.pure]

theorem ofValue_text_iff {v : Value} {s : String} :
    Shape.ofValue origin .text v = .ok s ↔ v = .text s := by
  constructor
  · intro h
    cases v with
    | text s' =>
        cases h
        rfl
    | _ => cases h
  · rintro rfl
    rfl

theorem optional?_many_text_iff {ss : List String} :
    (∃ d, optional? origin (.many .text) vs = some d ∧ Option.getD d [] = ss) ↔ Texts vs ss := by
  constructor
  · rintro ⟨d, h, rfl⟩
    match vs with
    | [] =>
        cases h
        exact .absent
    | [.array items] =>
        obtain ⟨ss, hss, rfl⟩ := Option.map_eq_some_iff.mp h
        rw [toOption_eq_some_iff] at hss
        obtain rfl := (readEach_iff fun _ _ => ofValue_text_iff).mp hss
        exact .array ss
    | [.null] => cases h
    | [.boolean _] => cases h
    | [.number _] => cases h
    | [.text _] => cases h
    | [.object _] => cases h
    | _ :: _ :: _ => cases h
  · intro h
    cases h with
    | absent => exact ⟨none, rfl, rfl⟩
    | array ss =>
        have hread : readEach (Shape.ofValue origin .text) (ss.map .text) = .ok ss :=
          (readEach_iff fun _ _ => ofValue_text_iff).mpr rfl
        exact ⟨some ss, congrArg (fun x => (Except.toOption x).map some) hread, rfl⟩

end

/-! ## The envelope -/

theorem given_payload (entries : List (String × Value)) :
    given ["payload"] (without ["type"] entries) = given ["payload"] entries :=
  given_without (by decide)

/-- What is read for the fields of an envelope. -/
theorem envelope_iff {origin : Origin} {v : Value} {type : Option String} {payload : Value} :
    (∃ p, (envelopeShape.ofValue origin v).toOption = some (type, p, ()) ∧
      Option.getD p Value.null = payload) ↔ Envelope v type payload := by
  cases v with
  | object entries =>
      have hobject : (envelopeShape.ofValue origin (.object entries)).toOption = _ :=
        toOption_ofValue_object origin "Envelope" _ entries
      constructor
      · rintro ⟨p, h, hp⟩
        obtain ⟨htype, hrest⟩ := ofEntries?_required_iff.mp (hobject.symm.trans h)
        obtain ⟨hpayload, -⟩ := ofEntries?_optional_iff.mp hrest
        rw [given_payload] at hpayload
        exact .object (required?_maybe_text_iff.mp htype)
          (optional?_anything_iff.mp ⟨p, hpayload, hp⟩)
      · rintro ⟨htype, hpayload⟩
        obtain ⟨p, hpayload, hp⟩ := optional?_anything_iff.mpr hpayload
        refine ⟨p, hobject.trans ?_, hp⟩
        refine ofEntries?_required_iff.mpr ⟨required?_maybe_text_iff.mpr htype, ?_⟩
        refine ofEntries?_optional_iff.mpr ⟨?_, rfl⟩
        rw [given_payload]
        exact hpayload
  | array items =>
      cases items with
      | nil =>
          constructor
          · rintro ⟨p, h, -⟩
            cases h
          · intro h
            cases h
      | cons v more =>
          constructor
          · rintro ⟨p, h, hp⟩
            obtain ⟨htype, hrest⟩ := ofItems_required_iff.mp h
            exact .array (required?_maybe_text_iff.mp htype)
              (optional?_anything_iff.mp ⟨p, ofItems_last_iff.mp hrest, hp⟩)
          · intro h
            cases h with
            | array htype hmore =>
                obtain ⟨p, hpayload, hp⟩ := optional?_anything_iff.mpr hmore
                exact ⟨p, ofItems_required_iff.mpr
                  ⟨required?_maybe_text_iff.mpr htype, ofItems_last_iff.mpr hpayload⟩, hp⟩
  | _ =>
      constructor
      · rintro ⟨p, h, -⟩
        cases h
      · intro h
        cases h

theorem toOption_envelope {line : String} {v : Value} (h : Document v line.toList) :
    (envelopeShape.ofText line).toOption = (envelopeShape.ofValue .settled v).toOption := by
  have hshape : envelopeShape.Wordless := ⟨trivial, trivial, trivial⟩
  exact Shape.toOption_ofText hshape h .settled

/-! ## Payloads -/

theorem settleItems_eq_map (items : List Value) : settleItems items = items.map Value.settle := by
  induction items with
  | nil => rfl
  | cons v items ih => rw [settleItems, ih, List.map_cons]

theorem settleItems_map_text (ss : List String) :
    settleItems (ss.map .text) = ss.map .text := by
  rw [settleItems_eq_map, List.map_map]
  rfl

theorem eq_text_of_settle {v : Value} {s : String} (h : v.settle = .text s) : v = .text s := by
  cases v with
  | text s' => exact h
  | _ => simp [Value.settle] at h

theorem eq_map_text_of_settleItems {items : List Value} {ss : List String}
    (h : settleItems items = ss.map .text) : items = ss.map .text := by
  induction items generalizing ss with
  | nil => exact h
  | cons v items ih =>
      cases ss with
      | nil => cases h
      | cons s ss =>
          obtain ⟨hv, hitems⟩ := List.cons.inj h
          rw [eq_text_of_settle hv, ih hitems]
          rfl

theorem eq_null_of_settle {v : Value} (h : v.settle = .null) : v = .null := by
  cases v with
  | null => rfl
  | _ => simp [Value.settle] at h

theorem eq_array_of_settle {v : Value} {ss : List String} (h : v.settle = .array (ss.map .text)) :
    v = .array (ss.map .text) := by
  cases v with
  | array items =>
      simp only [Value.settle, Value.array.injEq] at h
      rw [eq_map_text_of_settleItems h]
  | _ => simp [Value.settle] at h

theorem eq_singleton_of_map {f : Value → Value} {vs : List Value} {w : Value}
    (h : vs.map f = [w]) : ∃ v, vs = [v] ∧ f v = w := by
  obtain ⟨v, rest, rfl, hv, hrest⟩ := List.map_eq_cons_iff.mp h
  rw [List.map_eq_nil_iff.mp hrest]
  exact ⟨v, rfl, hv⟩

theorem maybeText_settle_iff {vs : List Value} {t : Option String} :
    MaybeText (vs.map Value.settle) t ↔ MaybeText vs t := by
  constructor
  · intro h
    generalize hsettled : vs.map Value.settle = settled at h
    cases h with
    | absent =>
        rw [List.map_eq_nil_iff.mp hsettled]
        exact .absent
    | null =>
        obtain ⟨v, rfl, hv⟩ := eq_singleton_of_map hsettled
        rw [eq_null_of_settle hv]
        exact .null
    | text s =>
        obtain ⟨v, rfl, hv⟩ := eq_singleton_of_map hsettled
        rw [eq_text_of_settle hv]
        exact .text s
  · intro h
    cases h with
    | absent => exact .absent
    | null => exact .null
    | text s => exact .text s

theorem texts_settle_iff {vs : List Value} {ss : List String} :
    Texts (vs.map Value.settle) ss ↔ Texts vs ss := by
  constructor
  · intro h
    generalize hsettled : vs.map Value.settle = settled at h
    cases h with
    | absent =>
        rw [List.map_eq_nil_iff.mp hsettled]
        exact .absent
    | array ss =>
        obtain ⟨v, rfl, hv⟩ := eq_singleton_of_map hsettled
        rw [eq_array_of_settle hv]
        exact .array ss
  · intro h
    cases h with
    | absent => exact .absent
    | array ss =>
        rw [List.map_singleton, Value.settle, settleItems_map_text]
        exact .array ss

theorem MaybeText.length_le {vs : List Value} {t : Option String} (h : MaybeText vs t) :
    vs.length ≤ 1 := by
  cases h <;> simp

theorem Texts.length_le {vs : List Value} {ss : List String} (h : Texts vs ss) :
    vs.length ≤ 1 := by
  cases h <;> simp

theorem eq_of_perm {vs vs' : List Value} (h : vs.Perm vs') (hlength : vs.length ≤ 1) :
    vs = vs' := by
  match vs with
  | [] => exact (List.nil_perm.mp h).symm
  | [_] => exact (List.perm_singleton.mp h.symm).symm
  | _ :: _ :: _ => simp at hlength

section

variable {names : List String} {entries : List (String × Value)}

/-- Of settled entries each key gives its last value. Where that is one value at most, the order of
the keys does not count. -/
theorem given_settleEntries_iff {Q : List Value → Prop} (hnames : names.Nodup)
    (hlength : ∀ {vs}, Q vs → vs.length ≤ 1) (hsettle : ∀ {vs}, Q (vs.map Value.settle) ↔ Q vs) :
    Q (given names (settleEntries entries)) ↔ Q (lastOf names entries) := by
  have hperm := given_settleEntries entries hnames
  constructor
  · intro h
    rw [eq_of_perm hperm (hlength h)] at h
    exact hsettle.mp h
  · intro h
    have hlast := hsettle.mpr h
    rw [← eq_of_perm hperm.symm (hlength hlast)]
    exact hlast

theorem maybeText_given_settleEntries (hnames : names.Nodup) {t : Option String} :
    MaybeText (given names (settleEntries entries)) t ↔ MaybeText (lastOf names entries) t :=
  given_settleEntries_iff (Q := (MaybeText · t)) hnames MaybeText.length_le maybeText_settle_iff

theorem texts_given_settleEntries (hnames : names.Nodup) {ss : List String} :
    Texts (given names (settleEntries entries)) ss ↔ Texts (lastOf names entries) ss :=
  given_settleEntries_iff (Q := (Texts · ss)) hnames Texts.length_le texts_settle_iff

theorem given_settleEntries_eq_text_iff {n s : String} :
    given [n] (settleEntries entries) = [.text s] ↔ last entries n = some (.text s) := by
  have hnames : [n].Nodup := by simp
  have hsettle : ∀ {vs : List Value}, vs.map Value.settle = [.text s] ↔ vs = [.text s] := by
    intro vs
    constructor
    · intro h
      obtain ⟨v, rfl, hv⟩ := eq_singleton_of_map h
      rw [eq_text_of_settle hv]
    · rintro rfl
      rfl
  have hlast : lastOf [n] entries = [.text s] ↔ last entries n = some (.text s) := by
    cases h : last entries n <;> simp [lastOf, h]
  have hlength : ∀ {vs : List Value}, vs = [.text s] → vs.length ≤ 1 := by
    rintro _ rfl
    exact Nat.le_refl 1
  exact (given_settleEntries_iff (Q := (· = [.text s])) hnames hlength hsettle).trans hlast

end

theorem init_iff {payload : Value} (hpayload : payload ≠ .null) {version : Option String} :
    (∃ d, (initShape.ofValue .settled payload.settle).toOption = some d ∧
      initOfData d = version) ↔ InitPayload payload version := by
  cases payload with
  | object entries =>
      have hobject : (initShape.ofValue .settled (Value.object entries).settle).toOption = _ :=
        toOption_ofValue_object .settled "InitPayload" _ (settleEntries entries)
      have hnames : ["engineVersion", "mypyVersion"].Nodup := by decide
      constructor
      · rintro ⟨⟨d, ⟨⟩⟩, h, hd⟩
        obtain ⟨hversion, -⟩ := ofEntries?_optional_iff.mp (hobject.symm.trans h)
        have hgiven := optional?_maybe_text_iff.mp ⟨d, hversion, hd⟩
        exact .object ((maybeText_given_settleEntries hnames).mp hgiven)
      · intro h
        cases h with
        | object h =>
            have hgiven := (maybeText_given_settleEntries hnames).mpr h
            obtain ⟨d, hversion, hd⟩ := optional?_maybe_text_iff.mpr hgiven
            exact ⟨(d, ()), hobject.trans (ofEntries?_optional_iff.mpr ⟨hversion, rfl⟩), hd⟩
  | array items =>
      constructor
      · rintro ⟨⟨d, ⟨⟩⟩, h, hd⟩
        have hitems := optional?_maybe_text_iff.mp ⟨d, ofItems_last_iff.mp h, hd⟩
        rw [settleItems_eq_map] at hitems
        exact .array (maybeText_settle_iff.mp hitems)
      · intro h
        cases h with
        | array h =>
            have hitems := maybeText_settle_iff.mpr h
            rw [← settleItems_eq_map] at hitems
            obtain ⟨d, hversion, hd⟩ := optional?_maybe_text_iff.mpr hitems
            exact ⟨(d, ()), ofItems_last_iff.mpr hversion, hd⟩
  | null => exact absurd rfl hpayload
  | _ =>
      constructor
      · rintro ⟨d, h, -⟩
        cases h
      · intro h
        cases h

/-- What is read of the settled object of a check, each field in its own place. -/
theorem toOption_check_object_iff {entries : List (String × Value)} {d : checkShape.Data} :
    (checkShape.ofValue .settled (Value.object entries).settle).toOption = some d ↔
      given ["filename"] (settleEntries entries) = [.text d.1] ∧
      given ["code"] (settleEntries entries) = [.text d.2.1] ∧
      optional? .settled (.many .text) (given ["engineFlags", "mypyFlags"]
        (settleEntries entries)) = some d.2.2.1 ∧
      optional? .settled (.maybe .text) (given ["cacheDir"] (settleEntries entries)) =
        some d.2.2.2.1 := by
  have hobject : (checkShape.ofValue .settled (Value.object entries).settle).toOption = _ :=
    toOption_ofValue_object .settled "CheckRequest" _ (settleEntries entries)
  obtain ⟨filename, code, flags, cacheDir, ⟨⟩⟩ := d
  rw [hobject]
  constructor
  · intro h
    obtain ⟨hfilename, h⟩ := ofEntries?_required_iff.mp h
    obtain ⟨hcode, h⟩ := ofEntries?_required_iff.mp h
    obtain ⟨hflags, h⟩ := ofEntries?_optional_iff.mp h
    obtain ⟨hcache, -⟩ := ofEntries?_optional_iff.mp h
    simp (disch := decide) only [given_without] at hcode hflags hcache
    exact ⟨required?_text_iff.mp hfilename, required?_text_iff.mp hcode, hflags, hcache⟩
  · rintro ⟨hfilename, hcode, hflags, hcache⟩
    refine ofEntries?_required_iff.mpr ⟨required?_text_iff.mpr hfilename, ?_⟩
    refine ofEntries?_required_iff.mpr ⟨?_, ofEntries?_optional_iff.mpr ⟨?_,
      ofEntries?_optional_iff.mpr ⟨?_, rfl⟩⟩⟩
    all_goals simp (disch := decide) only [given_without]
    · exact required?_text_iff.mpr hcode
    · exact hflags
    · exact hcache

theorem check_object_iff {entries : List (String × Value)} {c : Check} :
    (∃ d, (checkShape.ofValue .settled (Value.object entries).settle).toOption = some d ∧
      checkOfData d = c) ↔ CheckPayload (.object entries) c := by
  have hnames : ["engineFlags", "mypyFlags"].Nodup := by decide
  have hname : ["cacheDir"].Nodup := by decide
  constructor
  · rintro ⟨d, h, rfl⟩
    obtain ⟨hfilename, hcode, hflags, hcache⟩ := toOption_check_object_iff.mp h
    have htexts := optional?_many_text_iff.mp ⟨_, hflags, rfl⟩
    have htext := optional?_maybe_text_iff.mp ⟨_, hcache, rfl⟩
    exact .object (given_settleEntries_eq_text_iff.mp hfilename)
      (given_settleEntries_eq_text_iff.mp hcode) ((texts_given_settleEntries hnames).mp htexts)
      ((maybeText_given_settleEntries hname).mp htext)
  · intro h
    cases h with
    | object hfilename hcode htexts htext =>
        obtain ⟨flags, hflags, rfl⟩ :=
          optional?_many_text_iff.mpr ((texts_given_settleEntries hnames).mpr htexts)
        obtain ⟨cacheDir, hcache, rfl⟩ :=
          optional?_maybe_text_iff.mpr ((maybeText_given_settleEntries hname).mpr htext)
        exact ⟨(_, _, flags, cacheDir, ()), toOption_check_object_iff.mpr
          ⟨given_settleEntries_eq_text_iff.mpr hfilename,
            given_settleEntries_eq_text_iff.mpr hcode, hflags, hcache⟩, rfl⟩

/-- What is read of the settled array of a check: its two texts, and what follows them. -/
theorem toOption_check_array_iff {v w : Value} {more : List Value} {d : checkShape.Data} :
    (checkShape.ofValue .settled (Value.array (v :: w :: more)).settle).toOption = some d ↔
      v = .text d.1 ∧ w = .text d.2.1 ∧
      optional? .settled (.many .text) ((more.take 1).map Value.settle) = some d.2.2.1 ∧
      optional? .settled (.maybe .text) ((more.drop 1).map Value.settle) = some d.2.2.2.1 := by
  obtain ⟨filename, code, flags, cacheDir, ⟨⟩⟩ := d
  rw [List.map_take, List.map_drop, ← settleItems_eq_map]
  constructor
  · intro h
    obtain ⟨hv, h⟩ := ofItems_required_iff.mp h
    obtain ⟨hw, h⟩ := ofItems_required_iff.mp h
    obtain ⟨hflags, h⟩ := ofItems_optional_iff.mp h
    exact ⟨eq_text_of_settle (ofValue_text_iff.mp (toOption_eq_some_iff.mp hv)),
      eq_text_of_settle (ofValue_text_iff.mp (toOption_eq_some_iff.mp hw)), hflags,
      ofItems_last_iff.mp h⟩
  · rintro ⟨rfl, rfl, hflags, hcache⟩
    refine ofItems_required_iff.mpr ⟨rfl, ofItems_required_iff.mpr ⟨rfl, ?_⟩⟩
    exact ofItems_optional_iff.mpr ⟨hflags, ofItems_last_iff.mpr hcache⟩

theorem check_array_iff {items : List Value} {c : Check} :
    (∃ d, (checkShape.ofValue .settled (Value.array items).settle).toOption = some d ∧
      checkOfData d = c) ↔ CheckPayload (.array items) c := by
  constructor
  · rintro ⟨d, h, rfl⟩
    match items with
    | [] => cases h
    | [v] =>
        obtain ⟨-, h⟩ := ofItems_required_iff.mp h
        cases h
    | v :: w :: more =>
        obtain ⟨rfl, rfl, hflags, hcache⟩ := toOption_check_array_iff.mp h
        have htexts := optional?_many_text_iff.mp ⟨_, hflags, rfl⟩
        have htext := optional?_maybe_text_iff.mp ⟨_, hcache, rfl⟩
        exact .array (texts_settle_iff.mp htexts) (maybeText_settle_iff.mp htext)
  · intro h
    cases h with
    | array htexts htext =>
        obtain ⟨flags, hflags, rfl⟩ := optional?_many_text_iff.mpr (texts_settle_iff.mpr htexts)
        obtain ⟨cacheDir, hcache, rfl⟩ :=
          optional?_maybe_text_iff.mpr (maybeText_settle_iff.mpr htext)
        exact ⟨(_, _, flags, cacheDir, ()),
          toOption_check_array_iff.mpr ⟨rfl, rfl, hflags, hcache⟩, rfl⟩

theorem check_iff {payload : Value} {c : Check} :
    (∃ d, (checkShape.ofValue .settled payload.settle).toOption = some d ∧
      checkOfData d = c) ↔ CheckPayload payload c := by
  cases payload with
  | object entries => exact check_object_iff
  | array items => exact check_array_iff
  | _ =>
      constructor
      · rintro ⟨d, h, -⟩
        cases h
      · intro h
        cases h

end CheckWorker.Request
