import CheckWorker.Proofs.Json.Agreement
import CheckWorker.Proofs.Json.PassedOver

/-!
# Only what has the form of JSON is read

Whatever is read as data of a shape has the form of a value, with what is passed over on the way. So
only a text that has the form of JSON as a whole is read as data of any shape.
-/

namespace CheckWorker.Json

/-! ## Items and entries -/

section

variable {σ : Type} {first : Bool} {text more rest : List Char}

theorem nextItem_cases {isMore : Bool} (h : nextItem first text = .ok (isMore, rest)) :
    (isMore = false ∧ Gap text (']' :: rest)) ∨ (isMore = true ∧ Parted first text rest) := by
  unfold nextItem at h
  split at h
  case h_1 => cases h
  case h_2 c behind hskip =>
    have hgap := gap_of_skipSpace hskip
    split at h
    case isTrue hc =>
      cases h
      exact .inl ⟨rfl, hc ▸ hgap⟩
    case isFalse =>
      cases first with
      | true =>
          cases h
          exact .inr ⟨rfl, hgap⟩
      | false =>
          simp only [Bool.false_eq_true, if_false] at h
          split at h
          case isFalse => cases h
          case isTrue hc =>
            split at h
            case h_1 => cases h
            case h_2 d inner hinner =>
              split at h
              case isTrue => cases h
              case isFalse =>
                cases h
                exact .inr ⟨rfl, behind, hc ▸ hgap, gap_of_skipSpace hinner⟩

theorem within_of_nextItem (h : nextItem first text = .ok (true, more)) {behind : List Char}
    (hitem : Begins more behind) (hmore : Bracket.array.Within false behind rest) :
    Bracket.array.Within first text rest := by
  obtain ⟨core, hgap, hform⟩ := hitem
  rcases nextItem_cases h with ⟨hnone, -⟩ | ⟨-, hparted⟩
  · cases hnone
  · exact .cons (hparted.trans hgap) hform hmore

theorem within_of_nextItem_end (h : nextItem first text = .ok (false, rest)) :
    Bracket.array.Within first text rest := by
  rcases nextItem_cases h with ⟨-, hgap⟩ | ⟨hsome, -⟩
  · exact .done hgap
  · cases hsome

/-- Items that are each read from the form of a value have the form of items. -/
theorem within_of_foldItems {step : σ → Reader σ}
    (hstep : ∀ {s text s' rest}, step s text = .ok (s', rest) → Begins text rest)
    {rounds : List Char} {s s' : σ} (h : foldItems step rounds first s text = .ok (s', rest)) :
    Bracket.array.Within first text rest := by
  induction rounds generalizing first s text with
  | nil => cases h
  | cons _ rounds ih =>
      obtain ⟨⟨isMore, behind⟩, hnext, h⟩ := exists_of_bind_ok h
      cases isMore with
      | false =>
          cases h
          exact within_of_nextItem_end hnext
      | true =>
          obtain ⟨⟨s'', left⟩, hitem, h⟩ := exists_of_bind_ok h
          exact within_of_nextItem hnext (hstep hitem) (ih h)

theorem nextKey_cases {key : Option String} (h : nextKey first text = .ok (key, rest)) :
    (key = none ∧ Gap text ('}' :: rest)) ∨
      ∃ k chars, key = some k ∧ Parted first text ('"' :: chars) ∧ RawChars chars rest := by
  unfold nextKey at h
  split at h
  case h_1 => cases h
  case h_2 c behind hskip =>
    have hgap := gap_of_skipSpace hskip
    split at h
    case isTrue hc =>
      cases h
      exact .inl ⟨rfl, hc ▸ hgap⟩
    case isFalse =>
      cases first with
      | true =>
          simp only [if_true] at h
          split at h
          case isFalse => cases h
          case isTrue hc =>
            obtain ⟨⟨k, left⟩, hkey, hread⟩ := exists_of_map_ok h
            cases hread
            exact .inr ⟨k, behind, rfl, hc ▸ hgap, rawChars_of_takeText hkey⟩
      | false =>
          simp only [Bool.false_eq_true, if_false] at h
          split at h
          case isFalse => cases h
          case isTrue hc =>
            split at h
            case h_1 => cases h
            case h_2 d inner hinner =>
              split at h
              case isTrue hd =>
                obtain ⟨⟨k, left⟩, hkey, hread⟩ := exists_of_map_ok h
                cases hread
                exact .inr ⟨k, inner, rfl, ⟨behind, hc ▸ hgap, gap_of_skipSpace (hd ▸ hinner)⟩,
                  rawChars_of_takeText hkey⟩
              case isFalse =>
                split at h
                case isTrue => cases h
                case isFalse => cases h

/-- Entries that are each read from the form of an entry have the form of entries. -/
theorem within_of_foldEntries {step : String → σ → Reader σ}
    (hstep : ∀ {k s text s' rest}, step k s text = .ok (s', rest) → BeginsKeyed text rest)
    {rounds : List Char} {s s' : σ} (h : foldEntries step rounds first s text = .ok (s', rest)) :
    Bracket.object.Within first text rest := by
  induction rounds generalizing first s text with
  | nil => cases h
  | cons _ rounds ih =>
      obtain ⟨⟨key, behind⟩, hnext, h⟩ := exists_of_bind_ok h
      rcases nextKey_cases hnext with ⟨rfl, hgap⟩ | ⟨k, chars, rfl, hparted, hchars⟩
      · cases h
        exact .done hgap
      · obtain ⟨⟨s'', left⟩, hentry, h⟩ := exists_of_bind_ok h
        exact .cons hparted ((hstep hentry).entry hchars) (ih h)

theorem gap_of_closeArray (h : closeArray text = .ok rest) : Gap text (']' :: rest) := by
  unfold closeArray at h
  split at h
  case h_1 => cases h
  case h_2 c behind hskip =>
    split at h
    case isTrue hc =>
      cases h
      exact gap_of_skipSpace (hc ▸ hskip)
    case isFalse =>
      split at h
      case isTrue =>
        split at h
        case h_1 => cases h
        case h_2 => cases h
      case isFalse => cases h

end

/-! ## Readers -/

section

variable {α β γ σ : Type}

/-- What a reader reads has the form of a value. -/
def Reader.Accepts (reader : Reader α) : Prop :=
  ∀ {text a rest}, reader text = .ok (a, rest) → Begins text rest

/-- What is read behind the key of a field has the form of the rest of an entry. -/
def SlotsAccept (read : σ → List Char → Option (Except Failure (σ × List Char))) : Prop :=
  ∀ {slots slots' text rest}, read slots text = some (.ok (slots', rest)) → BeginsKeyed text rest

/-- What is read of an array has the form of the rest of one. -/
def ItemsAccept (read : Nat → Reader α) : Prop :=
  ∀ {taken text a rest}, read taken text = .ok (a, rest) →
    Bracket.array.Within (taken == 0) text rest

theorem begins_of_rawScalar {text core rest : List Char} (hskip : skipSpace text = core)
    (h : RawScalar core rest) : Begins text rest :=
  ⟨core, gap_of_skipSpace hskip, h.formed⟩

theorem exists_of_readText {expected s : String} {text rest : List Char}
    (h : readText expected text = .ok (s, rest)) :
    ∃ chars, Gap text ('"' :: chars) ∧ RawChars chars rest := by
  unfold readText at h
  split at h
  case h_1 chars hskip => exact ⟨chars, gap_of_skipSpace hskip, rawChars_of_takeText h⟩
  case h_2 => cases h

theorem accepts_text (expected : String) : (readText expected).Accepts := by
  intro text s rest h
  obtain ⟨chars, hgap, hchars⟩ := exists_of_readText h
  exact ⟨_, hgap, (RawScalar.text hchars).formed⟩

theorem accepts_flag : readFlag.Accepts := by
  intro text b rest h
  unfold readFlag at h
  split at h
  case h_1 behind hskip =>
    obtain ⟨_, htake, hread⟩ := exists_of_map_ok h
    cases hread
    rw [eq_append_of_takeWord htake] at hskip
    exact begins_of_rawScalar hskip .yes
  case h_2 behind hskip =>
    obtain ⟨_, htake, hread⟩ := exists_of_map_ok h
    cases hread
    rw [eq_append_of_takeWord htake] at hskip
    exact begins_of_rawScalar hskip .no
  case h_3 => cases h

theorem eq_of_place {text rest : List Char} {x : Except Cause α} {a : α}
    (h : place text x = .ok (a, rest)) : text = rest := by
  cases x with
  | error cause => cases h
  | ok b =>
      cases h
      rfl

theorem accepts_whole (width : Width) : (readWhole? width).Accepts := by
  intro text n rest h
  unfold readWhole? at h
  split at h
  case h_1 behind hskip =>
    obtain ⟨⟨m, left⟩, htake, h⟩ := exists_of_bind_ok h
    obtain rfl := eq_of_place h
    exact begins_of_rawScalar hskip
      (rawScalar_of_skipNumber_minus (skipNumber_of_takeNumber htake))
  case h_2 c behind _ hskip =>
    split at h
    case isTrue =>
      obtain ⟨⟨m, left⟩, htake, h⟩ := exists_of_bind_ok h
      obtain rfl := eq_of_place h
      exact begins_of_rawScalar hskip (rawScalar_of_skipNumber (skipNumber_of_takeNumber htake))
    case isFalse => cases h
  case h_3 => cases h

theorem begins_of_readNull {expected : String} {text rest : List Char}
    (h : readNull expected text = .ok rest) : Begins text rest := by
  unfold readNull at h
  split at h
  case h_1 behind hskip =>
    rw [eq_append_of_takeWord h] at hskip
    exact begins_of_rawScalar hskip .null
  case h_2 => cases h

theorem accepts_maybe {reader : Reader α} (hreader : reader.Accepts) :
    (readMaybe reader).Accepts := by
  intro text d rest h
  unfold readMaybe at h
  split at h
  case h_1 behind hskip =>
    obtain ⟨_, htake, hread⟩ := exists_of_map_ok h
    cases hread
    rw [eq_append_of_takeWord htake] at hskip
    exact begins_of_rawScalar hskip .null
  case h_2 =>
    obtain ⟨_, htake, hread⟩ := exists_of_map_ok h
    cases hread
    exact (gap_skipSpace text).begins (hreader htake)

theorem accepts_value (depth : Nat) : (readValue depth).Accepts := by
  induction depth with
  | zero =>
      intro text v rest h
      unfold readValue at h
      split at h
      case h_1 => cases h
      case h_2 => cases h
      case h_3 => exact begins_of_rawScalar rfl (rawScalar_of_readScalar h)
  | succ depth ih =>
      intro text v rest h
      unfold readValue at h
      split at h
      case h_1 body hskip =>
        obtain ⟨⟨done, left⟩, hfold, h⟩ := exists_of_bind_ok h
        cases h
        refine ⟨_, gap_of_skipSpace hskip, formed_array (within_of_foldItems ?_ hfold)⟩
        intro s text s' rest hstep
        obtain ⟨⟨v, left⟩, hread, hstep⟩ := exists_of_bind_ok hstep
        cases hstep
        exact ih hread
      case h_2 body hskip =>
        obtain ⟨⟨done, left⟩, hfold, h⟩ := exists_of_bind_ok h
        cases h
        refine ⟨_, gap_of_skipSpace hskip, formed_object (within_of_foldEntries ?_ hfold)⟩
        intro k s text s' rest hstep
        obtain ⟨behind, hcolon, hstep⟩ := exists_of_bind_ok hstep
        obtain ⟨⟨v, left⟩, hread, hstep⟩ := exists_of_bind_ok hstep
        cases hstep
        exact ⟨behind, gap_of_takeColon hcolon, ih hread⟩
      case h_3 => exact begins_of_rawScalar rfl (rawScalar_of_readScalar h)

theorem accepts_many {reader : Nat → Reader α} (hreader : ∀ depth, (reader depth).Accepts)
    (depth : Nat) : (readMany depth reader).Accepts := by
  intro text ds rest h
  unfold readMany at h
  split at h
  case h_1 body hskip =>
    cases depth with
    | zero => cases h
    | succ depth =>
        obtain ⟨⟨done, left⟩, hfold, h⟩ := exists_of_bind_ok h
        cases h
        refine ⟨_, gap_of_skipSpace hskip, formed_array (within_of_foldItems ?_ hfold)⟩
        intro s text s' rest hstep
        obtain ⟨⟨v, left⟩, hread, hstep⟩ := exists_of_bind_ok hstep
        cases hstep
        exact hreader depth hread
  case h_2 => cases h

theorem exists_of_readWord {words : List String} {i : Fin words.length} {text rest : List Char}
    (h : readWord words text = .ok (i, rest)) :
    ∃ chars, Gap text ('"' :: chars) ∧ RawChars chars rest := by
  obtain ⟨⟨s, left⟩, hread, h⟩ := exists_of_bind_ok h
  obtain rfl := eq_of_place h
  exact exists_of_readText hread

theorem accepts_choice (words : List String) (depth : Nat) : (readChoice words depth).Accepts := by
  intro text i rest h
  unfold readChoice at h
  split at h
  case h_1 body hskip =>
    split at h
    case isTrue => cases h
    case isFalse =>
      obtain ⟨⟨j, colon⟩, hword, h⟩ := exists_of_bind_ok h
      obtain ⟨behind, hcolon, h⟩ := exists_of_bind_ok h
      obtain ⟨left, hnull, h⟩ := exists_of_bind_ok h
      obtain ⟨chars, hgap, hchars⟩ := exists_of_readWord hword
      split at h
      case h_1 inner hclose =>
        cases h
        have hvalue : BeginsKeyed colon left :=
          ⟨behind, gap_of_takeColon hcolon, begins_of_readNull hnull⟩
        refine ⟨_, gap_of_skipSpace hskip, formed_object ?_⟩
        have hparted : Parted true body ('"' :: chars) := hgap
        exact .cons hparted (hvalue.entry hchars) (.done (gap_of_skipSpace hclose))
      case h_2 => cases h
      case h_3 => cases h
  case h_2 chars hskip =>
    obtain ⟨chars', hgap, hchars⟩ := exists_of_readWord h
    exact ⟨_, (gap_of_skipSpace hskip).trans hgap, (RawScalar.text hchars).formed⟩
  case h_3 => cases h

/-! ## Records -/

theorem slotsAccept_field {named : Prop} [Decidable named] {name : String} {reader : Reader α}
    {others : σ → List Char → Option (Except Failure (σ × List Char))}
    (hreader : reader.Accepts) (hothers : SlotsAccept others) :
    SlotsAccept (readField named name reader others) := by
  rintro ⟨slot, slots⟩ slots' text rest h
  by_cases hnamed : named
  · simp only [readField, hnamed, if_true] at h
    cases slot with
    | some d => cases h
    | none =>
        obtain ⟨behind, hcolon, h⟩ := exists_of_bind_ok (Option.some.inj h)
        obtain ⟨⟨d, left⟩, hread, h⟩ := exists_of_bind_ok h
        cases h
        exact ⟨behind, gap_of_takeColon hcolon, hreader hread⟩
  · simp only [readField, hnamed, if_false] at h
    obtain ⟨result, hread, hmap⟩ := Option.map_eq_some_iff.mp h
    obtain ⟨⟨slots'', left⟩, rfl, h⟩ := exists_of_map_ok hmap
    cases h
    exact hothers hread

theorem itemsAccept_item {reader : Reader α} {others : Nat → Reader β} {pair : α → β → γ}
    {absent : Nat → List Char → Except Failure (γ × List Char)} (hreader : reader.Accepts)
    (hothers : ItemsAccept others)
    (habsent : ∀ {taken text c rest}, absent taken text = .ok (c, rest) → text = rest) :
    ItemsAccept (readItem reader others pair absent) := by
  intro taken text c rest h
  obtain ⟨⟨isMore, behind⟩, hnext, h⟩ := exists_of_bind_ok h
  cases isMore with
  | true =>
      obtain ⟨⟨d, left⟩, hread, h⟩ := exists_of_bind_ok h
      obtain ⟨⟨ds, left'⟩, hmore, h⟩ := exists_of_bind_ok h
      cases h
      exact within_of_nextItem hnext (hreader hread) (hothers hmore)
  | false =>
      obtain rfl := habsent h
      exact within_of_nextItem_end hnext

theorem accepts_record {name : String} {fields : Fields}
    (hslots : ∀ depth key, SlotsAccept (fields.readSlot depth key))
    (hitems : ∀ depth expected, ItemsAccept (fields.readItems depth expected)) (depth : Nat) :
    (Shape.read (.record name fields) depth).Accepts := by
  intro text ds rest h
  unfold Shape.read at h
  split at h
  case h_1 body hskip =>
    cases depth with
    | zero => cases h
    | succ depth => exact ⟨_, gap_of_skipSpace hskip, formed_array (hitems depth _ h)⟩
  case h_2 body hskip =>
    cases depth with
    | zero => cases h
    | succ depth =>
        obtain ⟨⟨slots, left⟩, hfold, h⟩ := exists_of_bind_ok h
        obtain rfl := eq_of_place h
        refine ⟨_, gap_of_skipSpace hskip, formed_object (within_of_foldEntries ?_ hfold)⟩
        intro k slots text slots' rest hstep
        split at hstep
        case h_1 result hread =>
          rw [hstep] at hread
          exact hslots depth k hread
        case h_2 =>
          obtain ⟨behind, hcolon, hstep⟩ := exists_of_bind_ok hstep
          obtain ⟨left, hvalue, hstep⟩ := exists_of_bind_ok hstep
          cases hstep
          exact ⟨behind, gap_of_takeColon hcolon, begins_of_skipValue hvalue⟩
  case h_3 => cases h

end

mutual

/-- Whatever data of a shape is read from has the form of a value. -/
theorem Shape.accepts : (shape : Shape) → ∀ depth, Reader.Accepts (shape.read depth)
  | .text, _ => accepts_text "a string"
  | .flag, _ => accepts_flag
  | .whole width, _ => accepts_whole width
  | .maybe shape, depth => accepts_maybe (shape.accepts depth)
  | .many shape, depth => accepts_many shape.accepts depth
  | .anything, depth => accepts_value depth
  | .oneOf words, depth => accepts_choice words depth
  | .record _ fields, depth => accepts_record fields.slotsAccept fields.itemsAccept depth

theorem Fields.slotsAccept : (fields : Fields) →
    ∀ depth key, SlotsAccept (fields.readSlot depth key)
  | .nil, _, _ => fun h => by cases h
  | .required _ _ shape rest, depth, key =>
      slotsAccept_field (shape.accepts depth) (rest.slotsAccept depth key)
  | .optional _ _ shape rest, depth, key =>
      slotsAccept_field (shape.accepts depth) (rest.slotsAccept depth key)

theorem Fields.itemsAccept : (fields : Fields) →
    ∀ depth expected, ItemsAccept (fields.readItems depth expected)
  | .nil, _, _ => fun h => by
      obtain ⟨_, hclose, hread⟩ := exists_of_map_ok h
      cases hread
      exact .done (gap_of_closeArray hclose)
  | .required name aliases shape rest, depth, expected => by
      rw [Fields.readItems_required]
      refine itemsAccept_item (shape.accepts depth) (rest.itemsAccept depth expected) ?_
      intro taken text c rest h
      cases h
  | .optional name aliases shape rest, depth, expected => by
      rw [Fields.readItems_optional]
      refine itemsAccept_item (shape.accepts depth) (rest.itemsAccept depth expected) ?_
      intro taken text c rest h
      obtain ⟨ds, -, h⟩ := exists_of_bind_ok h
      cases h
      rfl

end

/-! ## Whole texts -/

/-- A whole text has the form of a value, with nothing else but blanks. -/
def HasForm (text : List Char) : Prop :=
  ∃ depth core behind, Gap text core ∧ WellFormed depth core behind ∧ Gap behind []

/-- Only a text in the form of a value is read as data of a shape. -/
theorem Shape.hasForm_of_ofText {shape : Shape} {text : String} {d : shape.Data}
    (h : shape.ofText text = .ok d) : HasForm text.toList := by
  obtain ⟨⟨d', behind⟩, hread, h⟩ := exists_of_bind_ok h
  obtain ⟨⟨⟩, hclose, -⟩ := exists_of_bind_ok h
  obtain ⟨core, hgap, depth, hform⟩ := shape.accepts depthLimit hread
  have hend : Gap behind [] := by
    unfold closeText at hclose
    split at hclose
    case h_1 hskip => exact gap_of_skipSpace hskip
    case h_2 => cases hclose
  exact ⟨depth, core, behind, hgap, hform, hend⟩

end CheckWorker.Json
