import CheckWorker.Proofs.Json.Agreement
import CheckWorker.Proofs.Json.Entries

/-!
# What records take from values

A record takes from an object what the entries give to each of its fields in turn, and a field takes
one value at most. From an array it takes the items in order, and optional fields at the end may go
without.
-/

namespace CheckWorker.Json

/-! ## Objects -/

/-- What a field comes to that is given some values after it has come to `slot`. -/
def fill {α : Type} (read : Value → Option α) : Option α → List Value → Option (Option α)
  | slot, [] => some slot
  | none, v :: vs => (read v).bind fun d => fill read (some d) vs
  | some _, _ :: _ => none

theorem foldlM_fieldOfValue {α σ : Type} (name : String) (aliases : List String)
    (ofValue : Value → Except Cause α) (others : String → σ → Value → Option (Except Cause σ))
    (entries : List (String × Value)) (slot : Option α) (slots : σ) :
    entries.foldlM (fun s e => ((fieldOfValue (e.1 = name ∨ e.1 ∈ aliases) name ofValue
        (others e.1) s e.2).getD (.ok s)).toOption) (slot, slots) =
      (fill (fun v => (ofValue v).toOption) slot (given (name :: aliases) entries)).bind
        fun slot => ((without (name :: aliases) entries).foldlM
          (fun s e => ((others e.1 s e.2).getD (.ok s)).toOption) slots).map
            fun slots => (slot, slots) := by
  induction entries generalizing slot slots with
  | nil => cases slot <;> rfl
  | cons e entries ih =>
      obtain ⟨k, v⟩ := e
      rw [List.foldlM_cons]
      by_cases hk : k ∈ name :: aliases
      · have hnamed : k = name ∨ k ∈ aliases := List.mem_cons.mp hk
        rw [given_cons_of_mem hk, without_cons_of_mem hk]
        cases slot with
        | some d => simp [fieldOfValue, hnamed, fill]
        | none =>
            rw [fill]
            cases hv : ofValue v with
            | error cause => simp [fieldOfValue, hnamed, hv, Except.map]
            | ok d => simpa [fieldOfValue, hnamed, hv, Except.map] using ih (some d) slots
      · have hnamed : ¬ (k = name ∨ k ∈ aliases) := fun h => hk (List.mem_cons.mpr h)
        rw [given_cons_of_not_mem hk, without_cons_of_not_mem hk, List.foldlM_cons]
        cases hv : others k slots v with
        | none => simpa [fieldOfValue, hnamed, hv] using ih slot slots
        | some result =>
            cases result with
            | error cause => simp [fieldOfValue, hnamed, hv, Except.map]
            | ok slots' => simpa [fieldOfValue, hnamed, hv, Except.map] using ih slot slots'

/-- What a field that is required comes to. -/
def required? (origin : Origin) (shape : Shape) : List Value → Option shape.Data
  | [] => shape.absent?
  | [v] => (shape.ofValue origin v).toOption
  | _ => none

/-- What an optional field comes to. -/
def optional? (origin : Origin) (shape : Shape) : List Value → Option (Option shape.Data)
  | [] => some none
  | [v] => (shape.ofValue origin v).toOption.map some
  | _ => none

/-- What the fields of a record take from the entries of an object. -/
def Fields.ofEntries? (origin : Origin) : (fields : Fields) → List (String × Value) →
    Option fields.Data
  | .nil, _ => some ()
  | .required name aliases shape rest, entries =>
      (required? origin shape (given (name :: aliases) entries)).bind fun d =>
        (rest.ofEntries? origin (without (name :: aliases) entries)).map fun ds => (d, ds)
  | .optional name aliases shape rest, entries =>
      (optional? origin shape (given (name :: aliases) entries)).bind fun d =>
        (rest.ofEntries? origin (without (name :: aliases) entries)).map fun ds => (d, ds)

theorem toOption_ofSlots_required (name : String) (aliases : List String) (shape : Shape)
    (rest : Fields) (s : Option shape.Data × rest.Slots) :
    (Fields.ofSlots (.required name aliases shape rest) s).toOption =
      (s.1.or shape.absent?).bind fun d => (rest.ofSlots s.2).toOption.map fun ds => (d, ds) := by
  obtain ⟨slot, slots⟩ := s
  cases slot with
  | some d => exact toOption_map _ _
  | none =>
      cases h : shape.absent? with
      | none =>
          simp only [Fields.ofSlots, h]
          rfl
      | some d =>
          simp only [Fields.ofSlots, h]
          exact toOption_map _ _

theorem toOption_ofSlots_optional (name : String) (aliases : List String) (shape : Shape)
    (rest : Fields) (s : Option shape.Data × rest.Slots) :
    (Fields.ofSlots (.optional name aliases shape rest) s).toOption =
      (rest.ofSlots s.2).toOption.map fun ds => (s.1, ds) :=
  toOption_map _ _

/-- A field and the others of a record are filled one by one. -/
theorem bind_slots {α β γ σ : Type} (filled : Option (Option α)) (finish : Option α → Option γ)
    {slots : Option σ} {ofSlots : σ → Option β} {data : Option β} (h : slots.bind ofSlots = data) :
    (filled.bind fun slot => slots.map fun s => (slot, s)).bind
        (fun s => (finish s.1).bind fun d => (ofSlots s.2).map fun ds => (d, ds)) =
      (filled.bind finish).bind fun d => data.map fun ds => (d, ds) := by
  subst h
  cases filled with
  | none => rfl
  | some slot =>
      cases slots with
      | none => cases h : finish slot <;> simp [h]
      | some s => simp

theorem fill_bind_required (origin : Origin) (shape : Shape) (vs : List Value) :
    (fill (fun v => (shape.ofValue origin v).toOption) none vs).bind (·.or shape.absent?) =
      required? origin shape vs := by
  match vs with
  | [] => simp [fill, required?]
  | [v] => cases h : (shape.ofValue origin v).toOption <;> simp [fill, h, required?]
  | v :: w :: vs => cases h : (shape.ofValue origin v).toOption <;> simp [fill, h, required?]

theorem fill_bind_optional (origin : Origin) (shape : Shape) (vs : List Value) :
    (fill (fun v => (shape.ofValue origin v).toOption) none vs).bind some =
      optional? origin shape vs := by
  match vs with
  | [] => rfl
  | [v] => cases h : (shape.ofValue origin v).toOption <;> simp [fill, h, optional?]
  | v :: w :: vs => cases h : (shape.ofValue origin v).toOption <;> simp [fill, h, optional?]

theorem foldlM_slotOfValue (origin : Origin) : (fields : Fields) →
    (entries : List (String × Value)) →
    (entries.foldlM (fun slots e =>
        ((fields.slotOfValue origin e.1 slots e.2).getD (.ok slots)).toOption)
      fields.noSlots).bind (fun slots => (fields.ofSlots slots).toOption) =
      fields.ofEntries? origin entries
  | .nil, entries => by
      have hfold : entries.foldlM (fun slots e =>
          ((Fields.nil.slotOfValue origin e.1 slots e.2).getD (.ok slots)).toOption)
          Fields.nil.noSlots = some Fields.nil.noSlots := by
        induction entries with
        | nil => rfl
        | cons e entries ih => exact ih
      rw [hfold]
      rfl
  | .required name aliases shape rest, entries => by
      have ih := foldlM_slotOfValue origin rest (without (name :: aliases) entries)
      have hfold := foldlM_fieldOfValue name aliases (shape.ofValue origin)
        (rest.slotOfValue origin) entries none rest.noSlots
      have hslots := funext (toOption_ofSlots_required name aliases shape rest)
      have hbind := bind_slots (fill (fun v => (shape.ofValue origin v).toOption) none
        (given (name :: aliases) entries)) (·.or shape.absent?) ih
      refine (congr (congrArg Option.bind hfold) hslots).trans (hbind.trans ?_)
      rw [fill_bind_required]
      rfl
  | .optional name aliases shape rest, entries => by
      have ih := foldlM_slotOfValue origin rest (without (name :: aliases) entries)
      have hfold := foldlM_fieldOfValue name aliases (shape.ofValue origin)
        (rest.slotOfValue origin) entries none rest.noSlots
      have hslots := funext (toOption_ofSlots_optional name aliases shape rest)
      have hbind := bind_slots (fill (fun v => (shape.ofValue origin v).toOption) none
        (given (name :: aliases) entries)) some ih
      refine (congr (congrArg Option.bind hfold) hslots).trans (hbind.trans ?_)
      rw [fill_bind_optional]
      rfl

/-- A record takes from an object what the entries give to its fields. -/
theorem toOption_ofValue_object (origin : Origin) (name : String) (fields : Fields)
    (entries : List (String × Value)) :
    (Shape.ofValue origin (.record name fields) (.object entries)).toOption =
      fields.ofEntries? origin entries := by
  have hread : (readEntries
        (fun k v slots => (fields.slotOfValue origin k slots v).getD (.ok slots)) entries
        fields.noSlots >>= fields.ofSlots).toOption = fields.ofEntries? origin entries := by
    rw [toOption_bind, toOption_readEntries]
    exact foldlM_slotOfValue origin fields entries
  exact hread

section

variable {origin : Origin} {name : String} {aliases : List String} {shape : Shape} {rest : Fields}
  {entries : List (String × Value)}

theorem pair_eq_some_iff {α β : Type} {x : Option α} {y : Option β} {a : α} {b : β} :
    (x.bind fun a => y.map fun b => (a, b)) = some (a, b) ↔ x = some a ∧ y = some b := by
  cases x <;> cases y <;> simp

theorem ofEntries?_required_iff {d : shape.Data} {ds : rest.Data} :
    Fields.ofEntries? origin (.required name aliases shape rest) entries = some (d, ds) ↔
      required? origin shape (given (name :: aliases) entries) = some d ∧
        rest.ofEntries? origin (without (name :: aliases) entries) = some ds :=
  pair_eq_some_iff

theorem ofEntries?_optional_iff {d : Option shape.Data} {ds : rest.Data} :
    Fields.ofEntries? origin (.optional name aliases shape rest) entries = some (d, ds) ↔
      optional? origin shape (given (name :: aliases) entries) = some d ∧
        rest.ofEntries? origin (without (name :: aliases) entries) = some ds :=
  pair_eq_some_iff

end

/-! ## Arrays -/

theorem toOption_pair_iff {ε α β γ : Type} (f : α → γ) {x : Except ε α} {y : Except ε β} {c : γ}
    {b : β} : (x >>= fun a => y >>= fun b => .ok (f a, b)).toOption = some (c, b) ↔
      x.toOption.map f = some c ∧ y.toOption = some b := by
  cases x <;> cases y <;> simp [bind, Except.bind]

section

variable {origin : Origin} {name : String} {aliases : List String} {shape : Shape} {rest : Fields}
  {expected : String} {length taken : Nat} {items : List Value}

theorem ofItems_required_iff {v : Value} {d : shape.Data} {ds : rest.Data} :
    (Fields.ofItems origin (.required name aliases shape rest) expected length taken
        (v :: items)).toOption = some (d, ds) ↔
      (shape.ofValue origin v).toOption = some d ∧
        (rest.ofItems origin expected length (taken + 1) items).toOption = some ds := by
  have hpair := toOption_pair_iff id (x := shape.ofValue origin v)
    (y := rest.ofItems origin expected length (taken + 1) items) (c := d) (b := ds)
  rw [Option.map_id] at hpair
  exact hpair

/-- An optional field goes without where no item is left. -/
theorem ofItems_optional_iff {d : Option shape.Data} {ds : rest.Data} :
    (Fields.ofItems origin (.optional name aliases shape rest) expected length taken
        items).toOption = some (d, ds) ↔
      optional? origin shape (items.take 1) = some d ∧
        (rest.ofItems origin expected length (taken + (items.take 1).length)
          (items.drop 1)).toOption = some ds := by
  cases items with
  | nil =>
      have hnone : (rest.ofItems origin expected length taken [] >>= fun ds =>
          .ok ((none : Option shape.Data), ds)).toOption = some (d, ds) ↔
          some none = some d ∧
            (rest.ofItems origin expected length taken []).toOption = some ds := by
        rw [toOption_bind]
        cases (rest.ofItems origin expected length taken []).toOption <;> simp
      exact hnone
  | cons v items => exact toOption_pair_iff some

theorem ofItems_nil_iff {ds : Fields.nil.Data} :
    (Fields.ofItems origin .nil expected length taken items).toOption = some ds ↔ items = [] := by
  cases items with
  | nil => exact iff_of_true rfl rfl
  | cons v items =>
      constructor
      · intro h
        cases h
      · intro h
        cases h

theorem length_le_of_optional? {d : Option shape.Data} (h : optional? origin shape items = some d) :
    items.length ≤ 1 := by
  match items with
  | [] => exact Nat.zero_le 1
  | [_] => exact Nat.le_refl 1
  | _ :: _ :: _ => cases h

/-- The last field takes all items that are left, which may be one. -/
theorem ofItems_last_iff {d : Option shape.Data} :
    (Fields.ofItems origin (.optional name aliases shape .nil) expected length taken
        items).toOption = some (d, ()) ↔ optional? origin shape items = some d := by
  constructor
  · intro h
    obtain ⟨hd, hnil⟩ := ofItems_optional_iff.mp h
    have hlen := List.drop_eq_nil_iff.mp (ofItems_nil_iff.mp hnil)
    rwa [List.take_of_length_le hlen] at hd
  · intro h
    have hlen := length_le_of_optional? h
    refine ofItems_optional_iff.mpr ⟨?_, ofItems_nil_iff.mpr (List.drop_eq_nil_iff.mpr hlen)⟩
    rwa [List.take_of_length_le hlen]

end

end CheckWorker.Json
