import CheckWorker.Proofs.Json.Agreement
import CheckWorker.Proofs.Json.Writing
import Mathlib.Data.List.Nodup

/-!
# Slots of a record

A record is read key by key, and each key that a field goes by fills the slot of that field. What
was met so far tells which slots are filled, and that does not depend on the order in which it was
met.
-/

namespace CheckWorker.Json

def Fields.names : Fields → List String
  | .nil => []
  | .required name _ _ rest => name :: rest.names
  | .optional name _ _ rest => name :: rest.names

/-- Puts the data of the field that a key names into its slot, unless the slot is taken. -/
def Fields.fill : (fields : Fields) → fields.Data → (key : String) → fields.Slots →
    Option fields.Slots
  | .nil, _, _, _ => none
  | .required name _ _ rest, (d, ds), key, (slot, slots) =>
      if key = name then if slot.isSome then none else some (some d, slots)
      else (rest.fill ds key slots).map fun slots => (slot, slots)
  | .optional name _ _ rest, (d, ds), key, (slot, slots) =>
      if key = name then if slot.isSome then none else some (d, slots)
      else (rest.fill ds key slots).map fun slots => (slot, slots)

/-- The slots of a record when all of its data has been met. -/
def Fields.slots : (fields : Fields) → fields.Data → fields.Slots
  | .nil, () => ()
  | .required _ _ _ rest, (d, ds) => (some d, rest.slots ds)
  | .optional _ _ _ rest, (d, ds) => (d, rest.slots ds)

theorem Fields.ofSlots_slots : (fields : Fields) → (ds : fields.Data) →
    fields.ofSlots (fields.slots ds) = .ok ds
  | .nil, () => rfl
  | .required _ _ shape rest, (d, ds) => by
      have ih := rest.ofSlots_slots ds
      have hrest : (rest.ofSlots (rest.slots ds)).map (fun ds => (d, ds)) = .ok (d, ds) := by
        rw [ih]
        rfl
      exact hrest
  | .optional _ _ shape rest, (d, ds) => by
      have ih := rest.ofSlots_slots ds
      have hrest : (rest.ofSlots (rest.slots ds)).map (fun ds => (d, ds)) = .ok (d, ds) := by
        rw [ih]
        rfl
      exact hrest

theorem Fields.mem_names : (fields : Fields) → (ds : fields.Data) → ∀ e ∈ fields.entries ds,
    e.1 ∈ fields.names
  | .nil, (), e, he => by cases he
  | .required _ _ _ rest, (_, ds), e, he => by
      cases he with
      | head => exact List.mem_cons_self
      | tail _ he => exact List.mem_cons_of_mem _ (rest.mem_names ds e he)
  | .optional _ _ _ rest, (none, ds), e, he => List.mem_cons_of_mem _ (rest.mem_names ds e he)
  | .optional _ _ _ rest, (some _, ds), e, he => by
      cases he with
      | head => exact List.mem_cons_self
      | tail _ he => exact List.mem_cons_of_mem _ (rest.mem_names ds e he)

/-- No later field goes by the name of a field. -/
def Fields.Apart (name : String) (aliases : List String) (rest : Fields) : Prop :=
  ∀ n ∈ rest.names, ¬ (n = name ∨ n ∈ aliases)

theorem Fields.Apart.ne {name : String} {aliases : List String} {rest : Fields}
    (h : Fields.Apart name aliases rest) (ds : rest.Data) : ∀ e ∈ rest.entries ds, e.1 ≠ name :=
  fun e he hname => h e.1 (rest.mem_names ds e he) (.inl hname)

mutual

/-- Data of the shape can be told from what is written for it. -/
def Shape.Legible : Shape → Prop
  | .text => True
  | .flag => True
  | .whole _ => True
  | .maybe _ => False
  | .many shape => shape.Legible
  | .anything => False
  | .oneOf words => words.Nodup
  | .record _ fields => fields.Legible

def Fields.Legible : Fields → Prop
  | .nil => True
  | .required name aliases shape rest => shape.Legible ∧ rest.Apart name aliases ∧ rest.Legible
  | .optional name aliases shape rest => shape.Legible ∧ rest.Apart name aliases ∧ rest.Legible

end

namespace Fields

theorem nodup_entries : (fields : Fields) → fields.Legible → (ds : fields.Data) →
    ((fields.entries ds).map Prod.fst).Nodup
  | .nil, _, () => List.nodup_nil
  | .required name _ shape rest, h, (d, ds) => by
      refine List.nodup_cons.mpr ⟨?_, rest.nodup_entries h.2.2 ds⟩
      intro hmem
      obtain ⟨e, he, hname⟩ := List.mem_map.mp hmem
      exact h.2.1.ne ds e he hname
  | .optional _ _ _ rest, h, (none, ds) => rest.nodup_entries h.2.2 ds
  | .optional name _ shape rest, h, (some d, ds) => by
      refine List.nodup_cons.mpr ⟨?_, rest.nodup_entries h.2.2 ds⟩
      intro hmem
      obtain ⟨e, he, hname⟩ := List.mem_map.mp hmem
      exact h.2.1.ne ds e he hname

/-- An optional field is written if there is something to write. -/
theorem mem_entries_optional {name : String} {aliases : List String} {shape : Shape} {rest : Fields}
    {d : Option shape.Data} {ds : rest.Data} {e : String × Value}
    (h : e ∈ (Fields.optional name aliases shape rest).entries (d, ds)) :
    (e.1 = name ∧ d ≠ none) ∨ e ∈ rest.entries ds := by
  cases d with
  | none => exact .inr h
  | some d =>
      rcases List.mem_cons.mp h with rfl | h
      · exact .inl ⟨rfl, Option.some_ne_none d⟩
      · exact .inr h

/-! ## Keys that were met -/

/-- The slots of a record when the keys in `met` were met. -/
def met (met : List String) : (fields : Fields) → fields.Data → fields.Slots
  | .nil, () => ()
  | .required name _ _ rest, (d, ds) => (if name ∈ met then some d else none, rest.met met ds)
  | .optional name _ _ rest, (d, ds) => (if name ∈ met then d else none, rest.met met ds)

theorem met_nil : (fields : Fields) → (ds : fields.Data) → fields.met [] ds = fields.noSlots
  | .nil, () => rfl
  | .required _ _ _ rest, (_, ds) => congrArg (Prod.mk none) (rest.met_nil ds)
  | .optional _ _ _ rest, (_, ds) => congrArg (Prod.mk none) (rest.met_nil ds)

theorem met_cons_of_not_mem {key : String} {keys : List String} : (fields : Fields) →
    key ∉ fields.names → (ds : fields.Data) → fields.met (key :: keys) ds = fields.met keys ds
  | .nil, _, () => rfl
  | .required name _ shape rest, h, (d, ds) => by
      obtain ⟨hname, hrest⟩ := not_or.mp (mt List.mem_cons.mpr h)
      have hmem : name ∈ key :: keys ↔ name ∈ keys := by simp [Ne.symm hname]
      exact congrArg₂ Prod.mk (if_congr hmem rfl rfl) (rest.met_cons_of_not_mem hrest ds)
  | .optional name _ shape rest, h, (d, ds) => by
      obtain ⟨hname, hrest⟩ := not_or.mp (mt List.mem_cons.mpr h)
      have hmem : name ∈ key :: keys ↔ name ∈ keys := by simp [Ne.symm hname]
      exact congrArg₂ Prod.mk (if_congr hmem rfl rfl) (rest.met_cons_of_not_mem hrest ds)

/-- Once all keys that are written were met, the slots hold the data. -/
theorem met_eq_slots {keys : List String} : (fields : Fields) → (ds : fields.Data) →
    (∀ e ∈ fields.entries ds, e.1 ∈ keys) → fields.met keys ds = fields.slots ds
  | .nil, (), _ => rfl
  | .required name _ shape rest, (d, ds), h => by
      have hname : name ∈ keys := h (name, shape.value d) List.mem_cons_self
      have hrest := rest.met_eq_slots ds fun e he => h e (List.mem_cons_of_mem _ he)
      exact congrArg₂ Prod.mk (if_pos hname) hrest
  | .optional name _ shape rest, (some d, ds), h => by
      have hname : name ∈ keys := h (name, shape.value d) List.mem_cons_self
      have hrest := rest.met_eq_slots ds fun e he => h e (List.mem_cons_of_mem _ he)
      exact congrArg₂ Prod.mk (if_pos hname) hrest
  | .optional _ _ _ rest, (none, ds), h => by
      exact congrArg₂ Prod.mk (ite_self _) (rest.met_eq_slots ds h)

theorem fill_met {key : String} {keys : List String} (hkey : key ∉ keys) : (fields : Fields) →
    fields.Legible → key ∈ fields.names → (ds : fields.Data) →
    fields.fill ds key (fields.met keys ds) = some (fields.met (key :: keys) ds)
  | .nil, _, h, _ => nomatch h
  | .required name aliases shape rest, hlegible, h, (d, ds) => by
      by_cases hname : key = name
      · subst hname
        have hrest : key ∉ rest.names := fun hmem => hlegible.2.1 key hmem (.inl rfl)
        simp [met, fill, hkey, rest.met_cons_of_not_mem hrest]
      · have hmem : key ∈ rest.names := (List.mem_cons.mp h).resolve_left hname
        simp [met, fill, hname, Ne.symm hname, fill_met hkey rest hlegible.2.2 hmem ds]
        rfl
  | .optional name aliases shape rest, hlegible, h, (d, ds) => by
      by_cases hname : key = name
      · subst hname
        have hrest : key ∉ rest.names := fun hmem => hlegible.2.1 key hmem (.inl rfl)
        simp [met, fill, hkey, rest.met_cons_of_not_mem hrest]
      · have hmem : key ∈ rest.names := (List.mem_cons.mp h).resolve_left hname
        simp [met, fill, hname, Ne.symm hname, fill_met hkey rest hlegible.2.2 hmem ds]
        rfl

/-- What a key makes of the slots; one that no field goes by makes nothing of them. -/
def meet (fields : Fields) (ds : fields.Data) (slots : fields.Slots) (key : String) :
    Option fields.Slots :=
  if key ∈ fields.names then fields.fill ds key slots else some slots

/-- In whatever order keys come, they fill the slots of the fields that they name, if they name none
twice. -/
theorem foldlM_meet {fields : Fields} (hlegible : fields.Legible) (ds : fields.Data)
    {keys seen : List String} (hfresh : ∀ key ∈ keys, key ∈ fields.names → key ∉ seen)
    (honce : (keys.filter (· ∈ fields.names)).Nodup) :
    keys.foldlM (fields.meet ds) (fields.met seen ds) =
      some (fields.met (keys.reverse ++ seen) ds) := by
  induction keys generalizing seen with
  | nil => rfl
  | cons key keys ih =>
      have hmeet : fields.meet ds (fields.met seen ds) key = some (fields.met (key :: seen) ds) := by
        unfold meet
        split
        case isTrue hkey => exact fields.fill_met (hfresh key List.mem_cons_self hkey) hlegible hkey ds
        case isFalse hkey => rw [fields.met_cons_of_not_mem hkey]
      rw [List.foldlM_cons, hmeet, Option.bind_eq_bind, Option.bind_some, ih]
      · simp
      · intro k hk hname
        rw [List.mem_cons, not_or]
        refine ⟨?_, hfresh k (List.mem_cons_of_mem key hk) hname⟩
        rintro rfl
        rw [List.filter_cons_of_pos (by simpa using hname), List.nodup_cons] at honce
        exact honce.1 (List.mem_filter.mpr ⟨hk, by simpa using hname⟩)
      · exact honce.sublist ((List.sublist_cons_self key keys).filter _)

end Fields

/-! ## One slot -/

section

variable {α σ : Type} {named : Prop} [Decidable named] {name : String} {reader : Reader α}
  {others : σ → List Char → Option (Except Failure (σ × List Char))}
  {colon behind rest : List Char}

theorem readField_of_named (h : named) {d : α} (hcolon : takeColon colon = .ok behind)
    (hread : reader behind = .ok (d, rest)) (s : Option α × σ) :
    (readField named name reader others s colon).map Except.toOption =
      some ((if s.1.isSome then none else some (some d, s.2)).map fun s => (s, rest)) := by
  obtain ⟨slot, slots⟩ := s
  cases slot with
  | some d' => simp [readField, h]
  | none => simp [readField, h, hcolon, hread, bind, Except.bind, pure, Except.pure]

theorem readField_of_other (h : ¬ named) {s : Option α × σ} {filled : Option σ}
    (hothers : (others s.2 colon).map Except.toOption =
      some (filled.map fun slots => (slots, rest))) :
    (readField named name reader others s colon).map Except.toOption =
      some ((filled.map fun slots => (s.1, slots)).map fun s => (s, rest)) := by
  obtain ⟨slot, slots⟩ := s
  obtain ⟨result, hresult, hfilled⟩ := Option.map_eq_some_iff.mp hothers
  simp only [readField, h, if_false, hresult, Option.map_some, toOption_map, hfilled,
    Option.map_map]
  rfl

end

end CheckWorker.Json
