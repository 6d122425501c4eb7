import CheckWorker.VersionTable
import Mathlib.Data.List.Induction
import Mathlib.Data.List.Nodup

/-!
# Upserts

A table is a finite map from versions to entries that happens to be kept as a list. A loaded list
may name a version twice, in which case the first entry counts and an upsert replaces that one, so
the map is told by `find?` and the list of versions only grows at its end.
-/

namespace CheckWorker.VersionTable

variable {t t' : VersionTable} {upserts : List VersionEntry}

def versions (t : VersionTable) : List String :=
  t.entries.map VersionEntry.version

def upsertAll (t : VersionTable) (upserts : List VersionEntry) : VersionTable :=
  upserts.foldl upsert t

/-- The entry of the last upsert for a version. -/
def latest (upserts : List VersionEntry) (version : String) : Option VersionEntry :=
  upserts.reverse.find? fun e => e.version == version

/-- The versions that a table has gained since `known`, each once, in the order in which the
upserts first name them. -/
structure Gained (known upserted added : List String) : Prop where
  mem_iff : ∀ version, version ∈ added ↔ version ∈ upserted ∧ version ∉ known
  nodup : added.Nodup
  ordered : added.Pairwise fun v w => upserted.idxOf v < upserted.idxOf w

/-- What a table `t` has become after a sequence of upserts. -/
structure Follows (t : VersionTable) (upserts : List VersionEntry) (t' : VersionTable) : Prop where
  find : ∀ version, t'.find? version = (latest upserts version).or (t.find? version)
  versions : ∃ added, t'.versions = t.versions ++ added ∧
    Gained t.versions (upserts.map VersionEntry.version) added
  pinned : t'.pinnedAuxiliary = t.pinnedAuxiliary
  fallback : t'.fallbackAuxiliary = t.fallbackAuxiliary

/-! ## One upsert -/

theorem find?_upsert (t : VersionTable) (e : VersionEntry) (version : String) :
    (t.upsert e).find? version = if e.version = version then some e else t.find? version := by
  split
  case isTrue h =>
    subst h
    exact find?_upsert_same t e
  case isFalse h =>
    exact find?_upsert_other t e (Ne.symm h)

theorem versions_upsert (t : VersionTable) (e : VersionEntry) :
    (t.upsert e).versions =
      if e.version ∈ t.versions then t.versions else t.versions ++ [e.version] := by
  show (upsertEntry e t.entries).map _ = _
  unfold versions
  induction t.entries with
  | nil => rfl
  | cons d entries ih =>
      by_cases hd : d.version = e.version
      · simp [upsertEntry, hd]
      · have hmem : e.version ∈ d.version :: entries.map VersionEntry.version ↔
            e.version ∈ entries.map VersionEntry.version := by
          rw [List.mem_cons]
          exact or_iff_right (Ne.symm hd)
        rw [upsertEntry, if_neg hd, List.map_cons, ih, List.map_cons, if_congr hmem rfl rfl]
        split <;> rfl

theorem latest_concat (upserts : List VersionEntry) (e : VersionEntry) (version : String) :
    latest (upserts ++ [e]) version =
      if e.version = version then some e else latest upserts version := by
  rw [latest, List.reverse_concat, List.find?_cons]
  split
  case h_1 h => rw [if_pos (beq_iff_eq.mp h)]
  case h_2 h => rw [if_neg (beq_eq_false_iff_ne.mp h), latest]

namespace Gained

variable {known upserted added : List String} {version : String}

theorem nil (known : List String) : Gained known [] [] where
  mem_iff := by simp
  nodup := List.nodup_nil
  ordered := List.Pairwise.nil

theorem ordered_concat (h : Gained known upserted added) (version : String) :
    added.Pairwise fun v w =>
      (upserted ++ [version]).idxOf v < (upserted ++ [version]).idxOf w := by
  apply h.ordered.imp_of_mem
  intro v w hv hw hlt
  rwa [List.idxOf_append_of_mem ((h.mem_iff v).mp hv).1,
    List.idxOf_append_of_mem ((h.mem_iff w).mp hw).1]

/-- One more upsert for a version that the table names already. -/
theorem again (h : Gained known upserted added) (hv : version ∈ known ++ added) :
    Gained known (upserted ++ [version]) added where
  mem_iff := by
    intro w
    rw [h.mem_iff, List.mem_append, List.mem_singleton]
    refine ⟨fun hw => ⟨Or.inl hw.1, hw.2⟩, ?_⟩
    rintro ⟨hw | rfl, hknown⟩
    · exact ⟨hw, hknown⟩
    · rcases List.mem_append.mp hv with hw | hw
      · exact absurd hw hknown
      · exact (h.mem_iff w).mp hw
  nodup := h.nodup
  ordered := h.ordered_concat version

/-- The first upsert for a version that the table does not name. -/
theorem fresh (h : Gained known upserted added) (hv : version ∉ known ++ added) :
    Gained known (upserted ++ [version]) (added ++ [version]) := by
  rw [List.mem_append, not_or] at hv
  obtain ⟨hknown, hadded⟩ := hv
  have hup : version ∉ upserted := fun hu => hadded ((h.mem_iff version).mpr ⟨hu, hknown⟩)
  constructor
  · intro w
    rw [List.mem_append, List.mem_append, List.mem_singleton, h.mem_iff]
    constructor
    · rintro (hw | rfl)
      · exact ⟨Or.inl hw.1, hw.2⟩
      · exact ⟨Or.inr rfl, hknown⟩
    · rintro ⟨hw | rfl, hw'⟩
      · exact Or.inl ⟨hw, hw'⟩
      · exact Or.inr rfl
  · apply List.nodup_append'.mpr
    exact ⟨h.nodup, List.nodup_singleton _, List.disjoint_singleton.mpr hadded⟩
  · apply List.pairwise_append.mpr
    refine ⟨h.ordered_concat version, List.pairwise_singleton _ _, ?_⟩
    intro v hvmem w hw
    have hmem : v ∈ upserted := ((h.mem_iff v).mp hvmem).1
    rw [List.mem_singleton.mp hw, List.idxOf_append_of_mem hmem,
      List.idxOf_append_of_notMem hup]
    exact Nat.lt_of_lt_of_le (List.idxOf_lt_length_of_mem hmem) (Nat.le_add_right _ _)

end Gained

namespace Follows

theorem start (t : VersionTable) : Follows t [] t where
  find := fun _ => rfl
  versions := ⟨[], (List.append_nil _).symm, Gained.nil _⟩
  pinned := rfl
  fallback := rfl

theorem upsert (h : Follows t upserts t') (e : VersionEntry) :
    Follows t (upserts ++ [e]) (t'.upsert e) where
  find := by
    intro version
    rw [find?_upsert, latest_concat, h.find version]
    split <;> rfl
  versions := by
    obtain ⟨added, hversions, hadded⟩ := h.versions
    rw [versions_upsert, hversions, List.map_append, List.map_singleton]
    split
    case isTrue hv => exact ⟨added, rfl, hadded.again hv⟩
    case isFalse hv => exact ⟨added ++ [e.version], List.append_assoc _ _ _, hadded.fresh hv⟩
  pinned := h.pinned
  fallback := h.fallback

/-- Versions are never repeated by upserts. -/
theorem nodup_iff (h : Follows t upserts t') : t'.versions.Nodup ↔ t.versions.Nodup := by
  obtain ⟨added, hversions, hadded⟩ := h.versions
  rw [hversions, List.nodup_append']
  refine ⟨fun hn => hn.1, fun hn => ⟨hn, hadded.nodup, ?_⟩⟩
  intro version hknown hmem
  exact ((hadded.mem_iff version).mp hmem).2 hknown

end Follows

/-! ## A sequence of upserts -/

theorem follows_upsertAll (t : VersionTable) (upserts : List VersionEntry) :
    Follows t upserts (t.upsertAll upserts) := by
  induction upserts using List.reverseRecOn with
  | nil => exact Follows.start t
  | append_singleton upserts e ih =>
      rw [upsertAll, List.foldl_concat]
      exact ih.upsert e

/-- Of several entries for a version the first counts. -/
theorem find?_eq_some_iff (t : VersionTable) (version : String) (e : VersionEntry) :
    t.find? version = some e ↔
      e.version = version ∧ ∃ before after, t.entries = before ++ e :: after ∧
        ∀ d ∈ before, d.version ≠ version := by
  rw [find?, List.find?_eq_some_iff_append, beq_iff_eq]
  simp only [Bool.not_eq_eq_eq_not, Bool.not_true, beq_eq_false_iff_ne]

theorem resolve_eq (t : VersionTable) (package version : String) :
    t.resolve package version = (t.find? version).elim
      ⟨.registry (package ++ "==" ++ version), [package ++ "==" ++ version] ++ t.fallbackAuxiliary⟩
      fun e => ⟨.pinned e.artifact, [e.artifact] ++ t.pinnedAuxiliary⟩ := by
  unfold resolve
  cases t.find? version with
  | none => rfl
  | some e => rfl

/-- Upserts act on a table as they act on a finite map, and a version is resolved by what the map
holds for it. -/
theorem upserts_refine_map (t : VersionTable) (upserts : List VersionEntry) :
    Follows t upserts (t.upsertAll upserts) ∧
      ((t.upsertAll upserts).versions.Nodup ↔ t.versions.Nodup) ∧
      (∀ version e, t.find? version = some e ↔
        e.version = version ∧ ∃ before after, t.entries = before ++ e :: after ∧
          ∀ d ∈ before, d.version ≠ version) ∧
      ∀ package version, (t.upsertAll upserts).resolve package version =
        ((t.upsertAll upserts).find? version).elim
          ⟨.registry (package ++ "==" ++ version),
            [package ++ "==" ++ version] ++ t.fallbackAuxiliary⟩
          fun e => ⟨.pinned e.artifact, [e.artifact] ++ t.pinnedAuxiliary⟩ := by
  have hfollows := follows_upsertAll t upserts
  refine ⟨hfollows, hfollows.nodup_iff, find?_eq_some_iff t, ?_⟩
  intro package version
  rw [resolve_eq, hfollows.pinned, hfollows.fallback]

end CheckWorker.VersionTable
