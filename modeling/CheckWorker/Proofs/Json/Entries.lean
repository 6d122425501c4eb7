import CheckWorker.Json.Value
import Mathlib.Data.List.Basic

/-!
# What entries give

`given` lists the values that the entries of an object give to some names, and `last` is the last
one that they give to a key. Settled entries have one value for each key, the last: so what they
give to some names are the last values of these names, in some order.
-/

namespace CheckWorker.Json

/-- The values that entries give to some names, in the order of the entries. -/
def given (names : List String) (entries : List (String × Value)) : List Value :=
  (entries.filter fun e => e.1 ∈ names).map Prod.snd

/-- The entries of all other keys. -/
def without (names : List String) (entries : List (String × Value)) : List (String × Value) :=
  entries.filter fun e => e.1 ∉ names

/-- The last value that entries give to a key. -/
def last (entries : List (String × Value)) (key : String) : Option Value :=
  entries.reverse.lookup key

section

variable {names names' : List String} {k : String} {v : Value} {entries : List (String × Value)}

theorem given_cons_of_mem (h : k ∈ names) :
    given names ((k, v) :: entries) = v :: given names entries := by
  simp [given, h]

theorem given_cons_of_not_mem (h : k ∉ names) :
    given names ((k, v) :: entries) = given names entries := by
  simp [given, h]

theorem without_cons_of_mem (h : k ∈ names) :
    without names ((k, v) :: entries) = without names entries := by
  simp [without, h]

theorem without_cons_of_not_mem (h : k ∉ names) :
    without names ((k, v) :: entries) = (k, v) :: without names entries := by
  simp [without, h]

/-- Entries of other keys give nothing to a name. -/
theorem given_without (h : ∀ n ∈ names, n ∉ names') :
    given names (without names' entries) = given names entries := by
  rw [given, given, without, List.filter_filter]
  congr 1
  apply List.filter_congr
  intro e _
  by_cases he : e.1 ∈ names
  · simp [he, h e.1 he]
  · simp [he]

end

/-! ## Settled entries -/

/-- Keys are in ascending order, each once. -/
def Ascending (entries : List (String × Value)) : Prop :=
  entries.Pairwise fun e e' => e.1 < e'.1

theorem mem_insertEntry {k : String} {v : Value} {entries : List (String × Value)}
    {e : String × Value} (h : e ∈ insertEntry k v entries) : e = (k, v) ∨ e ∈ entries := by
  induction entries with
  | nil => exact .inl (List.mem_singleton.mp h)
  | cons e' entries ih =>
      obtain ⟨k', v'⟩ := e'
      rw [insertEntry] at h
      split at h
      · exact List.mem_cons.mp h
      · split at h
        · exact .inr h
        · rcases List.mem_cons.mp h with rfl | h
          · exact .inr (List.mem_cons_self ..)
          · rcases ih h with rfl | h
            · exact .inl rfl
            · exact .inr (List.mem_cons_of_mem _ h)

theorem lt_of_not_lt {k k' : String} (h : ¬ k < k') (hne : k ≠ k') : k' < k :=
  Decidable.not_not.mp fun h' => hne (String.le_antisymm (String.not_lt.mp h') (String.not_lt.mp h))

theorem Ascending.insertEntry {entries : List (String × Value)} (h : Ascending entries)
    (k : String) (v : Value) : Ascending (insertEntry k v entries) := by
  induction entries with
  | nil => exact List.pairwise_singleton _ _
  | cons e entries ih =>
      obtain ⟨k', v'⟩ := e
      have htail := List.pairwise_cons.mp h
      rw [Json.insertEntry]
      split
      case isTrue hlt =>
        refine List.pairwise_cons.mpr ⟨?_, h⟩
        intro e he
        rcases List.mem_cons.mp he with rfl | he
        · exact hlt
        · exact String.lt_trans hlt (htail.1 e he)
      case isFalse hge =>
        split
        · exact h
        · next hne =>
            refine List.pairwise_cons.mpr ⟨?_, ih htail.2⟩
            intro e he
            rcases mem_insertEntry he with rfl | he
            · exact lt_of_not_lt hge hne
            · exact htail.1 e he

theorem ascending_settleEntries (entries : List (String × Value)) :
    Ascending (settleEntries entries) := by
  induction entries with
  | nil => exact List.Pairwise.nil
  | cons e entries ih => exact ih.insertEntry e.1 e.2.settle

theorem lookup_eq_none_of_lt {k : String} {entries : List (String × Value)}
    (h : ∀ e ∈ entries, k < e.1) : entries.lookup k = none := by
  rw [List.lookup_eq_none_iff]
  intro e he
  rw [bne_iff_ne]
  rintro rfl
  exact String.lt_irrefl _ (h e he)

theorem lookup_cons_eq (n k : String) (v : Value) (entries : List (String × Value)) :
    ((k, v) :: entries).lookup n = if n = k then some v else entries.lookup n := by
  rw [List.lookup_cons]
  by_cases hn : n = k
  · simp [hn]
  · simp [hn, beq_false_of_ne hn]

theorem lookup_insertEntry {entries : List (String × Value)} (h : Ascending entries) (k : String)
    (v : Value) (n : String) : (insertEntry k v entries).lookup n =
      (entries.lookup n).or (if n = k then some v else none) := by
  induction entries with
  | nil => rw [insertEntry, lookup_cons_eq, List.lookup_nil, Option.none_or]
  | cons e entries ih =>
      obtain ⟨k', v'⟩ := e
      have htail := List.pairwise_cons.mp h
      rw [insertEntry]
      split
      case isTrue hlt =>
        rw [lookup_cons_eq]
        by_cases hn : n = k
        · have hnone : ((k', v') :: entries).lookup k = none := by
            apply lookup_eq_none_of_lt
            intro e he
            rcases List.mem_cons.mp he with rfl | he
            · exact hlt
            · exact String.lt_trans hlt (htail.1 e he)
          rw [hn, hnone]
          simp
        · simp [hn]
      case isFalse hge =>
        split
        · next heq =>
            subst heq
            rw [lookup_cons_eq]
            by_cases hn : n = k <;> simp [hn]
        · rw [lookup_cons_eq, lookup_cons_eq, ih htail.2]
          by_cases hn : n = k' <;> simp [hn]

/-- Of the values given to a key the last is kept. -/
theorem lookup_settleEntries (entries : List (String × Value)) (n : String) :
    (settleEntries entries).lookup n = (last entries n).map Value.settle := by
  induction entries with
  | nil => rfl
  | cons e entries ih =>
      obtain ⟨k, v⟩ := e
      have hlast : last ((k, v) :: entries) n =
          (last entries n).or (if n = k then some v else none) := by
        rw [last, last, List.reverse_cons, List.lookup_append, lookup_cons_eq, List.lookup_nil]
      rw [settleEntries, lookup_insertEntry (ascending_settleEntries entries), ih, hlast]
      cases last entries n with
      | some _ => rfl
      | none => by_cases hn : n = k <;> simp [hn]

theorem given_perm {entries : List (String × Value)} (h : Ascending entries) {names : List String}
    (hnames : names.Nodup) :
    (given names entries).Perm (names.filterMap fun n => entries.lookup n) := by
  induction entries with
  | nil =>
      have hnone : names.filterMap (fun n => ([] : List (String × Value)).lookup n) = [] := by simp
      rw [hnone]
      exact List.Perm.refl []
  | cons e entries ih =>
      obtain ⟨k, v⟩ := e
      have htail := List.pairwise_cons.mp h
      by_cases hk : k ∈ names
      · have hnone : entries.lookup k = none := lookup_eq_none_of_lt htail.1
        have hperm := List.perm_cons_erase hk
        have hothers : (names.erase k).filterMap (fun n => ((k, v) :: entries).lookup n) =
            (names.erase k).filterMap (fun n => entries.lookup n) := by
          apply List.filterMap_congr
          intro n hn
          have hne : n ≠ k := fun heq => hnames.not_mem_erase (heq ▸ hn)
          rw [lookup_cons_eq, if_neg hne]
        have hfirst : (names.filterMap (fun n => ((k, v) :: entries).lookup n)).Perm
            (v :: (names.erase k).filterMap (fun n => entries.lookup n)) := by
          refine (hperm.filterMap _).trans ?_
          rw [List.filterMap_cons, lookup_cons_eq, if_pos rfl, hothers]
        have hrest : (names.filterMap (fun n => entries.lookup n)).Perm
            ((names.erase k).filterMap (fun n => entries.lookup n)) := by
          refine (hperm.filterMap _).trans ?_
          rw [List.filterMap_cons, hnone]
        rw [given_cons_of_mem hk]
        exact ((ih htail.2).trans hrest).cons v |>.trans hfirst.symm
      · have hall : names.filterMap (fun n => ((k, v) :: entries).lookup n) =
            names.filterMap (fun n => entries.lookup n) := by
          apply List.filterMap_congr
          intro n hn
          have hne : n ≠ k := fun heq => hk (heq ▸ hn)
          rw [lookup_cons_eq, if_neg hne]
        rw [given_cons_of_not_mem hk]
        exact (ih htail.2).trans (List.Perm.of_eq hall.symm)

/-- Settled entries give to some names the last values of these names, settled. -/
theorem given_settleEntries (entries : List (String × Value)) {names : List String}
    (hnames : names.Nodup) : (given names (settleEntries entries)).Perm
      ((names.filterMap (last entries)).map Value.settle) := by
  have hperm := given_perm (ascending_settleEntries entries) hnames
  have hlast : names.filterMap (fun n => (settleEntries entries).lookup n) =
      names.filterMap fun n => (last entries n).map Value.settle :=
    List.filterMap_congr fun n _ => lookup_settleEntries entries n
  rw [List.map_filterMap, ← hlast]
  exact hperm

end CheckWorker.Json
