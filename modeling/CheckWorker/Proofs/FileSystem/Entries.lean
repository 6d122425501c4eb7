import CheckWorker.Proofs.FileSystem.Finding

/-!
# The entries of a directory

A directory is seen through the paths of its entries. As long as the path of the directory leads to
it, each operation on an entry does to this view what its name says, and all other locations are
left as they are: those that are neither the entry nor below it.
-/

namespace CheckWorker.FileTree

open FilePath (IsName)

variable {t t' t'' : FileTree} {p : FilePath} {s r : String} {l m : Location} {n : Node}
  {bytes : ByteArray}

/-! ## Moving -/

theorem below?_eq_some_iff {source inner : Location} :
    below? source m = some inner ↔ m = inner ++ source := by
  unfold below?
  split
  · next h =>
      rw [Option.some.injEq]
      constructor
      · rintro rfl
        have hsplit := List.take_append_drop (m.length - source.length) m
        rw [h.2] at hsplit
        exact hsplit.symm
      · rintro rfl
        simp
  · next h =>
      refine iff_of_false (by simp) ?_
      rintro rfl
      exact h (by simp)

theorem below?_eq_none_iff {source : Location} : below? source m = none ↔ ¬ source <:+ m := by
  rw [Option.eq_none_iff_forall_ne_some]
  constructor
  · rintro h ⟨inner, rfl⟩
    exact h inner (below?_eq_some_iff.mpr rfl)
  · intro h inner hinner
    exact h ⟨inner, (below?_eq_some_iff.mp hinner).symm⟩

/-- Where something goes when what is at a source is moved. -/
def relocate (source dest m : Location) : Location :=
  match below? source m with
  | some inner => inner ++ dest
  | none => m

theorem relocate_append (source dest inner : Location) :
    relocate source dest (inner ++ source) = inner ++ dest := by
  rw [relocate, below?_eq_some_iff.mpr rfl]

theorem relocate_of_not_suffix {source : Location} (h : ¬ source <:+ m) (dest : Location) :
    relocate source dest m = m := by
  rw [relocate, below?_eq_none_iff.mpr h]

theorem entries_move (t : FileTree) (source dest : Location) :
    (t.move source dest).entries =
      (t.entries.filter fun e => e.1 ≠ dest).map fun e => (relocate source dest e.1, e.2) := by
  refine List.map_congr_left fun ⟨m, n⟩ _ => ?_
  simp only [relocate]
  cases below? source m <;> rfl

theorem lookup_map_key {entries : List (Location × Node)} {f : Location → Location}
    (h : ∀ e ∈ entries, f e.1 = l ↔ e.1 = m) :
    (entries.map fun e => (f e.1, e.2)).lookup l = entries.lookup m := by
  induction entries with
  | nil => rfl
  | cons e entries ih =>
      have hrest := ih fun e' he' => h e' (List.mem_cons_of_mem _ he')
      have hkey : (l == f e.1) = (m == e.1) := by
        rw [Bool.eq_iff_iff, beq_iff_eq, beq_iff_eq, eq_comm, h e List.mem_cons_self, eq_comm]
      rw [List.map_cons, List.lookup_cons, List.lookup_cons, hrest, hkey]

variable {source dest : Location}

/-- Neither of the two locations is the other or below it. -/
structure Apart (source dest : Location) : Prop where
  not_below : ¬ source <:+ dest
  not_above : ¬ dest <:+ source

theorem Apart.ne_nil (h : Apart source dest) : source ≠ [] ∧ dest ≠ [] :=
  ⟨fun hnil => h.not_below (hnil ▸ List.nil_suffix),
    fun hnil => h.not_above (hnil ▸ List.nil_suffix)⟩

theorem not_suffix_cons (hne : s ≠ r) (l : Location) : ¬ (s :: l) <:+ (r :: l) := fun h =>
  hne (List.cons.inj (h.eq_of_length rfl)).1

theorem apart_cons (hne : s ≠ r) (l : Location) : Apart (s :: l) (r :: l) :=
  ⟨not_suffix_cons hne l, not_suffix_cons hne.symm l⟩

theorem node?_move_dest (t : FileTree) (h : Apart source dest) :
    (t.move source dest).node? dest = t.node? source := by
  have hkey : ∀ e ∈ t.entries.filter fun e => e.1 ≠ dest,
      relocate source dest e.1 = dest ↔ e.1 = source := by
    intro e he
    have hne : e.1 ≠ dest := by simpa using (List.mem_filter.mp he).2
    by_cases hs : source <:+ e.1
    · obtain ⟨inner, hinner⟩ := hs
      rw [← hinner, relocate_append]
      simp
    · rw [relocate_of_not_suffix hs]
      exact iff_of_false hne fun heq => hs (heq ▸ List.suffix_rfl)
  have hsource : source ≠ dest := fun heq => h.not_below (heq ▸ List.suffix_rfl)
  simp only [node?, h.ne_nil, if_false, entries_move]
  rw [lookup_map_key hkey, lookup_filter_ne t.entries hsource]

theorem node?_move_source (t : FileTree) (h : Apart source dest) :
    (t.move source dest).node? source = none := by
  simp only [node?, h.ne_nil, if_false, entries_move, List.lookup_eq_none_iff, List.mem_map]
  rintro _ ⟨e, -, rfl⟩
  simp only [bne_iff_ne, ne_eq]
  intro heq
  by_cases hs : source <:+ e.1
  · obtain ⟨inner, hinner⟩ := hs
    rw [← hinner, relocate_append] at heq
    exact h.not_above ⟨inner, heq.symm⟩
  · rw [relocate_of_not_suffix hs] at heq
    exact hs (heq ▸ List.suffix_rfl)

theorem node?_move_other (t : FileTree) (hs : ¬ source <:+ l) (hd : ¬ dest <:+ l) :
    (t.move source dest).node? l = t.node? l := by
  have hkey : ∀ e ∈ t.entries.filter fun e => e.1 ≠ dest,
      relocate source dest e.1 = l ↔ e.1 = l := by
    intro e _
    by_cases hsuffix : source <:+ e.1
    · obtain ⟨inner, hinner⟩ := hsuffix
      rw [← hinner, relocate_append]
      refine iff_of_false ?_ ?_
      · rintro rfl
        exact hd ⟨inner, rfl⟩
      · rintro rfl
        exact hs ⟨inner, rfl⟩
    · rw [relocate_of_not_suffix hsuffix]
  have hne : l ≠ dest := fun heq => hd (heq ▸ List.suffix_rfl)
  simp only [node?, entries_move]
  rw [lookup_map_key hkey, lookup_filter_ne t.entries hne]

/-! ## Operations on an entry -/

theorem removeFile_join (h : IsName s) (hok : t.removeFile (p.join s) = .ok t') :
    Fits p s ∧ ∃ l, t.Leads p l ∧ t.node? (s :: l) ≠ some .directory ∧
      t' = t.erase (s :: l) := by
  rcases hfind : t.find (p.join s) with e | ⟨m, n⟩
  · simp [removeFile, hfind, bind, Except.bind] at hok
  · obtain ⟨hfits, l, hl, rfl, hn⟩ := (find_join_eq_ok_iff h).mp hfind
    refine ⟨hfits, l, hl, ?_⟩
    rw [hn]
    cases n <;> simp_all [removeFile, bind, Except.bind, pure, Except.pure]

theorem rename_join (hs : IsName s) (hr : IsName r) (hne : s ≠ r)
    (hok : t.rename (p.join s) (p.join r) = .ok t') :
    Fits p s ∧ Fits p r ∧ ∃ l, t.Leads p l ∧ t' = t.move (s :: l) (r :: l) := by
  rcases hfind : t.find (p.join s) with e | ⟨m, n⟩
  · simp [rename, hfind, bind, Except.bind] at hok
  obtain ⟨hfits, l, hl, rfl, hn⟩ := (find_join_eq_ok_iff hs).mp hfind
  rcases haround : t.around (p.join r) (p.join r).names with e | ⟨k, name?⟩
  · simp [rename, hfind, haround, bind, Except.bind] at hok
  obtain ⟨hpath, hk, rfl⟩ := (around_join_eq_ok_iff hr).mp haround
  obtain rfl := hl.unique hk
  rcases hstep : t.step l r with e | dest <;>
    simp only [rename, hfind, haround, hstep, bind, Except.bind] at hok
  · cases hok
  obtain ⟨-, hsize, rfl⟩ := (step_eq_ok_iff hr).mp hstep
  have hother : r :: l ≠ s :: l := fun heq => hne (List.cons.inj heq).1.symm
  rw [if_neg hother] at hok
  refine ⟨hfits, ⟨hpath, hsize⟩, l, hl, ?_⟩
  repeat' split at hok
  all_goals first | cases hok; done | exact (Except.ok.inj hok).symm

theorem openAppend_join {size : Nat} (h : IsName s)
    (hok : t.openAppend (p.join s) = .ok (size, t')) :
    Fits p s ∧ ∃ l, t.Leads p l ∧ t.node? (s :: l) ≠ some .directory ∧
      size = (t.bytesAt (s :: l)).size ∧
        (t.node? (s :: l) ≠ none ∧ t' = t ∨
          t.node? (s :: l) = none ∧ t' = t.put (s :: l) (.file ByteArray.empty)) := by
  rcases htarget : t.target (p.join s) with e | m
  · simp [openAppend, htarget, bind, Except.bind] at hok
  obtain ⟨hfits, l, hl, rfl, hfree⟩ := (target_join_eq_ok_iff h).mp htarget
  refine ⟨hfits, l, hl, hfree, ?_⟩
  simp only [openAppend, htarget, bind, Except.bind] at hok
  split at hok
  · next n hn =>
      cases hok
      exact ⟨rfl, .inl ⟨by simp [hn], rfl⟩⟩
  · next hn =>
      cases hok
      exact ⟨by simp [bytesAt, hn], .inr ⟨hn, rfl⟩⟩

theorem append_join (h : IsName s) (hok : t.append (p.join s) bytes = .ok t') :
    Fits p s ∧ ∃ l, t.Leads p l ∧ t.node? (s :: l) ≠ some .directory ∧
      t' = t.put (s :: l) (.file (t.bytesAt (s :: l) ++ bytes)) := by
  rcases htarget : t.target (p.join s) with e | m
  · simp [append, htarget, bind, Except.bind] at hok
  obtain ⟨hfits, l, hl, rfl, hfree⟩ := (target_join_eq_ok_iff h).mp htarget
  simp only [append, htarget, bind, Except.bind] at hok
  exact ⟨hfits, l, hl, hfree, (Except.ok.inj hok).symm⟩

/-! ## What is there -/

/-- What is at the path of a directory and a name. -/
def child? (t : FileTree) (p : FilePath) (s : String) : Option Node :=
  (t.find (p.join s)).toOption.map Prod.snd

theorem isThere_join (t : FileTree) (p : FilePath) (s : String) :
    t.isThere (p.join s) = (t.child? p s).isSome := by
  rw [isThere, child?]
  cases t.find (p.join s) <;> rfl

theorem child?_eq_some_iff (h : IsName s) :
    t.child? p s = some n ↔ Fits p s ∧ ∃ l, t.Leads p l ∧ t.node? (s :: l) = some n := by
  rw [child?]
  rcases hfind : t.find (p.join s) with e | ⟨m, n'⟩
  · refine iff_of_false (by simp [Except.toOption]) ?_
    rintro ⟨hfits, l, hl, hn⟩
    rw [(find_join_eq_ok_iff h).mpr ⟨hfits, l, hl, rfl, hn⟩] at hfind
    cases hfind
  · obtain ⟨hfits, l, hl, rfl, hn⟩ := (find_join_eq_ok_iff h).mp hfind
    simp only [Except.toOption, Option.map_some, Option.some.injEq]
    constructor
    · rintro rfl
      exact ⟨hfits, l, hl, hn⟩
    · rintro ⟨-, l', hl', hn'⟩
      obtain rfl := hl.unique hl'
      exact Option.some.inj (hn.symm.trans hn')

theorem child?_of_leads (h : IsName s) (hl : t.Leads p l) (hfits : Fits p s) :
    t.child? p s = t.node? (s :: l) := by
  ext n
  rw [child?_eq_some_iff h]
  constructor
  · rintro ⟨-, l', hl', hn⟩
    rwa [hl.unique hl']
  · exact fun hn => ⟨hfits, l, hl, hn⟩

theorem child?_of_not_fits (h : IsName s) (hfits : ¬ Fits p s) : t.child? p s = none :=
  Option.eq_none_iff_forall_ne_some.mpr fun _ hn => hfits ((child?_eq_some_iff h).mp hn).1

theorem child?_congr (h : IsName s) (hl : t.Leads p l) (hl' : t'.Leads p l)
    (hnode : t'.node? (s :: l) = t.node? (s :: l)) : t'.child? p s = t.child? p s := by
  by_cases hfits : Fits p s
  · rw [child?_of_leads h hl' hfits, child?_of_leads h hl hfits, hnode]
  · rw [child?_of_not_fits h hfits, child?_of_not_fits h hfits]

/-! ## What stays -/

/-- The location to which a path leads depends on the working directory alone. -/
theorem Leads.eq_place (h : t.Leads p l) : l = p.place t.here :=
  walk_eq_follow h.walk

theorem Leads.erase (h : t.Leads p l) (hm : t.node? m ≠ some .directory) :
    (t.erase m).Leads p l := by
  refine h.mono rfl fun k hk => ?_
  have hne : k ≠ m := by
    rintro rfl
    exact hm hk
  rw [node?_erase_other t hne, hk]

/-- From one tree to another nothing changes, except at certain locations. -/
structure SameOutside (S : Location → Prop) (t t' : FileTree) : Prop where
  here : t'.here = t.here
  node : ∀ l, ¬ S l → t'.node? l = t.node? l

namespace SameOutside

variable {S : Location → Prop}

theorem refl (S : Location → Prop) (t : FileTree) : SameOutside S t t :=
  ⟨rfl, fun _ _ => rfl⟩

theorem trans (h : SameOutside S t t') (h' : SameOutside S t' t'') : SameOutside S t t'' where
  here := h'.here.trans h.here
  node l hl := (h'.node l hl).trans (h.node l hl)

theorem mono {S' : Location → Prop} (h : SameOutside S t t') (hS : ∀ l, S l → S' l) :
    SameOutside S' t t' where
  here := h.here
  node l hl := h.node l fun hmem => hl (hS l hmem)

theorem leads (h : SameOutside S t t') (hl : t.Leads p l) (hl' : t'.Leads p m) : m = l := by
  rw [hl'.eq_place, hl.eq_place, h.here]

end SameOutside

theorem sameOutside_put (t : FileTree) (l : Location) (n : Node) :
    SameOutside (· = l) t (t.put l n) where
  here := rfl
  node _ hm := node?_put_other t hm n

theorem sameOutside_erase (t : FileTree) (l : Location) : SameOutside (· = l) t (t.erase l) where
  here := rfl
  node _ hm := node?_erase_other t hm

theorem sameOutside_move (t : FileTree) (source dest : Location) :
    SameOutside (fun m => source <:+ m ∨ dest <:+ m) t (t.move source dest) where
  here := rfl
  node _ hm := node?_move_other t (fun h => hm (.inl h)) fun h => hm (.inr h)

/-! ## Directories that are there -/

theorem checkPath_eq_ok_iff : checkPath p = .ok () ↔
    '\x00' ∉ p.text.toList ∧ p.text ≠ "" ∧ p.text.utf8ByteSize < pathLimit := by
  unfold checkPath
  by_cases hnul : '\x00' ∈ p.text.toList
  · simp [hnul]
  by_cases hempty : p.text = ""
  · simp [FilePath.isEmpty, hempty]
  · simp [FilePath.isEmpty, hnul, hempty]

/-- The beginning of a path is checked with it. -/
theorem checkPath_of_append {rest : String} (hne : p.text ≠ "")
    (h : checkPath ⟨p.text ++ rest⟩ = .ok ()) : checkPath p = .ok () := by
  obtain ⟨hnul, -, hsize⟩ := checkPath_eq_ok_iff.mp h
  rw [String.toList_append, List.mem_append, not_or] at hnul
  rw [String.utf8ByteSize_append] at hsize
  exact checkPath_eq_ok_iff.mpr ⟨hnul.1, hne, by omega⟩

/-- A path from which another goes on is checked with it. -/
theorem checkPath_of_join (h : IsName s) (hjoin : checkPath (p.join s) = .ok ()) :
    p.text = "" ∨ checkPath p = .ok () := by
  by_cases hempty : p.text = ""
  · exact .inl hempty
  obtain ⟨rest, hrest⟩ : ∃ rest, p.join s = ⟨p.text ++ rest⟩ := by
    rcases FilePath.text_join (p := p) h.head? with ⟨-, htext⟩ | ⟨htext, -⟩ | ⟨htext, -⟩
    · exact absurd htext hempty
    · exact ⟨s, congrArg FilePath.mk htext⟩
    · rw [String.append_assoc] at htext
      exact ⟨"/" ++ s, congrArg FilePath.mk htext⟩
  rw [hrest] at hjoin
  exact .inr (checkPath_of_append hempty hjoin)

theorem isDirectory_of_leads (h : t.Leads p l) (hcheck : checkPath p = .ok ()) :
    t.isDirectory p = true := by
  have hwalk : t.walk (t.start p) (namesOf p) = .ok l := by
    unfold namesOf
    split
    · refine walk_concat_eq_ok_iff.mpr ⟨l, h.walk, ?_⟩
      simp [step, h.directory]
    · simpa using h.walk
  rw [isDirectory, find_eq_ok_iff.mpr ⟨hcheck, hwalk, h.directory⟩]

theorem makeDirectory_of_leads (h : t.Leads p l) (hcheck : checkPath p = .ok ()) :
    t.makeDirectory p = .error .exists := by
  rcases List.eq_nil_or_concat p.names with hnil | ⟨front, name, hnames⟩
  · have hroot : t.start p = l := by
      have hwalk := h.walk
      rw [hnil] at hwalk
      exact Except.ok.inj hwalk
    have haround : t.around p p.names = .ok (l, none) := by
      rw [around_eq_ok_iff, hnil]
      exact ⟨hcheck, congrArg _ hroot, h.directory, rfl⟩
    rw [makeDirectory, haround]
    rfl
  · rw [List.concat_eq_append] at hnames
    have hwalk := h.walk
    rw [hnames] at hwalk
    obtain ⟨k, hfront, hstep⟩ := walk_concat_eq_ok_iff.mp hwalk
    have haround : t.around p p.names = .ok (k, some name) := by
      rw [around_eq_ok_iff, hnames, List.dropLast_concat, List.getLast?_concat]
      exact ⟨hcheck, hfront, node?_of_step hstep, rfl⟩
    simp only [makeDirectory, haround, hstep, h.directory, bind, Except.bind]
    split <;> rfl

/-- Nothing is created where a path leads to a directory. -/
theorem makeDirectories_of_leads (h : t.Leads p l) (hcheck : p.text = "" ∨ checkPath p = .ok ()) :
    t.makeDirectories p = (t, .ok ()) := by
  rcases FilePath.upward_eq p with hnone | ⟨hne, above, hsome⟩
  · rw [makeDirectories, hnone]
    rfl
  · have hcheck := hcheck.resolve_left hne
    simp only [makeDirectories, hsome, climb, makeDirectory_of_leads h hcheck,
      isDirectory_of_leads h hcheck, if_true, makeEach]

end CheckWorker.FileTree
