import CheckWorker.Proofs.FileSystem.Creating

/-!
# Directories that were created are there

What a path leads to stays where it is as long as directories do and as it is left alone. So when all
directories of a path have been created without a failure, the path leads to a directory. Only a path
without any steps leads nowhere else and has nothing to create.
-/

namespace CheckWorker

namespace FilePath

/-! ## Paths with steps -/

/-- Trimming takes no steps off a path. -/
theorem filter_namesBack_trimBack (back : List Char) :
    (namesBack (trimBack back)).filter (· != ".") = (namesBack back).filter (· != ".") := by
  fun_induction trimBack back with
  | case1 back hnil => rw [List.isEmpty_iff.mp hnil]
  | case2 back hnil ih => rw [ih, namesBack_slash]
  | case3 back ih =>
      have hdot : namesBack ('.' :: '/' :: back) = namesBack back ++ ["."] :=
        namesBack_append ['.'] back
      rw [ih, hdot, namesBack_slash]
      simp
  | case4 back _ _ => rfl

theorem filter_namesBack_of_parentBack?_eq_none {back : List Char}
    (hnone : parentBack? back = none) : (namesBack back).filter (· != ".") = [] := by
  rw [← filter_namesBack_trimBack]
  unfold parentBack? at hnone
  split at hnone
  · next htrim => rw [htrim, namesBack_nil, List.filter_nil]
  · next c rest htrim =>
      split at hnone
      · next hslash =>
          subst hslash
          rw [htrim, eq_nil_of_trimBack htrim, namesBack_slash, namesBack_nil, List.filter_nil]
      · cases hnone

theorem upward_ne_nil {p : FilePath} (h : p.steps ≠ []) : p.upward ≠ [] := by
  intro hnil
  rw [upward, List.map_eq_nil_iff, upwards] at hnil
  split at hnil
  · next hnone =>
      have hsteps := filter_namesBack_of_parentBack?_eq_none hnone
      have hnames : namesBack p.text.toList.reverse = p.names := by simp [namesBack]
      rw [hnames, filter_names] at hsteps
      exact h hsteps
  · cases hnil

end FilePath

namespace FileTree

variable {t t' : FileTree} {p : FilePath} {m : Location} {n : Node} {bytes : ByteArray}

/-! ## What stays in its place -/

/-- All directories of one tree are directories of another, seen from the same working directory. -/
structure KeepsDirectories (t t' : FileTree) : Prop where
  here : t'.here = t.here
  directory : ∀ l, t.node? l = some .directory → t'.node? l = some .directory

theorem Grows.keepsDirectories {S : Location → Prop} (h : Grows S t t') :
    KeepsDirectories t t' where
  here := h.here
  directory l hl := by
    rcases h.node l with hsame | ⟨-, hnone, -⟩
    · rw [hsame, hl]
    · rw [hl] at hnone
      cases hnone

theorem keepsDirectories_put (h : t.node? m ≠ some .directory) (n : Node) :
    KeepsDirectories t (t.put m n) where
  here := rfl
  directory _ := directory_put h n

namespace KeepsDirectories

variable (h : KeepsDirectories t t')

include h

/-- What was found is still found if it was left alone. -/
theorem find (hfind : t.find p = .ok (m, n)) (hnode : t'.node? m = t.node? m) :
    t'.find p = .ok (m, n) := by
  obtain ⟨hcheck, hwalk, hn⟩ := find_eq_ok_iff.mp hfind
  have hstart : t'.start p = t.start p := by rw [start, start, h.here]
  refine find_eq_ok_iff.mpr ⟨hcheck, ?_, hnode.trans hn⟩
  rw [hstart]
  exact walk_mono h.directory hwalk

theorem isDirectory (hdir : t.isDirectory p = true) : t'.isDirectory p = true := by
  unfold FileTree.isDirectory at hdir
  split at hdir
  · next l hfind =>
      have hl := (find_eq_ok_iff.mp hfind).2.2
      rw [FileTree.isDirectory, h.find hfind ((h.directory l hl).trans hl.symm)]
  · cases hdir

/-- A file stays as it is if it was left alone. -/
theorem read (hread : t.read p = .ok bytes)
    (hnode : ∀ m n, t.find p = .ok (m, n) → t'.node? m = t.node? m) :
    t'.read p = .ok bytes := by
  rcases hfind : t.find p with e | ⟨m, n⟩
  · simp [FileTree.read, hfind, bind, Except.bind] at hread
  · rw [FileTree.read, h.find hfind (hnode m n hfind), ← hfind]
    exact hread

end KeepsDirectories

/-! ## Creating directories -/

theorem isDirectory_of_makeDirectory (h : t.makeDirectory p = .ok t') :
    t'.isDirectory p = true := by
  obtain ⟨hnone, rfl⟩ := makeDirectory_eq_ok h
  rcases haround : t.around p p.names with e | ⟨l, _ | name⟩ <;>
    simp only [makeDirectory, haround, bind, Except.bind] at h
  case error => cases h
  case ok.none => cases h
  case ok.some =>
    split at h
    · cases h
    cases hstep : t.step l name with
    | error e => simp [hstep] at h
    | ok m =>
        obtain ⟨hcheck, hwalk, hdir, hlast⟩ := around_eq_ok_iff.mp haround
        obtain ⟨front, hnames⟩ := List.getLast?_eq_some_iff.mp hlast.symm
        have hplace := place_of_around haround hstep
        rw [hplace] at hstep
        rw [hnames, List.dropLast_concat] at hwalk
        have hfree : t.node? (p.place t.here) ≠ some .directory := by simp [hnone]
        have hput := keepsDirectories_put hfree .directory
        refine isDirectory_of_leads (l := p.place t.here) ⟨?_, ?_⟩ hcheck
        · rw [hnames]
          exact walk_mono hput.directory (walk_concat_eq_ok_iff.mpr ⟨l, hwalk, hstep⟩)
        · refine node?_put_same t ?_ _
          intro hroot
          simp [hroot] at hnone

/-- Coming down, every directory is created or was there. -/
theorem isDirectory_of_makeEach {paths : List FilePath} (h : t.makeEach paths = (t', .ok ())) :
    ∀ p ∈ paths, t'.isDirectory p = true := by
  induction paths generalizing t with
  | nil => simp
  | cons p below ih =>
      have hrest {between : FileTree} (hdir : between.isDirectory p = true)
          (hbelow : between.makeEach below = (t', .ok ())) :
          ∀ q ∈ p :: below, t'.isDirectory q = true := by
        have hgrows : Grows (fun _ => True) between (between.makeEach below).1 :=
          grows_makeEach fun _ _ => trivial
        rw [hbelow] at hgrows
        intro q hq
        rcases List.mem_cons.mp hq with rfl | hq
        · exact hgrows.keepsDirectories.isDirectory hdir
        · exact ih hbelow q hq
      rw [makeEach] at h
      split at h
      · next between hmake => exact hrest (isDirectory_of_makeDirectory hmake) h
      · split at h
        · next hdir => exact hrest hdir h
        · cases h
      · cases h

theorem mem_of_climb {paths missing missing' : List FilePath} {q : FilePath}
    (h : t.climb missing paths = .ok (missing', t')) (hq : q ∈ missing) : q ∈ missing' := by
  induction paths generalizing missing with
  | nil =>
      cases h
      exact hq
  | cons p above ih =>
      rw [climb] at h
      split at h
      · cases h
        exact hq
      · exact ih h (List.mem_cons_of_mem p hq)
      · split at h
        · cases h
          exact hq
        · cases h
      · cases h

/-- Going up, a path is passed by only if it is to be created on the way back. -/
theorem climb_cases {missing missing' above : List FilePath}
    (h : t.climb missing (p :: above) = .ok (missing', t')) :
    t'.isDirectory p = true ∨ p ∈ missing' := by
  rw [climb] at h
  split at h
  · next between hmake =>
      cases h
      exact .inl (isDirectory_of_makeDirectory hmake)
  · exact .inr (mem_of_climb h List.mem_cons_self)
  · split at h
    · next hdir =>
        cases h
        exact .inl hdir
    · cases h
  · cases h

/-- When all directories of a path have been created, the path leads to a directory. -/
theorem isDirectory_of_makeDirectories (hsteps : p.steps ≠ [])
    (h : t.makeDirectories p = (t', .ok ())) : t'.isDirectory p = true := by
  obtain ⟨-, above, hupward⟩ :=
    (FilePath.upward_eq p).resolve_left (FilePath.upward_ne_nil hsteps)
  rw [makeDirectories, hupward] at h
  split at h
  · next missing between hclimb =>
      have hgrows : Grows (fun _ => True) between (between.makeEach missing).1 :=
        grows_makeEach fun _ _ => trivial
      rw [h] at hgrows
      rcases climb_cases hclimb with hdir | hmem
      · exact hgrows.keepsDirectories.isDirectory hdir
      · exact isDirectory_of_makeEach h p hmem
  · cases h

end FileTree

end CheckWorker
