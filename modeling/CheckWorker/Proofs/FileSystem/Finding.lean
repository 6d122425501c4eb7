import CheckWorker.Proofs.FileSystem.Growth

/-!
# Finding what a directory holds

A path leads through directories only, so it leads to the same place as long as these are there.
What is found at the path of a directory and a name is what is right in that directory under that
name. A file that has been written is read back from there.
-/

namespace CheckWorker

/-- The text names one thing in a directory: it is no path to somewhere else. -/
structure FilePath.IsName (s : String) : Prop where
  ne_empty : s ≠ ""
  slash : '/' ∉ s.toList
  ne_dot : s ≠ "."
  ne_dots : s ≠ ".."

namespace FilePath

variable {p : FilePath} {s : String}

theorem IsName.head? (h : IsName s) : s.toList.head? ≠ some '/' :=
  fun hhead => h.slash (List.mem_of_mem_head? hhead)

theorem names_of_isName (h : IsName s) : names ⟨s⟩ = [s] :=
  names_of_notMem h.ne_empty h.slash

theorem names_join_of_isName (h : IsName s) : (p.join s).names = p.names ++ [s] := by
  rw [names_join h.head?, names_of_isName h]

theorem endsInSlash_join (h : IsName s) : (p.join s).endsInSlash = false := by
  have hne : s.toList ≠ [] := fun hnil => h.ne_empty (String.toList_eq_nil_iff.mp hnil)
  have hlast (front : List Char) : (front ++ s.toList).getLast? = s.toList.getLast? := by
    rw [List.getLast?_append, List.getLast?_eq_some_getLast hne, Option.some_or]
  have hjoin : (p.join s).text.toList.getLast? = s.toList.getLast? := by
    rcases text_join (p := p) h.head? with ⟨htext, -⟩ | ⟨htext, -⟩ | ⟨htext, -⟩
    · rw [htext]
    · rw [htext, String.toList_append, hlast]
    · rw [htext, String.toList_append, hlast]
  rw [endsInSlash, hjoin]
  simpa using fun hslash => h.slash (List.mem_of_getLast? hslash)

end FilePath

namespace FileTree

open FilePath (IsName)

variable {t t' : FileTree} {p : FilePath} {s : String} {l m : Location} {bytes : ByteArray}

/-! ## Ways -/

theorem node?_of_step {name : String} (h : t.step l name = .ok m) :
    t.node? l = some .directory := by
  unfold step at h
  split at h
  · cases h
  · assumption
  · cases h

theorem step_congr (h : t'.node? l = t.node? l) (name : String) :
    t'.step l name = t.step l name := by
  rw [step, h, step]

theorem step_eq_ok_iff (h : IsName s) :
    t.step l s = .ok m ↔
      t.node? l = some .directory ∧ s.utf8ByteSize ≤ nameLimit ∧ m = s :: l := by
  constructor
  · intro hstep
    have hdir := node?_of_step hstep
    rw [step, hdir] at hstep
    simp only [h.ne_dot, h.ne_dots, if_false] at hstep
    split at hstep
    · cases hstep
    · next hsize =>
        cases hstep
        exact ⟨hdir, Nat.le_of_not_lt hsize, rfl⟩
  · rintro ⟨hdir, hsize, rfl⟩
    rw [step, hdir]
    simp only [h.ne_dot, h.ne_dots, if_false, if_neg (Nat.not_lt.mpr hsize)]

theorem walk_append (xs ys : List String) :
    t.walk l (xs ++ ys) = t.walk l xs >>= fun m => t.walk m ys := by
  induction xs generalizing l with
  | nil => rfl
  | cons x xs ih =>
      simp only [List.cons_append, walk]
      cases t.step l x with
      | error e => rfl
      | ok l' => exact ih

theorem walk_concat_eq_ok_iff {names : List String} {name : String} :
    t.walk l (names ++ [name]) = .ok m ↔
      ∃ k, t.walk l names = .ok k ∧ t.step k name = .ok m := by
  rw [walk_append]
  cases hwalk : t.walk l names with
  | error e => simp [bind, Except.bind]
  | ok k =>
      cases hstep : t.step k name <;> simp [walk, hstep, bind, Except.bind]

/-- Where all directories are still there, a way still leads to where it led. -/
theorem walk_mono (h : ∀ l, t.node? l = some .directory → t'.node? l = some .directory)
    {names : List String} (hwalk : t.walk l names = .ok m) : t'.walk l names = .ok m := by
  induction names generalizing l with
  | nil => exact hwalk
  | cons name names ih =>
      cases hstep : t.step l name with
      | error e => simp [walk, hstep, bind, Except.bind] at hwalk
      | ok k =>
          have hdir := node?_of_step hstep
          have hstep' : t'.step l name = .ok k := by
            rw [step_congr ((h l hdir).trans hdir.symm), hstep]
          have hrest : t.walk k names = .ok m := by
            simpa [walk, hstep, bind, Except.bind] using hwalk
          simpa [walk, hstep', bind, Except.bind] using ih hrest

/-- The path leads to a directory at a location. -/
structure Leads (t : FileTree) (p : FilePath) (l : Location) : Prop where
  walk : t.walk (t.start p) p.names = .ok l
  directory : t.node? l = some .directory

theorem Leads.unique (h : t.Leads p l) (h' : t.Leads p m) : l = m := by
  have hwalk := h.walk
  rw [h'.walk] at hwalk
  exact (Except.ok.inj hwalk).symm

theorem Leads.mono (h : t.Leads p l) (hhere : t'.here = t.here)
    (hdir : ∀ l, t.node? l = some .directory → t'.node? l = some .directory) : t'.Leads p l where
  walk := by
    have hstart : t'.start p = t.start p := by rw [start, start, hhere]
    rw [hstart]
    exact walk_mono hdir h.walk
  directory := hdir l h.directory

/-- Directories stay when something is put where there is none. -/
theorem directory_put (h : t.node? m ≠ some .directory) (n : Node)
    (hl : t.node? l = some .directory) : (t.put m n).node? l = some .directory := by
  have hne : l ≠ m := by
    rintro rfl
    exact h hl
  rw [node?_put_other t hne, hl]

theorem Leads.put (h : t.Leads p l) (hm : t.node? m ≠ some .directory) (n : Node) :
    (t.put m n).Leads p l :=
  h.mono rfl fun _ => directory_put hm n

/-! ## What is right in a directory -/

/-- Neither a name nor its path from a directory is too long, and the path has no other flaw. -/
structure Fits (p : FilePath) (s : String) : Prop where
  path : checkPath (p.join s) = .ok ()
  name : s.utf8ByteSize ≤ nameLimit

theorem walk_join_eq_ok_iff (h : IsName s) :
    t.walk (t.start (p.join s)) (p.join s).names = .ok m ↔
      s.utf8ByteSize ≤ nameLimit ∧ ∃ l, t.Leads p l ∧ m = s :: l := by
  have hstart : t.start (p.join s) = t.start p := by
    rw [start, FilePath.isAbsolute_join h.head?, start]
  rw [hstart, FilePath.names_join_of_isName h, walk_concat_eq_ok_iff]
  simp only [step_eq_ok_iff h]
  constructor
  · rintro ⟨l, hwalk, hdir, hsize, rfl⟩
    exact ⟨hsize, l, ⟨hwalk, hdir⟩, rfl⟩
  · rintro ⟨hsize, l, hl, rfl⟩
    exact ⟨l, hl.walk, hl.directory, hsize, rfl⟩

theorem find_eq_ok_iff {n : Node} :
    t.find p = .ok (m, n) ↔
      checkPath p = .ok () ∧ t.walk (t.start p) (namesOf p) = .ok m ∧ t.node? m = some n := by
  rw [find]
  rcases checkPath p with e | ⟨⟩
  · simp [bind, Except.bind]
  rcases t.walk (t.start p) (namesOf p) with e | k
  · simp [bind, Except.bind]
  simp only [bind, Except.bind, true_and, Except.ok.injEq]
  cases hk : t.node? k with
  | none =>
      refine iff_of_false (fun h => by cases h) ?_
      rintro ⟨rfl, hm⟩
      simp [hk] at hm
  | some n' =>
      simp only [pure, Except.pure, Except.ok.injEq, Prod.mk.injEq]
      constructor
      · rintro ⟨rfl, rfl⟩
        exact ⟨rfl, hk⟩
      · rintro ⟨rfl, hm⟩
        exact ⟨rfl, Option.some.inj (hk.symm.trans hm)⟩

theorem around_eq_ok_iff {names : List String} {name? : Option String} :
    t.around p names = .ok (l, name?) ↔
      checkPath p = .ok () ∧ t.walk (t.start p) names.dropLast = .ok l ∧
        t.node? l = some .directory ∧ name? = names.getLast? := by
  rw [around]
  rcases checkPath p with e | ⟨⟩
  · simp [bind, Except.bind]
  rcases t.walk (t.start p) names.dropLast with e | k
  · simp [bind, Except.bind]
  simp only [bind, Except.bind, true_and, Except.ok.injEq]
  constructor
  · intro h
    split at h
    · next hk =>
        cases h
        exact ⟨rfl, hk, rfl⟩
    · cases h
    · cases h
  · rintro ⟨rfl, hk, rfl⟩
    simp only [hk]
    rfl

theorem around_join_eq_ok_iff (h : IsName s) {name? : Option String} :
    t.around (p.join s) (p.join s).names = .ok (l, name?) ↔
      checkPath (p.join s) = .ok () ∧ t.Leads p l ∧ name? = some s := by
  have hstart : t.start (p.join s) = t.start p := by
    rw [start, FilePath.isAbsolute_join h.head?, start]
  rw [around_eq_ok_iff, FilePath.names_join_of_isName h, hstart, List.dropLast_concat,
    List.getLast?_concat]
  refine and_congr_right fun _ => ⟨?_, ?_⟩
  · rintro ⟨hwalk, hdir, hname⟩
    exact ⟨⟨hwalk, hdir⟩, hname⟩
  · rintro ⟨hl, hname⟩
    exact ⟨hl.walk, hl.directory, hname⟩

theorem target_join_eq_ok_iff (h : IsName s) :
    t.target (p.join s) = .ok m ↔
      Fits p s ∧ ∃ l, t.Leads p l ∧ m = s :: l ∧ t.node? m ≠ some .directory := by
  have hstep {l : Location} (hl : t.Leads p l) :
      t.step l s = .ok m ↔ s.utf8ByteSize ≤ nameLimit ∧ m = s :: l := by
    rw [step_eq_ok_iff h, and_iff_right hl.directory]
  constructor
  · intro htarget
    rcases hres : t.around (p.join s) (p.join s).names with e | ⟨l, name?⟩
    · simp [target, hres, bind, Except.bind] at htarget
    obtain ⟨hpath, hl, rfl⟩ := (around_join_eq_ok_iff h).mp hres
    rcases hplace : t.step l s with e | k <;>
      simp only [target, hres, hplace, bind, Except.bind, FilePath.endsInSlash_join h,
        Bool.false_eq_true, if_false] at htarget
    · cases htarget
    split at htarget
    · cases htarget
    · next hfree =>
        cases htarget
        obtain ⟨hsize, rfl⟩ := (hstep hl).mp hplace
        exact ⟨⟨hpath, hsize⟩, l, hl, rfl, hfree⟩
  · rintro ⟨⟨hpath, hsize⟩, l, hl, rfl, hfree⟩
    have hres := (around_join_eq_ok_iff h).mpr ⟨hpath, hl, rfl⟩
    have hplace := (hstep hl).mpr ⟨hsize, rfl⟩
    simp only [target, hres, hplace, bind, Except.bind, FilePath.endsInSlash_join h,
      Bool.false_eq_true, if_false]
    rfl

theorem find_join_eq_ok_iff (h : IsName s) {n : Node} :
    t.find (p.join s) = .ok (m, n) ↔
      Fits p s ∧ ∃ l, t.Leads p l ∧ m = s :: l ∧ t.node? m = some n := by
  have hnames : namesOf (p.join s) = (p.join s).names := by
    simp [namesOf, FilePath.endsInSlash_join h]
  rw [find_eq_ok_iff, hnames, walk_join_eq_ok_iff h]
  constructor
  · rintro ⟨hpath, ⟨hsize, l, hl, rfl⟩, hn⟩
    exact ⟨⟨hpath, hsize⟩, l, hl, rfl, hn⟩
  · rintro ⟨⟨hpath, hsize⟩, l, hl, rfl, hn⟩
    exact ⟨hpath, ⟨hsize, l, hl, rfl⟩, hn⟩

theorem write_join_eq_ok_iff (h : IsName s) :
    t.write (p.join s) bytes = .ok t' ↔ Fits p s ∧ ∃ l, t.Leads p l ∧
      t.node? (s :: l) ≠ some .directory ∧ t' = t.put (s :: l) (.file bytes) := by
  rcases htarget : t.target (p.join s) with e | m
  · refine iff_of_false (by simp [write, htarget, bind, Except.bind]) ?_
    rintro ⟨hfits, l, hl, hfree, -⟩
    rw [(target_join_eq_ok_iff h).mpr ⟨hfits, l, hl, rfl, hfree⟩] at htarget
    cases htarget
  · obtain ⟨hfits, l, hl, rfl, hfree⟩ := (target_join_eq_ok_iff h).mp htarget
    simp only [write, htarget, bind, Except.bind, pure, Except.pure, Except.ok.injEq]
    constructor
    · rintro rfl
      exact ⟨hfits, l, hl, hfree, rfl⟩
    · rintro ⟨-, l', hl', -, rfl⟩
      rw [hl.unique hl']

/-- A file that was written is read back. -/
theorem read_join_of_write (h : IsName s) (hwrite : t.write (p.join s) bytes = .ok t') :
    t'.read (p.join s) = .ok bytes := by
  obtain ⟨hfits, l, hl, hfree, rfl⟩ := (write_join_eq_ok_iff h).mp hwrite
  have hfind : (t.put (s :: l) (.file bytes)).find (p.join s) = .ok (s :: l, .file bytes) :=
    (find_join_eq_ok_iff h).mpr
      ⟨hfits, l, hl.put hfree _, rfl, node?_put_same t (List.cons_ne_nil s l) _⟩
  rw [read, hfind]
  rfl

end FileTree

end CheckWorker
