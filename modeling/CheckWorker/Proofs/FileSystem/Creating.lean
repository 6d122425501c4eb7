import CheckWorker.Proofs.FileSystem.Entries
import Mathlib.Data.List.Induction

/-!
# Creating all directories on a way

A way is open if there are only directories on it, or nothing yet. Along an open way all missing
directories can be created: one climbs from the last of them up to one that is there or can be
created, and comes down again. Two dots on the way do no harm, since they lead to where one has
been.
-/

namespace CheckWorker

namespace FilePath

/-! ## The paths above, and their names -/

/-- The names of a path held backwards. -/
def namesBack (back : List Char) : List String :=
  names ⟨String.ofList back.reverse⟩

theorem namesBack_append (trail back : List Char) :
    namesBack (trail ++ '/' :: back) = namesBack back ++ namesBack trail := by
  have htext : (FilePath.mk (String.ofList (trail ++ '/' :: back).reverse)).text.toList =
      back.reverse ++ '/' :: trail.reverse := by simp
  exact names_of_text htext

theorem namesBack_nil : namesBack [] = [] :=
  names_empty

theorem namesBack_slash (back : List Char) : namesBack ('/' :: back) = namesBack back := by
  have happend := namesBack_append [] back
  rwa [namesBack_nil, List.append_nil] at happend

theorem namesBack_piece {back : List Char} (hne : back ≠ []) (h : '/' ∉ back) :
    namesBack back = [String.ofList back.reverse] := by
  have hslash : '/' ∉ back.reverse := by simpa using h
  have hname : String.ofList back.reverse ≠ "" := by simpa using hne
  exact names_of_notMem hname (by rwa [String.toList_ofList])

/-- What is trimmed off has no names but single dots. -/
theorem namesBack_trimBack {back : List Char} (h : "." ∉ namesBack back) :
    namesBack (trimBack back) = namesBack back := by
  fun_induction trimBack back with
  | case1 back hnil => rw [List.isEmpty_iff.mp hnil]
  | case2 back hnil ih =>
      rw [namesBack_slash] at h ⊢
      exact ih h
  | case3 back ih =>
      have hdot : namesBack ('.' :: '/' :: back) = namesBack back ++ ["."] :=
        namesBack_append ['.'] back
      rw [hdot] at h
      simp at h
  | case4 back _ _ => rfl

/-- Only the root ends in a slash when it has been trimmed. -/
theorem eq_nil_of_trimBack {back rest : List Char} (h : trimBack back = '/' :: rest) :
    rest = [] := by
  fun_induction trimBack back with
  | case1 back _ => exact (List.cons.inj h).2.symm
  | case2 back _ ih => exact ih h
  | case3 back ih => exact ih h
  | case4 back hslash _ => exact absurd h (hslash rest)

/-- Without a path above it a path has no names. -/
theorem namesBack_of_parentBack?_eq_none {back : List Char} (h : "." ∉ namesBack back)
    (hnone : parentBack? back = none) : namesBack back = [] := by
  rw [← namesBack_trimBack h]
  unfold parentBack? at hnone
  split at hnone
  · next htrim => rw [htrim, namesBack_nil]
  · next c rest htrim =>
      split at hnone
      · next hslash =>
          subst hslash
          rw [htrim, eq_nil_of_trimBack htrim, namesBack_slash, namesBack_nil]
      · cases hnone

/-- The last name is what stands before the nearest slash, seen from the end. -/
theorem namesBack_cons {c : Char} {rest : List Char} (hc : c ≠ '/') :
    ∃ name, namesBack (c :: rest) = namesBack (rest.dropWhile (· != '/')) ++ [name] := by
  have hlast : '/' ∉ c :: rest.takeWhile (· != '/') := by
    simp only [List.mem_cons, not_or]
    refine ⟨hc.symm, fun hmem => ?_⟩
    simpa using List.all_eq_true.mp List.all_takeWhile _ hmem
  have hpiece := namesBack_piece (List.cons_ne_nil _ _) hlast
  have hsplit : c :: rest = c :: rest.takeWhile (· != '/') ++ rest.dropWhile (· != '/') := by
    rw [List.cons_append, List.takeWhile_append_dropWhile]
  refine ⟨String.ofList (c :: rest.takeWhile (· != '/')).reverse, ?_⟩
  cases hdrop : rest.dropWhile (· != '/') with
  | nil =>
      rw [hdrop, List.append_nil] at hsplit
      rw [hsplit, hpiece, namesBack_nil, List.nil_append]
  | cons d tail =>
      have hd : d = '/' := by
        have hhead := List.head?_dropWhile_not (· != '/') rest
        simpa [hdrop] using hhead
      subst hd
      rw [hdrop] at hsplit
      rw [hsplit, namesBack_append, hpiece, namesBack_slash]

/-- The path above one has all of its names but the last. -/
theorem namesBack_of_parentBack? {back above : List Char} (h : "." ∉ namesBack back)
    (hsome : parentBack? back = some above) :
    ∃ name, namesBack back = namesBack above ++ [name] := by
  have hnames := namesBack_trimBack h
  rw [← hnames] at h ⊢
  unfold parentBack? at hsome
  split at hsome
  · cases hsome
  · next c rest htrim =>
      split at hsome
      · cases hsome
      · next hslash =>
          obtain rfl := Option.some.inj hsome
          obtain ⟨name, hname⟩ := namesBack_cons hslash
          rw [htrim, hname] at h ⊢
          have hfront : "." ∉ namesBack (rest.dropWhile (· != '/')) := fun hmem =>
            h (List.mem_append_left _ hmem)
          rw [namesBack_trimBack hfront]
          exact ⟨name, rfl⟩

/-- Paths that lead up a way, each from the end of the names that are left, as far as there are
names. -/
inductive Ascent : List String → List FilePath → Prop
  | top : Ascent [] []
  | up (names : List String) (name : String) (p : FilePath) (above : List FilePath)
      (hp : p.names = names ++ [name]) (h : Ascent names above) :
      Ascent (names ++ [name]) (p :: above)

theorem ascent_upwards (back : List Char) (h : "." ∉ namesBack back) :
    Ascent (namesBack back) ((upwards back).map fun back => ⟨String.ofList back.reverse⟩) := by
  fun_induction upwards back with
  | case1 back hnone =>
      rw [namesBack_of_parentBack?_eq_none h hnone]
      exact .top
  | case2 back above hsome ih =>
      obtain ⟨name, hname⟩ := namesBack_of_parentBack? h hsome
      rw [hname] at h ⊢
      have habove : "." ∉ namesBack above := fun hmem => h (List.mem_append_left _ hmem)
      exact .up _ name _ _ hname (ih habove)

theorem ascent_upward {p : FilePath} (h : "." ∉ p.names) : Ascent p.names p.upward := by
  have hnames : namesBack p.text.toList.reverse = p.names := by simp [namesBack]
  have hascent := ascent_upwards p.text.toList.reverse (by rwa [hnames])
  rwa [hnames] at hascent

/-- A path above one is the beginning of it. -/
theorem eq_append_of_mem_upward {p q : FilePath} (h : q ∈ p.upward) :
    q.text ≠ "" ∧ ∃ rest, p = ⟨q.text ++ rest⟩ := by
  obtain ⟨back, hback, rfl⟩ := List.mem_map.mp h
  obtain ⟨hne, hself | ⟨more, hmore⟩⟩ := mem_upwards hback
  · refine ⟨by simpa using hne, "", ?_⟩
    simp [hself]
  · refine ⟨by simpa using hne, String.ofList ('/' :: more.reverse), ?_⟩
    have htext : p.text.toList = back.reverse ++ '/' :: more.reverse := by
      have hrev := congrArg List.reverse hmore
      simpa using hrev
    have hp : p = ⟨String.ofList p.text.toList⟩ := by simp
    rw [hp, htext, String.ofList_append]

end FilePath

namespace FileTree

open FilePath (stepTo follow Ascent)

variable {t : FileTree} {l m : Location} {p : FilePath} {names target : List String} {name : String}

/-! ## Open ways -/

theorem step_of_directory (h : t.node? l = some .directory)
    (hlimit : name.utf8ByteSize ≤ nameLimit) : t.step l name = .ok (stepTo l name) := by
  simp only [step, h, stepTo, if_neg (Nat.not_lt.mpr hlimit)]
  split
  · rfl
  · split <;> rfl

/-- Where one has come on a way, one has come through all that is around it. -/
theorem directory_of_walk (h : t.walk l names = .ok m)
    (hl : ∀ k, k <:+ l → k ≠ l → t.node? k = some .directory) :
    ∀ k, k <:+ m → k ≠ m → t.node? k = some .directory := by
  induction names generalizing l with
  | nil =>
      cases h
      exact hl
  | cons name names ih =>
      cases hstep : t.step l name with
      | error e => simp [walk, hstep, bind, Except.bind] at h
      | ok next =>
          have hrest : t.walk next names = .ok m := by
            simpa [walk, hstep, bind, Except.bind] using h
          have hdir := node?_of_step hstep
          have haround (k : Location) (hk : k <:+ l) : t.node? k = some .directory := by
            by_cases heq : k = l
            · rw [heq, hdir]
            · exact hl k hk heq
          refine ih hrest fun k hk hne => ?_
          rw [step_eq_stepTo hstep, stepTo] at hk hne
          split at hk
          · exact haround k hk
          · split at hk
            · exact haround k (hk.trans (List.tail_suffix l))
            · rename_i hdot hdots
              rw [if_neg hdot, if_neg hdots] at hne
              exact haround k ((List.suffix_cons_iff.mp hk).resolve_left hne)

/-- Starting at the root of all files, there are only directories on a way, or nothing yet, and no
name is too long. -/
structure Open (t : FileTree) (names : List String) : Prop where
  plain : "." ∉ names
  limit : ∀ name ∈ names, name.utf8ByteSize ≤ nameLimit
  free : ∀ front, front <+: names → t.node? (follow [] front) = none ∨
    t.node? (follow [] front) = some .directory

theorem Open.of_prefix (h : t.Open target) (hnames : names <+: target) : t.Open names where
  plain hmem := h.plain (hnames.subset hmem)
  limit name hmem := h.limit name (hnames.subset hmem)
  free front hfront := h.free front (hfront.trans hnames)

/-- A way stays open when directories are created, wherever that is. -/
theorem Open.grows {S : Location → Prop} {t' : FileTree} (h : t.Open names) (ht : Grows S t t') :
    t'.Open names where
  plain := h.plain
  limit := h.limit
  free front hfront := by
    rcases ht.node (follow [] front) with hsame | ⟨-, -, hdir⟩
    · rw [hsame]
      exact h.free front hfront
    · exact .inr hdir

theorem Open.put (h : t.Open names) (hl : t.node? l = none) : (t.put l .directory).Open names :=
  h.grows (grows_put (S := fun _ => True) trivial hl)

/-- A way from the root of all files leads to a directory. -/
structure Trodden (t : FileTree) (names : List String) : Prop where
  walk : t.walk [] names = .ok (follow [] names)
  directory : t.node? (follow [] names) = some .directory

theorem trodden_nil (t : FileTree) : t.Trodden [] :=
  ⟨rfl, node?_root t⟩

theorem Trodden.put (h : t.Trodden names) (hl : t.node? l = none) :
    (t.put l .directory).Trodden names := by
  have hfree : t.node? l ≠ some .directory := by simp [hl]
  exact ⟨walk_mono (fun _ => directory_put hfree _) h.walk, directory_put hfree _ h.directory⟩

theorem follow_concat (l : Location) (names : List String) (name : String) :
    follow l (names ++ [name]) = stepTo (follow l names) name :=
  FilePath.follow_append l names [name]

/-- Out of a directory one can go on, whatever is there. -/
theorem Trodden.walk_concat (h : t.Trodden names) (hlimit : name.utf8ByteSize ≤ nameLimit) :
    t.walk [] (names ++ [name]) = .ok (follow [] (names ++ [name])) := by
  rw [walk_concat_eq_ok_iff]
  refine ⟨_, h.walk, ?_⟩
  rw [step_of_directory h.directory hlimit, follow_concat]

theorem Trodden.concat (h : t.Trodden names) (hlimit : name.utf8ByteSize ≤ nameLimit)
    (hdir : t.node? (follow [] (names ++ [name])) = some .directory) :
    t.Trodden (names ++ [name]) :=
  ⟨h.walk_concat hlimit, hdir⟩

/-- A created directory is where its path leads. -/
theorem Trodden.create (h : t.Trodden names) (hlimit : name.utf8ByteSize ≤ nameLimit)
    (hnone : t.node? (follow [] (names ++ [name])) = none) :
    (t.put (follow [] (names ++ [name])) .directory).Trodden (names ++ [name]) := by
  have hne : follow [] (names ++ [name]) ≠ [] := fun hnil => by simp [hnil] at hnone
  exact (h.put hnone).concat hlimit (node?_put_same t hne _)

/-- Two dots lead back to a directory. -/
theorem Trodden.dots (h : t.Trodden names) : t.Trodden (names ++ [".."]) := by
  refine h.concat (by decide) ?_
  have hdots : follow [] (names ++ [".."]) = (follow [] names).tail := follow_concat [] names ".."
  rw [hdots]
  have haround := directory_of_walk h.walk fun k hk hne => absurd (List.suffix_nil.mp hk) hne
  cases hplace : follow [] names with
  | nil => exact node?_root t
  | cons name around =>
      rw [hplace] at haround
      exact haround around (List.suffix_cons name around) (by simp)

/-- If an open way leads to no directory, something on it is missing. -/
theorem Open.walk_cases (h : t.Open names) :
    t.Trodden names ∨ t.walk [] names = .error .notFound ∨
      t.walk [] names = .ok (follow [] names) ∧ t.node? (follow [] names) = none := by
  induction names using List.reverseRecOn with
  | nil => exact .inl (trodden_nil t)
  | append_singleton names name ih =>
      have hlimit := h.limit name (by simp)
      rcases ih (h.of_prefix (List.prefix_append _ _)) with htrodden | herror | ⟨hwalk, hnone⟩
      · have hwalk := htrodden.walk_concat hlimit
        rcases h.free _ List.prefix_rfl with hnone | hdir
        · exact .inr (.inr ⟨hwalk, hnone⟩)
        · exact .inl ⟨hwalk, hdir⟩
      · refine .inr (.inl ?_)
        rw [walk_append, herror]
        rfl
      · refine .inr (.inl ?_)
        rw [walk_append, hwalk]
        simp [bind, Except.bind, walk, step, hnone]

/-! ## Going up and coming down -/

/-- An absolute path without flaws along a way. -/
structure Along (target : List String) (p : FilePath) : Prop where
  absolute : p.isAbsolute = true
  path : checkPath p = .ok ()
  names : p.names <+: target

theorem Along.start (h : Along target p) : t.start p = [] := by
  rw [FileTree.start, if_pos h.absolute]

theorem Along.leads (h : Along target p) (ht : t.Trodden p.names) :
    t.Leads p (follow [] p.names) where
  walk := by
    rw [h.start]
    exact ht.walk
  directory := ht.directory

/-- Out of a directory a path leads to one that is there, or to one that is created. -/
theorem makeDirectory_of_trodden (hp : Along target p) (hopen : t.Open target)
    (hnames : p.names = names ++ [name]) (h : t.Trodden names) :
    t.makeDirectory p = .error .exists ∧ t.isDirectory p = true ∧ t.Trodden (names ++ [name]) ∨
      ∃ t', t.makeDirectory p = .ok t' ∧ t'.Open target ∧ t'.Trodden (names ++ [name]) := by
  have hopen' : t.Open (names ++ [name]) := hnames ▸ hopen.of_prefix hp.names
  have hlimit := hopen'.limit name (by simp)
  have hdot : name ≠ "." := fun heq => hopen'.plain (by simp [heq])
  have hthere (hend : t.Trodden (names ++ [name])) : t.isDirectory p = true := by
    rw [← hnames] at hend
    exact isDirectory_of_leads (hp.leads hend) hp.path
  have haround : t.around p p.names = .ok (follow [] names, some name) := by
    rw [around_eq_ok_iff, hnames, List.dropLast_concat, List.getLast?_concat, hp.start]
    exact ⟨hp.path, h.walk, h.directory, rfl⟩
  by_cases hdots : name = ".."
  · have hend : t.Trodden (names ++ [name]) := hdots ▸ h.dots
    refine .inl ⟨?_, hthere hend, hend⟩
    simp only [makeDirectory, haround, bind, Except.bind, hdots, or_true, if_true]
    rfl
  · have hstep : t.step (follow [] names) name = .ok (follow [] (names ++ [name])) := by
      rw [step_of_directory h.directory hlimit, follow_concat]
    have hmake : t.makeDirectory p = (t.node? (follow [] (names ++ [name]))).elim
        (.ok (t.put (follow [] (names ++ [name])) .directory)) fun _ => .error .exists := by
      simp only [makeDirectory, haround, bind, Except.bind, hdot, hdots, or_self, if_false, hstep]
      cases t.node? (follow [] (names ++ [name])) <;> rfl
    rcases hopen'.free _ List.prefix_rfl with hnone | hdir
    · rw [hnone] at hmake
      exact .inr ⟨_, hmake, hopen.put hnone, h.create hlimit hnone⟩
    · rw [hdir] at hmake
      have hend := h.concat hlimit hdir
      exact .inl ⟨hmake, hthere hend, hend⟩

theorem makeDirectory_of_not_trodden (hp : Along target p) (hopen : t.Open target)
    (hnames : p.names = names ++ [name]) (h : ¬ t.Trodden names) :
    t.makeDirectory p = .error .notFound := by
  have hbefore : t.Open names := by
    refine hopen.of_prefix (List.IsPrefix.trans ?_ hp.names)
    rw [hnames]
    exact List.prefix_append _ _
  have haround : t.around p p.names = .error .notFound := by
    rw [around, hp.path, hp.start, hnames, List.dropLast_concat]
    rcases hbefore.walk_cases with htrodden | herror | ⟨hwalk, hnone⟩
    · exact absurd htrodden h
    · rw [herror]
      rfl
    · simp only [bind, Except.bind, hwalk, hnone]
      rfl
  rw [makeDirectory, haround]
  rfl

/-- Paths that lead down a way, each one name farther than the last, to its end. -/
inductive Descent (target : List String) : List String → List FilePath → Prop
  | arrived : Descent target target []
  | down (names : List String) (name : String) (p : FilePath) (below : List FilePath)
      (hp : p.names = names ++ [name]) (h : Descent target (names ++ [name]) below) :
      Descent target names (p :: below)

/-- Coming down an open way from a directory, one gets to its end. -/
theorem makeEach_of_descent {paths : List FilePath} (hpaths : Descent target names paths)
    (halong : ∀ p ∈ paths, Along target p) (hopen : t.Open target) (h : t.Trodden names) :
    ∃ t', t.makeEach paths = (t', .ok ()) ∧ t'.Trodden target := by
  induction hpaths generalizing t with
  | arrived => exact ⟨t, rfl, h⟩
  | down names name p below hp hbelow ih =>
      have hfirst := halong p List.mem_cons_self
      have hrest : ∀ q ∈ below, Along target q := fun q hq =>
        halong q (List.mem_cons_of_mem p hq)
      rcases makeDirectory_of_trodden hfirst hopen hp h with
        ⟨hmake, hdir, hthere⟩ | ⟨t', hmake, hopen', hthere⟩
      · simp only [makeEach, hmake, hdir, if_true]
        exact ih hrest hopen hthere
      · simp only [makeEach, hmake]
        exact ih hrest hopen' hthere

/-- Going up an open way, one gets to a directory, and knows the way back. -/
theorem climb_of_ascent {paths missing : List FilePath} (hpaths : Ascent names paths)
    (hmissing : Descent target names missing) (halong : ∀ p ∈ paths, Along target p)
    (halong' : ∀ p ∈ missing, Along target p) (hopen : t.Open target) :
    ∃ missing' t' names', t.climb missing paths = .ok (missing', t') ∧ t'.Open target ∧
      t'.Trodden names' ∧ Descent target names' missing' ∧ ∀ p ∈ missing', Along target p := by
  induction hpaths generalizing missing with
  | top => exact ⟨missing, t, [], rfl, hopen, trodden_nil t, hmissing, halong'⟩
  | up names name p above hp habove ih =>
      have hfirst := halong p List.mem_cons_self
      by_cases htrodden : t.Trodden names
      · rcases makeDirectory_of_trodden hfirst hopen hp htrodden with
          ⟨hmake, hdir, hthere⟩ | ⟨t', hmake, hopen', hthere⟩
        · refine ⟨missing, t, names ++ [name], ?_, hopen, hthere, hmissing, halong'⟩
          simp only [climb, hmake, hdir, if_true]
        · refine ⟨missing, t', names ++ [name], ?_, hopen', hthere, hmissing, halong'⟩
          simp only [climb, hmake]
      · have hmake := makeDirectory_of_not_trodden hfirst hopen hp htrodden
        have hnext : ∀ q ∈ p :: missing, Along target q := by
          intro q hq
          rcases List.mem_cons.mp hq with rfl | hq
          · exact hfirst
          · exact halong' q hq
        obtain ⟨missing', t', names', hclimb, hrest⟩ := ih (.down names name p missing hp hmissing)
          (fun q hq => halong q (List.mem_cons_of_mem p hq)) hnext
        refine ⟨missing', t', names', ?_, hrest⟩
        simp only [climb, hmake]
        exact hclimb

/-- All directories on an open way can be created. -/
theorem makeDirectories_of_open (habs : p.isAbsolute = true) (hcheck : checkPath p = .ok ())
    (hopen : t.Open p.names) :
    ∃ t', t.makeDirectories p = (t', .ok ()) ∧ t'.Leads p (follow [] p.names) := by
  have halong : ∀ q ∈ p.upward, Along p.names q := fun q hq => by
    obtain ⟨hne, rest, hrest⟩ := FilePath.eq_append_of_mem_upward hq
    obtain ⟨hsame, hnames⟩ := FilePath.names_of_mem_upward hq
    rw [hrest] at hcheck
    exact ⟨hsame.trans habs, checkPath_of_append hne hcheck, hnames⟩
  obtain ⟨missing, t₁, names, hclimb, hopen₁, htrodden, hmissing, halong'⟩ :=
    climb_of_ascent (FilePath.ascent_upward hopen.plain) .arrived halong (by simp) hopen
  obtain ⟨t', hmake, hthere⟩ := makeEach_of_descent hmissing halong' hopen₁ htrodden
  have hp : Along p.names p := ⟨habs, hcheck, List.prefix_rfl⟩
  refine ⟨t', ?_, hp.leads hthere⟩
  simp only [makeDirectories, hclimb, hmake]

end FileTree

end CheckWorker
