import CheckWorker.Proofs.FileSystem.Finding
import CheckWorker.Proofs.Staging.Names

/-!
# Nothing outside is touched

Whatever the names, the code and the cache directories are, staging creates the root and what is
missing above it, directories below the root, and one file right in the root. Names that would lead
elsewhere are refused, and then nothing is touched.
-/

namespace CheckWorker

open FilePath (follow Reaches)
open FileTree (Grows)

/-- What a staging area is asked for. -/
structure StageCall where
  filename : String
  code : String
  cacheDir : Option String

namespace StagingArea

/-- The location of the root, seen from the working directory `here`. -/
def rootPlace (area : StagingArea) (here : Location) : Location :=
  area.root.place here

/-- A location below the root, and not the root itself. -/
def Below (area : StagingArea) (here l : Location) : Prop :=
  ∃ inner, inner ≠ [] ∧ l = inner ++ area.rootPlace here

/-- A location where staging may create a directory: that of the root or of a path above it, or one
below the root. -/
def MayHold (area : StagingArea) (here l : Location) : Prop :=
  Reaches here area.root l ∨ area.Below here l

variable {area : StagingArea} {files : FileTree} {filename code dir : String}

/-! ## Directories -/

/-- A location where a call asks for a directory: on the way to the root, or on the way from there to
its cache directory. -/
def Asked (area : StagingArea) (here : Location) (cacheDir : Option String) (l : Location) : Prop :=
  Reaches here area.root l ∨ ∃ dir ∈ cacheDir, ∃ inner, inner ≠ [] ∧
    inner <+: FilePath.steps ⟨dir⟩ ∧ l = inner.reverse ++ area.rootPlace here

theorem mayHold_of_asked {here l : Location} {cacheDir : Option String}
    (h : area.Asked here cacheDir l) : area.MayHold here l := by
  rcases h with hroot | ⟨dir, -, inner, hne, -, rfl⟩
  · exact .inl hroot
  · exact .inr ⟨_, List.reverse_ne_nil_iff.mpr hne, rfl⟩

theorem asked_of_reaches_join (h : IsCacheDir dir) {here l : Location}
    (hl : Reaches here (area.root.join dir) l) : area.Asked here (some dir) l := by
  obtain ⟨names, hnames, rfl⟩ := hl
  rw [FilePath.names_join h.relative] at hnames
  rw [FilePath.isAbsolute_join h.relative]
  rcases List.prefix_or_prefix_of_prefix hnames (List.prefix_append _ _) with hroot | hroot
  · exact .inl ⟨names, hroot, rfl⟩
  · obtain ⟨inner, rfl⟩ := hroot
    have hinner : inner <+: FilePath.names ⟨dir⟩ := (List.prefix_append_right_inj _).mp hnames
    have hdown : ".." ∉ inner := fun hmem => h.downwards <| by
      have hnames := hinner.subset hmem
      rw [FilePath.names, parts_eq_pieces] at hnames
      exact (List.mem_filter.mp hnames).1
    have hsteps := hinner.filter (· != ".")
    rw [FilePath.filter_names] at hsteps
    rw [FilePath.follow_append, FilePath.follow_eq_append hdown]
    by_cases hnone : inner.filter (· != ".") = []
    · rw [hnone]
      exact .inl (FilePath.reaches_place here area.root)
    · exact .inr ⟨dir, rfl, _, hnone, hsteps, rfl⟩

theorem grows_prepareAll {S : Location → Prop} {paths : List FilePath}
    (hS : ∀ p ∈ paths, ∀ l, Reaches files.here p l → S l) :
    Grows S files (prepareAll files paths).1 := by
  induction paths generalizing files with
  | nil => exact .refl S files
  | cons p paths ih =>
      have hfirst := (FileTree.grows_makeDirectories files p).mono (hS p List.mem_cons_self)
      rcases hmake : files.makeDirectories p with ⟨after, e | ⟨⟩⟩
      · rw [hmake] at hfirst
        simpa [prepareAll, prepare, hmake] using hfirst
      · rw [hmake] at hfirst
        have hrest : Grows S after (prepareAll after paths).1 := ih fun q hq => by
          rw [hfirst.here]
          exact hS q (List.mem_cons_of_mem _ hq)
        simpa [prepareAll, prepare, hmake] using hfirst.trans hrest

theorem prepareAll_eq_error {paths : List FilePath} {after : FileTree} {e : EngineError}
    (h : prepareAll files paths = (after, .error e)) :
    ∃ path cause, e = .staging path cause := by
  induction paths generalizing files with
  | nil => cases h
  | cons p paths ih =>
      rcases hmake : files.makeDirectories p with ⟨after', e' | ⟨⟩⟩
      · simp only [prepareAll, prepare, hmake] at h
        cases h
        exact ⟨_, _, rfl⟩
      · simp only [prepareAll, prepare, hmake] at h
        exact ih h

/-! ## The file -/

theorem place_pathOf (h : IsFilename filename) (here : Location) :
    (area.pathOf filename).place here = filename :: area.rootPlace here := by
  have hhead := head?_ne_slash h.slash
  rw [pathOf, FilePath.place, FilePath.names_join hhead, FilePath.isAbsolute_join hhead,
    FilePath.names_of_notMem h.ne_empty h.slash, FilePath.follow_append]
  simp [follow, FilePath.stepTo, h.ne_dot, h.ne_dots, rootPlace, FilePath.place]

/-! ## One call -/

variable {cacheDir : Option String}

theorem stage_of_filename (h : ¬ IsFilename filename) :
    area.stage files filename code cacheDir = (files, .error (.invalidFilename filename)) := by
  have hrefused : acceptsFilename filename = false := by
    simpa [← acceptsFilename_iff] using h
  simp [stage, hrefused]

theorem stage_of_cacheDir (hname : IsFilename filename) (h : ¬ IsCacheDir dir) :
    area.stage files filename code (some dir) = (files, .error (.invalidCacheDir dir)) := by
  have hrefused : acceptsCacheDir dir = false := by
    simpa [← acceptsCacheDir_iff] using h
  simp [stage, (acceptsFilename_iff filename).mpr hname, Option.filter, hrefused]

/-- With names that are accepted, directories are created and then the file is written. -/
theorem stage_eq (hname : IsFilename filename) (hdir : ∀ dir ∈ cacheDir, IsCacheDir dir) :
    area.stage files filename code cacheDir =
      match prepareAll files (area.root :: (cacheDir.map area.root.join).toList) with
      | (files, .error e) => (files, .error e)
      | (files, .ok ()) =>
          match files.write (area.pathOf filename) code.toUTF8 with
          | .ok files => (files, .ok (area.pathOf filename))
          | .error e => (files, .error (.staging (area.pathOf filename).text e)) := by
  have haccepted : cacheDir.filter (fun dir => !acceptsCacheDir dir) = none := by
    simpa [acceptsCacheDir_iff, Option.filter_eq_none_iff] using hdir
  rw [stage, (acceptsFilename_iff filename).mpr hname, haccepted]
  rfl

/-- Whatever comes of them, only directories that were asked for are created. -/
theorem grows_asked (area : StagingArea) (files : FileTree)
    (hdir : ∀ dir ∈ cacheDir, IsCacheDir dir) :
    Grows (area.Asked files.here cacheDir) files
      (prepareAll files (area.root :: (cacheDir.map area.root.join).toList)).1 := by
  refine grows_prepareAll fun p hp l hl => ?_
  rcases List.mem_cons.mp hp with rfl | hp
  · exact .inl hl
  · obtain ⟨dir, rfl, rfl⟩ := Option.map_eq_some_iff.mp (Option.mem_toList.mp hp)
    exact asked_of_reaches_join (hdir dir rfl) hl

/-- What becomes of a call whose names are accepted: directories are created, and then the file is
written, unless one or the other fails. -/
theorem stage_of_accepted (area : StagingArea) (files : FileTree) (code : String)
    (hname : IsFilename filename) (hdir : ∀ dir ∈ cacheDir, IsCacheDir dir) :
    ∃ prepared, Grows (area.Asked files.here cacheDir) files prepared ∧
      ((∃ path cause, area.stage files filename code cacheDir =
          (prepared, .error (.staging path cause))) ∨
        prepared.node? (filename :: area.rootPlace files.here) ≠ some .directory ∧
          area.stage files filename code cacheDir =
            (prepared.put (filename :: area.rootPlace files.here) (.file code.toUTF8),
              .ok (area.pathOf filename))) := by
  have hstage : area.stage files filename code cacheDir = _ := stage_eq hname hdir
  have hgrows := grows_asked area files hdir
  rcases hprepare : prepareAll files (area.root :: (cacheDir.map area.root.join).toList) with
    ⟨prepared, e | ⟨⟩⟩
  · obtain ⟨path, cause, rfl⟩ := prepareAll_eq_error hprepare
    rw [hprepare] at hgrows hstage
    exact ⟨prepared, hgrows, .inl ⟨path, cause, hstage⟩⟩
  · rw [hprepare] at hgrows hstage
    dsimp only at hgrows hstage
    refine ⟨prepared, hgrows, ?_⟩
    cases hwrite : prepared.write (area.pathOf filename) code.toUTF8 with
    | error e => exact .inl ⟨_, e, by rw [hstage, hwrite]⟩
    | ok after =>
        obtain ⟨hfree, hafter⟩ := FileTree.write_eq_ok hwrite
        rw [place_pathOf hname, hgrows.here] at hfree hafter
        exact .inr ⟨hfree, by rw [hstage, hwrite, hafter]⟩

/-- A call that succeeds was accepted, and it wrote its file after all directories. -/
theorem exists_of_stage {files' : FileTree} {path : FilePath}
    (h : area.stage files filename code cacheDir = (files', .ok path)) :
    IsFilename filename ∧ (∀ dir ∈ cacheDir, IsCacheDir dir) ∧ path = area.pathOf filename ∧
      ∃ prepared : FileTree,
        prepareAll files (area.root :: (cacheDir.map area.root.join).toList) =
            (prepared, .ok ()) ∧
          prepared.write (area.pathOf filename) code.toUTF8 = .ok files' := by
  by_cases hname : IsFilename filename
  case neg =>
    rw [stage_of_filename hname] at h
    cases h
  by_cases hdir : ∀ dir ∈ cacheDir, IsCacheDir dir
  case neg =>
    obtain ⟨dir, rfl, hbad⟩ : ∃ dir, cacheDir = some dir ∧ ¬ IsCacheDir dir := by
      simpa using hdir
    rw [stage_of_cacheDir hname hbad] at h
    cases h
  rw [stage_eq hname hdir] at h
  split at h
  · cases h
  · next prepared hprepare =>
      split at h
      · next hwrite =>
          cases h
          exact ⟨hname, hdir, rfl, prepared, hprepare, hwrite⟩
      · cases h

theorem IsFilename.isName (h : IsFilename filename) : FilePath.IsName filename :=
  ⟨h.ne_empty, h.slash, h.ne_dot, h.ne_dots⟩

/-- The path of a file in the area is that of the root, and the name behind it. -/
theorem exists_text_pathOf (area : StagingArea) (h : IsFilename filename) :
    ∃ front, (area.pathOf filename).text.toList = front ++ filename.toList ∧
      ∀ c ∈ front, c = '/' ∨ c ∈ area.root.text.toList := by
  rcases FilePath.text_join (p := area.root) h.isName.head? with
    ⟨htext, -⟩ | ⟨htext, -⟩ | ⟨htext, -⟩
  · exact ⟨[], by simp [pathOf, htext], by simp⟩
  · refine ⟨area.root.text.toList, by simp [pathOf, htext, String.toList_append], ?_⟩
    intro c hc
    exact .inr hc
  · refine ⟨area.root.text.toList ++ ['/'], by simp [pathOf, htext, String.toList_append], ?_⟩
    intro c hc
    rcases List.mem_append.mp hc with hc | hc
    · exact .inr hc
    · exact .inl (List.mem_singleton.mp hc)

theorem text_pathOf_ne_empty (area : StagingArea) (h : IsFilename filename) :
    (area.pathOf filename).text ≠ "" := by
  obtain ⟨front, htext, -⟩ := exists_text_pathOf area h
  intro hempty
  rw [hempty] at htext
  exact h.ne_empty (String.toList_eq_nil_iff.mp (List.append_eq_nil_iff.mp htext.symm).2)

/-- What was staged is read back, whatever was there before. -/
theorem read_of_stage {files' : FileTree} {path : FilePath}
    (h : area.stage files filename code cacheDir = (files', .ok path)) :
    path = area.pathOf filename ∧ files'.read path = .ok code.toUTF8 := by
  obtain ⟨hname, -, rfl, prepared, -, hwrite⟩ := exists_of_stage h
  exact ⟨rfl, FileTree.read_join_of_write hname.isName hwrite⟩

/-- What may have become of the node at a location after some calls. -/
inductive Touched (area : StagingArea) (here : Location) (calls : List StageCall) (l : Location) :
    Option Node → Option Node → Prop
  | same (n : Option Node) : Touched area here calls l n n
  | created (h : area.MayHold here l) : Touched area here calls l none (some .directory)
  /-- It is the file of one of the calls, right in the root. -/
  | written (call : StageCall) (hcall : call ∈ calls) (hname : IsFilename call.filename)
      (hl : l = call.filename :: area.rootPlace here) (n : Option Node)
      (hn : n ≠ some .directory) : Touched area here calls l n (some (.file call.code.toUTF8))

theorem Touched.trans {here l : Location} {calls calls' : List StageCall} {a b c : Option Node}
    (h : Touched area here calls l a b) (h' : Touched area here calls' l b c) :
    Touched area here (calls ++ calls') l a c := by
  cases h' with
  | same =>
      cases h with
      | same => exact .same _
      | created hl => exact .created hl
      | written call hcall hname hl _ hn =>
          exact .written call (List.mem_append_left _ hcall) hname hl _ hn
  | created hl' =>
      cases h with
      | same => exact .created hl'
  | written call hcall hname hl _ hn =>
      have hcall' : call ∈ calls ++ calls' := List.mem_append_right _ hcall
      cases h with
      | same => exact .written call hcall' hname hl _ hn
      | created hl' => exact absurd rfl hn
      | written call' _ _ _ _ hn' => exact .written call hcall' hname hl _ hn'

def answer (area : StagingArea) (files : FileTree) (call : StageCall) :
    FileTree × Except EngineError FilePath :=
  area.stage files call.filename call.code call.cacheDir

/-- What is to be true of a call, whatever it finds. -/
structure Confined (area : StagingArea) (files : FileTree) (call : StageCall) : Prop where
  here : (area.answer files call).1.here = files.here
  touched : ∀ l, Touched area files.here [call] l (files.node? l)
    ((area.answer files call).1.node? l)
  written : ∀ path, (area.answer files call).2 = .ok path → path = area.pathOf call.filename ∧
    (area.answer files call).1.node? (call.filename :: area.rootPlace files.here) =
      some (.file call.code.toUTF8)
  invalidFilename : ∀ name, (area.answer files call).2 = .error (.invalidFilename name) ↔
    name = call.filename ∧ ¬ IsFilename name
  /-- The name of the file is looked at first. -/
  invalidCacheDir : ∀ dir, (area.answer files call).2 = .error (.invalidCacheDir dir) ↔
    IsFilename call.filename ∧ call.cacheDir = some dir ∧ ¬ IsCacheDir dir
  untouched : (¬ IsFilename call.filename ∨ ∃ dir ∈ call.cacheDir, ¬ IsCacheDir dir) →
    (area.answer files call).1 = files

theorem touched_of_grows {here : Location} {before prepared : FileTree}
    (h : Grows (area.MayHold here) before prepared) (calls : List StageCall) (l : Location) :
    Touched area here calls l (before.node? l) (prepared.node? l) := by
  rcases h.node l with hsame | ⟨hl, hnone, hdir⟩
  · rw [hsame]
    exact .same _
  · rw [hnone, hdir]
    exact .created hl

theorem touched_put {here : Location} {prepared : FileTree} {call : StageCall}
    (hname : IsFilename call.filename)
    (hfree : prepared.node? (call.filename :: area.rootPlace here) ≠ some .directory)
    (l : Location) :
    Touched area here [call] l (prepared.node? l)
      ((prepared.put (call.filename :: area.rootPlace here)
        (.file call.code.toUTF8)).node? l) := by
  by_cases hl : l = call.filename :: area.rootPlace here
  · rw [hl, FileTree.node?_put_same _ (List.cons_ne_nil _ _)]
    exact .written call (List.mem_singleton_self call) hname rfl _ hfree
  · rw [FileTree.node?_put_other _ hl]
    exact .same _

/-- A call whose names are accepted is not refused, so only what it touches is in question. -/
theorem confined_of_outcome {call : StageCall} {after : FileTree}
    {outcome : Except EngineError FilePath} (hname : IsFilename call.filename)
    (hdir : ∀ dir ∈ call.cacheDir, IsCacheDir dir)
    (hanswer : area.answer files call = (after, outcome)) (hhere : after.here = files.here)
    (htouched : ∀ l, Touched area files.here [call] l (files.node? l) (after.node? l))
    (hwritten : ∀ path, outcome = .ok path → path = area.pathOf call.filename ∧
      after.node? (call.filename :: area.rootPlace files.here) = some (.file call.code.toUTF8))
    (hfilename : ∀ name, outcome ≠ .error (.invalidFilename name))
    (hcacheDir : ∀ dir, outcome ≠ .error (.invalidCacheDir dir)) : Confined area files call where
  here := by rw [hanswer]; exact hhere
  touched := by rw [hanswer]; exact htouched
  written := by rw [hanswer]; exact hwritten
  invalidFilename name := by
    rw [hanswer]
    refine iff_of_false (hfilename name) ?_
    rintro ⟨rfl, hbad⟩
    exact hbad hname
  invalidCacheDir dir := by
    rw [hanswer]
    refine iff_of_false (hcacheDir dir) ?_
    rintro ⟨-, hsome, hbad⟩
    exact hbad (hdir dir hsome)
  untouched := by
    rintro (hbad | ⟨dir, hsome, hbad⟩)
    · exact absurd hname hbad
    · exact absurd (hdir dir hsome) hbad

theorem confined_of_accepted {call : StageCall} (hname : IsFilename call.filename)
    (hdir : ∀ dir ∈ call.cacheDir, IsCacheDir dir) : Confined area files call := by
  obtain ⟨prepared, hasked, hend⟩ := stage_of_accepted area files call.code hname hdir
  have hgrows := hasked.mono fun _ => mayHold_of_asked
  obtain ⟨path, cause, hstage⟩ | ⟨hfree, hstage⟩ := hend
  · refine confined_of_outcome hname hdir hstage hgrows.here (touched_of_grows hgrows [call])
      (fun path hpath => ?_) (by simp) (by simp)
    cases hpath
  · refine confined_of_outcome hname hdir hstage hgrows.here (fun l => ?_) (fun path hpath => ?_)
      (by simp) (by simp)
    · exact (touched_of_grows hgrows [] l).trans (touched_put hname hfree l)
    · cases hpath
      exact ⟨rfl, FileTree.node?_put_same prepared (List.cons_ne_nil _ _) _⟩

theorem confined_of_refused {call : StageCall} {e : EngineError}
    (h : area.answer files call = (files, .error e))
    (hname : ∀ name, e = .invalidFilename name ↔ name = call.filename ∧ ¬ IsFilename name)
    (hdir : ∀ dir, e = .invalidCacheDir dir ↔
      IsFilename call.filename ∧ call.cacheDir = some dir ∧ ¬ IsCacheDir dir) :
    Confined area files call where
  here := by rw [h]
  touched l := by
    rw [h]
    exact .same _
  written path hpath := by simp [h] at hpath
  invalidFilename name := by simpa [h] using hname name
  invalidCacheDir dir := by simpa [h] using hdir dir
  untouched _ := by rw [h]

/-- A call touches only what it may, and it is refused just when a name is not accepted. -/
theorem confined (area : StagingArea) (files : FileTree) (call : StageCall) :
    Confined area files call := by
  by_cases hname : IsFilename call.filename
  · by_cases hdir : ∀ dir ∈ call.cacheDir, IsCacheDir dir
    · exact confined_of_accepted hname hdir
    · obtain ⟨dir, hsome, hbad⟩ : ∃ dir, dir ∈ call.cacheDir ∧ ¬ IsCacheDir dir := by
        simpa using hdir
      have hanswer : area.answer files call = (files, .error (.invalidCacheDir dir)) := by
        rw [answer, hsome]
        exact stage_of_cacheDir hname hbad
      refine confined_of_refused hanswer (fun name => ?_) fun other => ?_
      · refine iff_of_false (by simp) ?_
        rintro ⟨rfl, hbad⟩
        exact hbad hname
      · constructor
        · intro heq
          cases heq
          exact ⟨hname, hsome, hbad⟩
        · rintro ⟨-, hother, -⟩
          rw [hsome] at hother
          cases hother
          rfl
  · have hanswer : area.answer files call = (files, .error (.invalidFilename call.filename)) :=
      stage_of_filename hname
    refine confined_of_refused hanswer (fun name => ?_) fun dir => ?_
    · constructor
      · intro heq
        cases heq
        exact ⟨rfl, hname⟩
      · rintro ⟨rfl, -⟩
        rfl
    · exact iff_of_false (by simp) fun h => hname h.1

/-! ## Many calls -/

/-- What is left of the files after some calls. -/
def answerAll (area : StagingArea) (files : FileTree) (calls : List StageCall) : FileTree :=
  calls.foldl (fun files call => (area.answer files call).1) files

theorem touched_answerAll (area : StagingArea) (files : FileTree) (calls : List StageCall) :
    (area.answerAll files calls).here = files.here ∧
      ∀ l, Touched area files.here calls l (files.node? l)
        ((area.answerAll files calls).node? l) := by
  induction calls generalizing files with
  | nil => exact ⟨rfl, fun l => .same _⟩
  | cons call calls ih =>
      have hcall := confined area files call
      obtain ⟨hhere, htouched⟩ := ih (area.answer files call).1
      rw [hcall.here] at hhere htouched
      exact ⟨hhere, fun l => (hcall.touched l).trans (htouched l)⟩

/-- Whatever was staged before, the next call keeps within the area, and all calls together do. -/
theorem confined_answerAll (area : StagingArea) (files : FileTree) (calls : List StageCall) :
    (∀ call, Confined area (area.answerAll files calls) call) ∧
      (area.answerAll files calls).here = files.here ∧
      ∀ l, Touched area files.here calls l (files.node? l)
        ((area.answerAll files calls).node? l) :=
  ⟨confined area (area.answerAll files calls), touched_answerAll area files calls⟩

end StagingArea

end CheckWorker
