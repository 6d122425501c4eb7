import CheckWorker.Proofs.FileSystem.Arriving
import CheckWorker.Proofs.Staging.Confinement

/-!
# What staging does to the files

A call that succeeds leaves exactly its code in its file, and a directory where it asked for one. A
call that fails leaves every file as it was. Either way nothing else comes of it but directories on
the way to the root and to the cache directory. So a file holds the code of the last call for it that
succeeded, whatever was asked for in between.
-/

namespace CheckWorker

open FileTree (Grows KeepsDirectories)

namespace StagingArea

variable {area : StagingArea} {files after : FileTree} {call : StageCall} {path : FilePath}
  {filename code dir : String} {cacheDir : Option String} {bytes : ByteArray}

/-- From one tree to another a call has been staged, and nothing else has been done. -/
structure Staged (area : StagingArea) (files : FileTree) (call : StageCall) (path : FilePath)
    (after : FileTree) : Prop where
  path_eq : path = area.pathOf call.filename
  file : after.read path = .ok call.code.toUTF8
  node : after.node? (call.filename :: area.rootPlace files.here) =
    some (.file call.code.toUTF8)
  cacheDir : ∀ dir ∈ call.cacheDir, after.isDirectory (area.root.join dir) = true
  here : after.here = files.here
  /-- The file takes no directory's place. -/
  free : files.node? (call.filename :: area.rootPlace files.here) ≠ some .directory
  others : ∀ l, l ≠ call.filename :: area.rootPlace files.here → after.node? l = files.node? l ∨
    area.Asked files.here call.cacheDir l ∧ files.node? l = none ∧
      after.node? l = some .directory

/-- What a call does to the files, by its end. -/
structure Effects (area : StagingArea) (files : FileTree) (call : StageCall) : Prop where
  staged : ∀ path, (area.answer files call).2 = .ok path →
    Staged area files call path (area.answer files call).1
  failed : ∀ e, (area.answer files call).2 = .error e →
    Grows (area.Asked files.here call.cacheDir) files (area.answer files call).1

/-- The code of the last of several calls that succeeded for a name. -/
def lastCode? (area : StagingArea) (filename : String) : FileTree → List StageCall → Option String
  | _, [] => none
  | files, call :: calls =>
      (area.lastCode? filename (area.answer files call).1 calls).or
        (if call.filename = filename ∧ (area.answer files call).2.isOk then some call.code
          else none)

/-! ## One call -/

theorem isDirectory_of_prepareAll {paths : List FilePath}
    (h : prepareAll files paths = (after, .ok ())) {p : FilePath} (hp : p ∈ paths)
    (hsteps : p.steps ≠ []) : after.isDirectory p = true := by
  induction paths generalizing files with
  | nil => cases hp
  | cons q paths ih =>
      rcases hmake : files.makeDirectories q with ⟨between, e | ⟨⟩⟩ <;>
        simp only [prepareAll, prepare, hmake] at h
      · cases h
      rcases List.mem_cons.mp hp with rfl | hp
      · have hrest : Grows (fun _ => True) between (prepareAll between paths).1 :=
          grows_prepareAll fun _ _ _ _ => trivial
        rw [h] at hrest
        exact hrest.keepsDirectories.isDirectory
          (FileTree.isDirectory_of_makeDirectories hsteps hmake)
      · exact ih h hp

/-- The path of a cache directory has steps. -/
theorem steps_join_ne_nil (h : IsCacheDir dir) : (area.root.join dir).steps ≠ [] := by
  obtain ⟨piece, hmem, hne⟩ := h.named
  rw [← FilePath.filter_names, FilePath.names_join h.relative, List.filter_append,
    FilePath.filter_names ⟨dir⟩]
  exact List.append_ne_nil_of_right_ne_nil _ (List.ne_nil_of_mem (mem_steps.mpr ⟨hmem, hne⟩))

theorem staged_of_ok (h : area.answer files call = (after, .ok path)) :
    Staged area files call path after := by
  obtain ⟨hname, hdir, rfl, prepared, hprepare, hwrite⟩ := exists_of_stage h
  have hgrows := grows_asked area files hdir
  rw [hprepare] at hgrows
  have hread := FileTree.read_join_of_write hname.isName hwrite
  obtain ⟨hfree, hafter⟩ := FileTree.write_eq_ok hwrite
  rw [place_pathOf hname, hgrows.here] at hfree hafter
  refine ⟨rfl, hread, ?_, fun dir hsome => ?_, ?_, fun hbefore => ?_, fun l hl => ?_⟩
  · rw [hafter]
    exact FileTree.node?_put_same prepared (List.cons_ne_nil _ _) _
  · have hmade : prepared.isDirectory (area.root.join dir) = true :=
      isDirectory_of_prepareAll hprepare
        (List.mem_cons_of_mem _ (Option.mem_toList.mpr (Option.mem_map_of_mem _ hsome)))
        (steps_join_ne_nil (hdir dir hsome))
    rw [hafter]
    exact (FileTree.keepsDirectories_put hfree _).isDirectory hmade
  · rw [hafter]
    exact hgrows.here
  · exact hfree (hgrows.keepsDirectories.directory _ hbefore)
  · rw [hafter, FileTree.node?_put_other _ hl]
    exact hgrows.node l

theorem effects (area : StagingArea) (files : FileTree) (call : StageCall) :
    Effects area files call where
  staged path hok := staged_of_ok (Prod.ext rfl hok)
  failed e hfail := by
    by_cases haccepted : IsFilename call.filename ∧ ∀ dir ∈ call.cacheDir, IsCacheDir dir
    · obtain ⟨prepared, hgrows, ⟨path, cause, hstage⟩ | ⟨-, hstage⟩⟩ :=
        stage_of_accepted area files call.code haccepted.1 haccepted.2
      · rw [answer, hstage]
        exact hgrows
      · rw [answer, hstage] at hfail
        cases hfail
    · have hbad : ¬ IsFilename call.filename ∨ ∃ dir ∈ call.cacheDir, ¬ IsCacheDir dir := by
        rcases not_and_or.mp haccepted with hname | hdir
        · exact .inl hname
        · obtain ⟨dir, hdir⟩ := not_forall.mp hdir
          exact .inr ⟨dir, Classical.not_imp.mp hdir⟩
      rw [(confined area files call).untouched hbad]
      exact .refl _ files

theorem Staged.keepsDirectories (h : Staged area files call path after) :
    KeepsDirectories files after where
  here := h.here
  directory l hl := by
    have hne : l ≠ call.filename :: area.rootPlace files.here := by
      rintro rfl
      exact h.free hl
    rcases h.others l hne with hsame | ⟨-, hnone, -⟩
    · rw [hsame, hl]
    · rw [hl] at hnone
      cases hnone

theorem keepsDirectories_answer (area : StagingArea) (files : FileTree) (call : StageCall) :
    KeepsDirectories files (area.answer files call).1 := by
  rcases hend : (area.answer files call).2 with e | path
  · exact ((effects area files call).failed e hend).keepsDirectories
  · exact ((effects area files call).staged path hend).keepsDirectories

/-- What is there stays as it is, unless it is the file of a call that succeeds. -/
theorem node?_answer {l : Location} {n : Node} (hn : files.node? l = some n)
    (hother : ∀ path, (area.answer files call).2 = .ok path →
      l ≠ call.filename :: area.rootPlace files.here) :
    (area.answer files call).1.node? l = files.node? l := by
  have hafter : (area.answer files call).1.node? l = files.node? l ∨ files.node? l = none := by
    rcases hend : (area.answer files call).2 with e | path
    · have hgrows := (effects area files call).failed e hend
      exact (hgrows.node l).imp_right fun h => h.2.1
    · have hstaged := (effects area files call).staged path hend
      exact (hstaged.others l (hother path hend)).imp_right fun h => h.2.1
  rcases hafter with hsame | hnone
  · exact hsame
  · rw [hn] at hnone
    cases hnone

/-- A file is read as before unless a call succeeds for it. -/
theorem read_answer_of_other (hname : IsFilename filename)
    (hread : files.read (area.pathOf filename) = .ok bytes)
    (hother : ¬ (call.filename = filename ∧ (area.answer files call).2.isOk)) :
    (area.answer files call).1.read (area.pathOf filename) = .ok bytes := by
  refine (keepsDirectories_answer area files call).read hread fun m n hfind => ?_
  obtain ⟨-, l, hl, rfl, hn⟩ := (FileTree.find_join_eq_ok_iff hname.isName).mp hfind
  refine node?_answer hn fun path hok heq => ?_
  exact hother ⟨(List.cons.inj heq).1.symm, by rw [hok]; rfl⟩

/-! ## Many calls -/

theorem read_answerAll_of_none (hname : IsFilename filename) {calls : List StageCall}
    (hread : files.read (area.pathOf filename) = .ok bytes)
    (hnone : area.lastCode? filename files calls = none) :
    (area.answerAll files calls).read (area.pathOf filename) = .ok bytes := by
  induction calls generalizing files with
  | nil => exact hread
  | cons call calls ih =>
      obtain ⟨hrest, hcall⟩ := Option.or_eq_none_iff.mp hnone
      exact ih (read_answer_of_other hname hread (by simpa using hcall)) hrest

theorem read_answerAll {calls : List StageCall}
    (h : area.lastCode? filename files calls = some code) :
    (area.answerAll files calls).read (area.pathOf filename) = .ok code.toUTF8 := by
  induction calls generalizing files with
  | nil => cases h
  | cons call calls ih =>
      rcases Option.or_eq_some_iff.mp h with hlater | ⟨hnone, hcall⟩
      · exact ih hlater
      · split at hcall
        · next hsucceeded =>
            obtain ⟨rfl, hok⟩ := hsucceeded
            cases hcall
            rcases hend : (area.answer files call).2 with e | path
            · rw [hend] at hok
              cases hok
            · have hname := (exists_of_stage (Prod.ext rfl hend)).1
              have hstaged := (effects area files call).staged path hend
              have hread := hstaged.file
              rw [hstaged.path_eq] at hread
              -- no later call succeeds for the name, so the file stays as this one left it
              have hlast := read_answerAll_of_none hname hread hnone
              exact hlast
        · cases hcall

/-- In whatever state the files are, a call that succeeds writes its file and creates its directory,
a call that fails writes nothing, and no call does anything else to the files but that directories
appear on its ways. A file holds the code of the last call for it that succeeded. -/
theorem effects_answerAll (area : StagingArea) (files : FileTree) (calls : List StageCall) :
    (∀ call, Effects area (area.answerAll files calls) call) ∧
      ∀ filename code, area.lastCode? filename files calls = some code →
        (area.answerAll files calls).read (area.pathOf filename) = .ok code.toUTF8 :=
  ⟨effects area (area.answerAll files calls), fun _ _ => read_answerAll⟩

end StagingArea

end CheckWorker
