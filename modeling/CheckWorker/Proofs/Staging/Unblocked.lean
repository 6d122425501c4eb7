import CheckWorker.Proofs.FileSystem.Creating
import CheckWorker.Proofs.Staging.Confinement

/-!
# A name that can be staged later

Calls leave behind what they staged, and a call that fails halfway leaves its directories. Still the
way to the root stays open, whatever the calls were. So a name can be staged unless it has become
that of a directory, which it does only by the cache directory of a call. A name under which a file
was staged once can always be staged again.
-/

namespace CheckWorker

open FilePath (follow Reaches)
open FileTree (Grows Fits)

namespace FileTree

variable {t t' : FileTree} {p : FilePath} {l : Location} {s : String}

/-- A path that leads to a directory leads through directories. -/
theorem Leads.directory_of_prefix (h : t.Leads p l) {front : List String}
    (hfront : front <+: p.names) :
    t.node? (follow (t.start p) front) = some .directory := by
  obtain ⟨rest, hrest⟩ := hfront
  have hwalk := h.walk
  rw [← hrest, walk_append] at hwalk
  cases hto : FileTree.walk t (t.start p) front with
  | error e => simp [hto, bind, Except.bind] at hwalk
  | ok m =>
      have hon : FileTree.walk t m rest = .ok l := by
        simpa [hto, bind, Except.bind] using hwalk
      rw [← walk_eq_follow hto]
      cases rest with
      | nil =>
          cases hon
          exact h.directory
      | cons name rest =>
          cases hstep : t.step m name with
          | error e => simp [FileTree.walk, hstep, bind, Except.bind] at hon
          | ok next => exact node?_of_step hstep

theorem Open.of_leads (h : t.Open p.names) (habs : p.isAbsolute = true) (hl : t'.Leads p l) :
    t'.Open p.names where
  plain := h.plain
  limit := h.limit
  free front hfront := by
    have hdir := hl.directory_of_prefix hfront
    rw [start, if_pos habs] at hdir
    exact .inr hdir

/-- Writing to a directory fails. -/
theorem write_join_of_directory (h : FilePath.IsName s) (hfits : Fits p s) (hl : t.Leads p l)
    (hdir : t.node? (s :: l) = some .directory) (bytes : ByteArray) :
    t.write (p.join s) bytes = .error .isDirectory := by
  have haround := (around_join_eq_ok_iff h).mpr ⟨hfits.path, hl, rfl⟩
  have hstep : t.step l s = .ok (s :: l) :=
    (step_eq_ok_iff h).mpr ⟨hl.directory, hfits.name, rfl⟩
  have htarget : t.target (p.join s) = .error .isDirectory := by
    simp only [target, haround, bind, Except.bind, FilePath.endsInSlash_join h,
      Bool.false_eq_true, if_false, hstep, hdir]
    rfl
  rw [write, htarget]
  rfl

end FileTree

namespace StagingArea

variable {area : StagingArea} {files : FileTree} {filename code : String}

/-! ## One call -/

/-- The names that a call asks for are accepted. -/
structure Accepted (call : StageCall) : Prop where
  filename : IsFilename call.filename
  cacheDir : ∀ dir ∈ call.cacheDir, IsCacheDir dir

/-- A call may leave all as it is, or create directories it asked for, or write its file as well. It
writes only where the way to the root is free. -/
theorem answer_cases (area : StagingArea) (files : FileTree) (call : StageCall) :
    (area.answer files call).1 = files ∨
      Accepted call ∧ ∃ prepared, Grows (area.Asked files.here call.cacheDir) files prepared ∧
        ((area.answer files call).1 = prepared ∨
          (∃ l, (area.answer files call).1.Leads area.root l) ∧
            (area.answer files call).1 = prepared.put
              (call.filename :: area.rootPlace files.here) (.file call.code.toUTF8)) := by
  by_cases haccepted : Accepted call
  · obtain ⟨prepared, hgrows, ⟨path, cause, hstage⟩ | ⟨-, hstage⟩⟩ :=
      stage_of_accepted area files call.code haccepted.filename haccepted.cacheDir
    · exact .inr ⟨haccepted, prepared, hgrows, .inl (congrArg Prod.fst hstage)⟩
    · obtain ⟨-, -, -, before, -, hwrite⟩ := exists_of_stage hstage
      obtain ⟨-, l, hl, hfree, hafter⟩ :=
        (FileTree.write_join_eq_ok_iff haccepted.filename.isName).mp hwrite
      have hleads := hl.put hfree (.file call.code.toUTF8)
      rw [← hafter] at hleads
      refine .inr ⟨haccepted, prepared, hgrows, .inr ?_⟩
      rw [answer, hstage]
      exact ⟨⟨l, hleads⟩, rfl⟩
  · refine .inl ((confined area files call).untouched ?_)
    by_contra hall
    apply haccepted
    simp only [not_or, not_not, not_exists, not_and] at hall
    exact ⟨hall.1, hall.2⟩

/-- The way to the root stays open. -/
theorem open_answer (habs : area.root.isAbsolute = true) (h : files.Open area.root.names)
    (call : StageCall) : (area.answer files call).1.Open area.root.names := by
  rcases answer_cases area files call with hsame | ⟨-, prepared, hgrows, hafter | ⟨⟨l, hl⟩, -⟩⟩
  · rwa [hsame]
  · rw [hafter]
    exact h.grows hgrows
  · exact h.of_leads habs hl

/-- A new directory is one that an accepted call asked for. -/
theorem asked_of_answer {call : StageCall} {l : Location}
    (h : (area.answer files call).1.node? l = some .directory) :
    files.node? l = some .directory ∨
      Accepted call ∧ area.Asked files.here call.cacheDir l := by
  rcases answer_cases area files call with hsame | ⟨haccepted, prepared, hgrows, hafter⟩
  · exact .inl (hsame ▸ h)
  · have hprepared : prepared.node? l = some .directory := by
      rcases hafter with hafter | ⟨-, hafter⟩
      · rwa [hafter] at h
      · rw [hafter] at h
        by_cases hl : l = call.filename :: area.rootPlace files.here
        · rw [hl, FileTree.node?_put_same _ (List.cons_ne_nil _ _)] at h
          cases h
        · rwa [FileTree.node?_put_other _ hl] at h
    rcases hgrows.node l with hsame | ⟨hasked, -, -⟩
    · exact .inl (hsame ▸ hprepared)
    · exact .inr ⟨haccepted, hasked⟩

/-! ## Many calls -/

theorem open_answerAll (habs : area.root.isAbsolute = true) (h : files.Open area.root.names)
    (calls : List StageCall) : (area.answerAll files calls).Open area.root.names := by
  induction calls generalizing files with
  | nil => exact h
  | cons call calls ih => exact ih (open_answer habs h call)

theorem asked_of_answerAll {calls : List StageCall} {l : Location}
    (h : (area.answerAll files calls).node? l = some .directory) :
    files.node? l = some .directory ∨
      ∃ call ∈ calls, Accepted call ∧ area.Asked files.here call.cacheDir l := by
  induction calls generalizing files with
  | nil => exact .inl h
  | cons call calls ih =>
      rcases ih h with hbefore | ⟨later, hmem, haccepted, hasked⟩
      · rcases asked_of_answer hbefore with hfirst | hfirst
        · exact .inl hfirst
        · exact .inr ⟨call, List.mem_cons_self, hfirst⟩
      · rw [(confined area files call).here] at hasked
        exact .inr ⟨later, List.mem_cons_of_mem _ hmem, haccepted, hasked⟩

/-- Where there is a file there will be one. -/
theorem exists_file_answerAll (area : StagingArea) (calls : List StageCall) {l : Location}
    {bytes : ByteArray} (h : files.node? l = some (.file bytes)) :
    ∃ bytes', (area.answerAll files calls).node? l = some (.file bytes') := by
  have htouched := (touched_answerAll area files calls).2 l
  rw [h] at htouched
  generalize (area.answerAll files calls).node? l = after at htouched ⊢
  cases htouched with
  | same => exact ⟨bytes, rfl⟩
  | written call _ _ _ _ _ => exact ⟨call.code.toUTF8, rfl⟩

/-! ## A further call -/

/-- An area that nothing has been staged in. Its root is not there yet, but it can be created. -/
structure Fresh (area : StagingArea) (files : FileTree) : Prop where
  opened : ∃ root, at? files root = .ok area
  /-- The working directory has a path. -/
  here : ∀ name ∈ files.here, FilePath.IsName name
  /-- There is nothing at the root and below. -/
  absent : ∀ inner, files.node? (inner ++ area.rootPlace files.here) = none
  /-- On the way to the root there are directories, or nothing. -/
  free : ∀ l, Reaches files.here area.root l →
    files.node? l = none ∨ files.node? l = some .directory
  limit : ∀ name ∈ area.root.names, name.utf8ByteSize ≤ FileTree.nameLimit
  noNul : '\x00' ∉ area.root.text.toList

theorem fresh_app : Fresh ⟨⟨"/app"⟩⟩ ⟨[], []⟩ where
  opened := ⟨⟨"/app"⟩, rfl⟩
  here := by simp
  absent inner := by
    have hplace : rootPlace ⟨⟨"/app"⟩⟩ [] = ["app"] := by decide
    rw [hplace]
    simp [FileTree.node?]
  free l _ := by
    unfold FileTree.node?
    split
    · exact .inr rfl
    · exact .inl rfl
  limit := by decide
  noNul := by decide

/-- A name is taken by a directory: its place was on the way to the root or to the cache directory
of a call, before any file of that name was staged. -/
structure Taken (area : StagingArea) (files : FileTree) (calls : List StageCall)
    (filename : String) : Prop where
  asked : Reaches files.here area.root (filename :: area.rootPlace files.here) ∨
    ∃ call ∈ calls, IsFilename call.filename ∧ ∃ dir ∈ call.cacheDir, IsCacheDir dir ∧
      (FilePath.steps ⟨dir⟩).head? = some filename
  neverStaged : ∀ before call after, calls = before ++ call :: after →
    call.filename = filename → ∀ path, (area.answer (area.answerAll files before) call).2 ≠ .ok path

theorem Fresh.root (h : Fresh area files) :
    area.root.isAbsolute = true ∧ "." ∉ area.root.names := by
  obtain ⟨root, hroot⟩ := h.opened
  obtain ⟨hnames, habs⟩ := FilePath.names_pathOf fun s hs =>
    ⟨(h.here s hs).ne_empty, (h.here s hs).slash⟩
  have hdot : "." ∉ (FileTree.pathOf files.here).names := by
    rw [hnames, List.mem_reverse]
    exact fun hmem => (h.here "." hmem).ne_dot rfl
  unfold at? FileTree.absolute at hroot
  split at hroot
  · next habsolute =>
      cases hroot
      exact FilePath.plain_of_absolute? habs hdot habsolute
  · cases hroot

theorem Fresh.open (h : Fresh area files) : files.Open area.root.names where
  plain := h.root.2
  limit := h.limit
  free front hfront := by
    apply h.free
    exact ⟨front, hfront, by rw [if_pos h.root.1]⟩

/-- A name within the limits of the file system, in this area. -/
structure Within (area : StagingArea) (filename : String) : Prop where
  noNul : '\x00' ∉ filename.toList
  name : filename.utf8ByteSize ≤ FileTree.nameLimit
  path : (area.pathOf filename).text.utf8ByteSize < FileTree.pathLimit

theorem Within.fits (h : area.Within filename) (hroot : '\x00' ∉ area.root.text.toList)
    (hname : IsFilename filename) : Fits area.root filename where
  name := h.name
  path := by
    have hnul : '\x00' ∉ (area.pathOf filename).text.toList := by
      obtain ⟨front, htext, hfront⟩ := exists_text_pathOf area hname
      rw [htext, List.mem_append, not_or]
      exact ⟨fun hmem => (hfront _ hmem).elim (by decide) hroot, h.noNul⟩
    exact FileTree.checkPath_eq_ok_iff.mpr ⟨hnul, text_pathOf_ne_empty area hname, h.path⟩

/-- When the way to the root is open, a call without a cache directory writes its file unless the
place of the file is a directory. Then it fails and leaves the directory there. -/
theorem stage_of_open (code : String) (habs : area.root.isAbsolute = true)
    (h : files.Open area.root.names) (hname : IsFilename filename)
    (hfits : Fits area.root filename) :
    let place := filename :: area.rootPlace files.here
    ∃ prepared, Grows (Reaches files.here area.root) files prepared ∧
      (prepared.node? place ≠ some .directory ∧
          area.stage files filename code none =
            (prepared.put place (.file code.toUTF8), .ok (area.pathOf filename)) ∨
        prepared.node? place = some .directory ∧
          area.stage files filename code none =
            (prepared, .error (.staging (area.pathOf filename).text .isDirectory))) := by
  intro place
  have hcheck : FileTree.checkPath area.root = .ok () := by
    refine (FileTree.checkPath_of_join hname.isName hfits.path).resolve_left fun hempty => ?_
    simp [FilePath.isAbsolute, hempty] at habs
  have hgrows := FileTree.grows_makeDirectories files area.root
  obtain ⟨prepared, hmake, hl⟩ := FileTree.makeDirectories_of_open habs hcheck h
  rw [hmake] at hgrows
  have hplace := hl.eq_place
  rw [hgrows.here] at hplace
  rw [hplace] at hl
  have hstage : area.stage files filename code none = _ := stage_eq hname (by simp)
  simp only [Option.map_none, Option.toList_none, prepareAll, prepare, hmake] at hstage
  refine ⟨prepared, hgrows, ?_⟩
  rw [hstage]
  by_cases hdir : prepared.node? place = some .directory
  · have hwrite := FileTree.write_join_of_directory hname.isName hfits hl hdir code.toUTF8
    rw [pathOf, hwrite]
    exact .inr ⟨hdir, rfl⟩
  · have hwrite : prepared.write (area.root.join filename) code.toUTF8 = .ok _ :=
      (FileTree.write_join_eq_ok_iff hname.isName).mpr ⟨hfits, _, hl, hdir, rfl⟩
    rw [pathOf, hwrite]
    exact .inl ⟨hdir, rfl⟩

/-- The place right in the root that was asked for is where the cache directory begins. -/
theorem Asked.head? {here : Location} {cacheDir : Option String}
    (h : area.Asked here cacheDir (filename :: area.rootPlace here)) :
    Reaches here area.root (filename :: area.rootPlace here) ∨
      ∃ dir ∈ cacheDir, (FilePath.steps ⟨dir⟩).head? = some filename := by
  rcases h with hroot | ⟨dir, hdir, inner, -, ⟨rest, hrest⟩, hl⟩
  · exact .inl hroot
  · have hcons : inner.reverse ++ area.rootPlace here = [filename] ++ area.rootPlace here := hl.symm
    have hinner := List.reverse_eq_iff.mp (List.append_cancel_right hcons)
    refine .inr ⟨dir, hdir, ?_⟩
    rw [← hrest, hinner]
    rfl

theorem taken_of_directory (hfresh : Fresh area files) {calls : List StageCall}
    {prepared : FileTree}
    (hgrows : Grows (Reaches files.here area.root) (area.answerAll files calls) prepared)
    (hdir : prepared.node? (filename :: area.rootPlace files.here) = some .directory) :
    Taken area files calls filename where
  asked := by
    rcases hgrows.node (filename :: area.rootPlace files.here) with hsame | ⟨hroot, -, -⟩
    · rw [hsame] at hdir
      rcases asked_of_answerAll hdir with hbefore | ⟨call, hmem, haccepted, hasked⟩
      · have habsent := hfresh.absent [filename]
        rw [List.singleton_append, hbefore] at habsent
        cases habsent
      · refine hasked.head?.imp_right ?_
        rintro ⟨dir, hsome, hhead⟩
        exact ⟨call, hmem, haccepted.filename, dir, hsome, haccepted.cacheDir dir hsome, hhead⟩
    · exact .inl hroot
  neverStaged := by
    rintro before call after rfl rfl path hok
    have hhere := (touched_answerAll area files before).1
    obtain ⟨-, hfile⟩ := (confined area (area.answerAll files before) call).written path hok
    rw [hhere] at hfile
    have hall : area.answerAll files (before ++ call :: after) =
        area.answerAll (area.answer (area.answerAll files before) call).1 after := by
      simp [answerAll]
    obtain ⟨bytes, hstill⟩ := exists_file_answerAll area after hfile
    rw [← hall] at hstill
    rcases hgrows.node (call.filename :: area.rootPlace files.here) with hsame | ⟨-, hnone, -⟩
    · rw [hsame, hstill] at hdir
      cases hdir
    · rw [hstill] at hnone
      cases hnone

/-- Whatever was asked of an area since it was fresh, a further name is not that of a directory and
can be staged, or it is that of a directory and cannot. It has become so by the calls that took it,
or becomes so on the way to the root. -/
theorem stage_answerAll (hfresh : Fresh area files) (hname : IsFilename filename)
    (hwithin : area.Within filename) (calls : List StageCall) (code : String) :
    let before := area.answerAll files calls
    let after := area.stage before filename code none
    let place := filename :: area.rootPlace files.here
    (after.2 = .ok (area.pathOf filename) ∧ before.node? place ≠ some .directory ∧
        after.1.node? place = some (.file code.toUTF8)) ∨
      (after.2 = .error (.staging (area.pathOf filename).text .isDirectory) ∧
        after.1.node? place = some .directory ∧
        (before.node? place = some .directory ∨ Reaches files.here area.root place) ∧
        Taken area files calls filename) := by
  intro before after place
  have hopen := open_answerAll hfresh.root.1 hfresh.open calls
  have hhere : before.here = files.here := (touched_answerAll area files calls).1
  obtain ⟨prepared, hgrows, hstage⟩ := stage_of_open code hfresh.root.1 hopen hname
    (hwithin.fits hfresh.noNul hname)
  simp only [hhere, before] at hgrows hstage
  have hnode := hgrows.node place
  rcases hstage with ⟨hfree, hstage⟩ | ⟨hdir, hstage⟩
  · refine .inl ⟨congrArg Prod.snd hstage, fun hbefore => ?_, ?_⟩
    · rcases hnode with hsame | ⟨-, hnone, -⟩
      · exact hfree (hsame.trans hbefore)
      · rw [hbefore] at hnone
        cases hnone
    · have hafter : after.1 = prepared.put place (.file code.toUTF8) :=
        congrArg Prod.fst hstage
      rw [hafter]
      apply FileTree.node?_put_same
      exact List.cons_ne_nil _ _
  · refine .inr ⟨congrArg Prod.snd hstage, ?_, ?_, taken_of_directory hfresh hgrows hdir⟩
    · have hafter : after.1 = prepared := congrArg Prod.fst hstage
      rw [hafter]
      exact hdir
    · rcases hnode with hsame | ⟨hreaches, -, -⟩
      · exact .inl (hsame ▸ hdir)
      · exact .inr hreaches

/-- A file can be staged after calls that succeeded, were refused and failed halfway. -/
theorem stage_after_four_calls :
    let area : StagingArea := ⟨⟨"/app"⟩⟩
    let calls : List StageCall := [⟨"a.py", "x", some "cache/a"⟩, ⟨"../b.py", "", none⟩,
      ⟨"c.py", "", some "a.py/d"⟩, ⟨"d", "", some "../d"⟩]
    let before := area.answerAll ⟨[], []⟩ calls
    let after := area.stage before "b.py" "y" none
    let place := "b.py" :: area.rootPlace []
    Fresh area ⟨[], []⟩ ∧ IsFilename "b.py" ∧ Within area "b.py" ∧
      ((after.2 = .ok (area.pathOf "b.py") ∧ before.node? place ≠ some .directory ∧
          after.1.node? place = some (.file "y".toUTF8)) ∨
        (after.2 = .error (.staging (area.pathOf "b.py").text .isDirectory) ∧
          after.1.node? place = some .directory ∧
          (before.node? place = some .directory ∨ Reaches [] area.root place) ∧
          Taken area ⟨[], []⟩ calls "b.py")) := by
  intro area calls before after place
  have hname : IsFilename "b.py" := (acceptsFilename_iff "b.py").mp (by decide)
  have hwithin : Within area "b.py" := ⟨by decide, by decide, by decide⟩
  exact ⟨fresh_app, hname, hwithin, stage_answerAll fresh_app hname hwithin calls "y"⟩

/-- A cache directory takes a name that would have been accepted. -/
theorem stage_fails_after_cacheDir :
    let area : StagingArea := ⟨⟨"/app"⟩⟩
    let calls : List StageCall := [⟨"a.py", "", some "b.py"⟩]
    Fresh area ⟨[], []⟩ ∧ IsFilename "b.py" ∧ Within area "b.py" ∧
      ¬ ∃ path, (area.stage (area.answerAll ⟨[], []⟩ calls) "b.py" "x\n" none).2 = .ok path := by
  intro area calls
  have hname : IsFilename "b.py" := (acceptsFilename_iff "b.py").mp (by decide)
  have hwithin : Within area "b.py" := ⟨by decide, by decide, by decide⟩
  have herror : (area.stage (area.answerAll ⟨[], []⟩ calls) "b.py" "x\n" none).2 =
      .error (.staging "/app/b.py" .isDirectory) := by decide +kernel
  refine ⟨fresh_app, hname, hwithin, ?_⟩
  rintro ⟨path, hok⟩
  rw [herror] at hok
  cases hok

end StagingArea

end CheckWorker
