import CheckWorker.Proofs.Log.Rotation
import Mathlib.Logic.Relation

/-!
# Logs after a rotation that failed

A rotation that fails leaves the log closed, with the size that it had before. A closed log is opened
again only by a rotation that succeeds, and it tries one for those writes alone that are too large
for the file that it last knew. A write no shorter than the one whose rotation failed is one of
them, so it is enough to write the same again. Shorter writes are lost until then, though no file
operation fails any more.
-/

namespace CheckWorker

namespace LogSite

/-- How a write ends, and what it leaves. -/
def written (site : LogSite) (s : RotatingLog × FileTree) (bytes : ByteArray) :
    Except LogFailure Unit × RotatingLog × FileTree :=
  s.1.write site.disk bytes s.2

/-- What may happen to a log and the files: a write, however it ends, or changes that others make.
They leave the file alone to which an open log writes. -/
inductive Happens (site : LogSite) : RotatingLog × FileTree → RotatingLog × FileTree → Prop
  | write (s : RotatingLog × FileTree) (bytes : ByteArray) :
      Happens site s (site.written s bytes).2
  | change (log : RotatingLog) (files files' : FileTree)
      (hkept : log.isOpen = true → site.content? files' 0 = site.content? files 0) :
      Happens site (log, files) (log, files')

/-- A log that is open knows its file, and one that is closed was not empty. -/
structure Sound (site : LogSite) (s : RotatingLog × FileTree) : Prop extends site.IsAt s.1 where
  tracks : s.1.isOpen = true → site.Tracks s.1 s.2
  size_pos : s.1.isOpen = false → 0 < s.1.size

/-- How a write may go. -/
inductive WriteCourse (site : LogSite) (s : RotatingLog × FileTree) (bytes : ByteArray) :
    Except LogFailure Unit × RotatingLog × FileTree → Prop
  | lost (hclosed : s.1.isOpen = false) (hdue : s.1.isDue bytes = false) :
      WriteCourse site s bytes (.error .closed, s)
  | unrotated (e : FileError) (files : FileTree) (hdue : s.1.isDue bytes = true) :
      WriteCourse site s bytes (.error (.file e), { s.1 with isOpen := false }, files)
  | unwritten (e : FileError) (s' : RotatingLog × FileTree) (htracks : site.Tracks s'.1 s'.2) :
      WriteCourse site s bytes (.error (.file e), s')
  | done (s' : RotatingLog × FileTree) (htracks : site.Tracks s'.1 s'.2)
      (hready : s.1.isOpen = true ∨ s.1.isDue bytes = true)
      (hcontent : site.content? s'.2 0 = some ((if s.1.isDue bytes then []
        else (site.content? s.2 0).getD []) ++ bytes.data.toList)) :
      WriteCourse site s bytes (.ok (), s')

variable {site : LogSite} {log log' : RotatingLog} {t t' : FileTree} {bytes : ByteArray}
  {s s' : RotatingLog × FileTree}

/-! ## One write -/

theorem eq_of_rotate_error {e : FileError}
    (h : log.rotate site.disk t = (.error e, log', t')) : log' = { log with isOpen := false } := by
  rw [RotatingLog.rotate] at h
  split at h
  · rw [RotatingLog.reopen] at h
    split at h
    · cases h
    · cases h
      rfl
  · cases h
    rfl

theorem put_of_closed (h : log.isOpen = false) :
    log.put site.disk bytes t = (.error .closed, log, t) := by
  rw [RotatingLog.put, h]
  rfl

theorem put_cases (h : log.isOpen = true) (bytes : ByteArray) (t : FileTree) :
    (∃ e, log.put site.disk bytes t = (.error (.file e), log, t)) ∨
      ∃ log' t', log.put site.disk bytes t = (.ok (), log', t') := by
  rw [RotatingLog.put, h]
  rcases site.disk.append (RotatingLog.fileName log.name 0) bytes t with e | after
  · exact .inl ⟨e, rfl⟩
  · exact .inr ⟨_, after, rfl⟩

theorem writeCourse (h : site.Sound s) (bytes : ByteArray) :
    site.WriteCourse s bytes (site.written s bytes) := by
  obtain ⟨log, t⟩ := s
  rw [written, RotatingLog.write]
  split
  · next hdue =>
      rcases hrotate : log.rotate site.disk t with ⟨e | ⟨⟩, rotated, between⟩
      · rw [eq_of_rotate_error hrotate]
        exact .unrotated e between hdue
      · obtain ⟨htracks, hturned⟩ := becomes_rotate h.toIsAt hrotate
        -- the log is open again, so only adding the bytes can still fail
        dsimp only
        rcases put_cases htracks.isOpen bytes between with ⟨e, hput⟩ | ⟨log', t', hput⟩
        · rw [hput]
          exact .unwritten e (rotated, between) htracks
        · obtain ⟨htracks', hadded⟩ := becomes_add htracks hput
          rw [hput]
          refine .done (log', t') htracks' (.inr hdue) ?_
          rw [hadded.content, hturned.content, if_pos hdue]
          rfl
  · next hdue =>
      cases hopen : log.isOpen with
      | false =>
          rw [put_of_closed hopen]
          exact .lost hopen (Bool.not_eq_true _ ▸ hdue)
      | true =>
          have htracks := h.tracks hopen
          rcases put_cases hopen bytes t with ⟨e, hput⟩ | ⟨log', t', hput⟩
          · rw [hput]
            exact .unwritten e (log, t) htracks
          · obtain ⟨htracks', hadded⟩ := becomes_add htracks hput
            rw [hput]
            refine .done (log', t') htracks' (.inl hopen) ?_
            rw [hadded.content, if_neg hdue]
            rfl

theorem sound_of_tracks (h : site.Tracks s.1 s.2) : site.Sound s where
  toIsAt := h.toIsAt
  tracks _ := h
  size_pos hclosed := by
    rw [h.isOpen] at hclosed
    cases hclosed

theorem isDue_eq_true_iff :
    log.isDue bytes = true ↔ 0 < log.size ∧ log.maxSize < log.size + bytes.size := by
  simp [RotatingLog.isDue]

theorem WriteCourse.sound {answer : Except LogFailure Unit} (h : site.Sound s)
    (hcourse : site.WriteCourse s bytes (answer, s')) : site.Sound s' := by
  cases hcourse with
  | lost hclosed hdue => exact h
  | unrotated e files hdue =>
      refine ⟨⟨h.name, h.maxFiles, h.maxSize⟩, fun hopen => ?_, fun _ => ?_⟩
      · cases hopen
      · exact (isDue_eq_true_iff.mp hdue).1
  | unwritten e s' htracks => exact sound_of_tracks htracks
  | done s' htracks hready hcontent => exact sound_of_tracks htracks

/-! ## Any number of writes -/

theorem sound_of_happens (h : site.Sound s) (hstep : site.Happens s s') : site.Sound s' := by
  cases hstep with
  | write _ bytes => exact (writeCourse h bytes).sound h
  | change log files files' hkept =>
      refine ⟨h.toIsAt, fun hopen => ?_, h.size_pos⟩
      have htracks := h.tracks hopen
      obtain ⟨held, hcurrent, hsize⟩ := htracks.current
      exact { htracks with current := ⟨held, (hkept hopen).trans hcurrent, hsize⟩ }

theorem sound_of_run {files : FileTree} {opened : RotatingLog × FileTree}
    (hstart : site.start files = .ok opened)
    (hrun : Relation.ReflTransGen site.Happens opened s) : site.Sound s := by
  induction hrun with
  | refl => exact sound_of_tracks (becomes_opening hstart).1
  | tail _ hstep ih => exact sound_of_happens ih hstep

theorem written_of_not_due (hclosed : s.1.isOpen = false) (hdue : s.1.isDue bytes = false) :
    site.written s bytes = (.error .closed, s) := by
  rw [written, RotatingLog.write, if_neg (by rw [hdue]; decide), put_of_closed hclosed]

/-- Many writes, one after another. -/
def writtenAll (site : LogSite) (s : RotatingLog × FileTree) (writes : List ByteArray) :
    RotatingLog × FileTree :=
  writes.foldl (fun s bytes => (site.written s bytes).2) s

theorem happens_writtenAll (site : LogSite) (s : RotatingLog × FileTree) (writes : List ByteArray) :
    Relation.ReflTransGen site.Happens s (site.writtenAll s writes) := by
  induction writes generalizing s with
  | nil => exact .refl
  | cons bytes writes ih => exact .head (.write s bytes) (ih _)

theorem writtenAll_of_not_due (hclosed : s.1.isOpen = false) {writes : List ByteArray}
    (hdue : ∀ bytes ∈ writes, s.1.isDue bytes = false) : site.writtenAll s writes = s := by
  induction writes with
  | nil => rfl
  | cons bytes writes ih =>
      rw [writtenAll, List.foldl_cons, written_of_not_due hclosed (hdue bytes List.mem_cons_self)]
      exact ih fun more hmore => hdue more (List.mem_cons_of_mem bytes hmore)

/-- What is true of a log at any time: which writes it takes when no file operation fails, and what
becomes of those that it does not take. -/
structure Recovers (site : LogSite) (s : RotatingLog × FileTree) : Prop where
  /-- It takes every write while it is open, and otherwise those that call for a rotation. -/
  ok_iff : ∀ bytes, (∀ e, (site.written s bytes).1 ≠ .error (.file e)) →
    ((site.written s bytes).1 = .ok () ↔ s.1.isOpen = true ∨ s.1.isDue bytes = true)
  /-- After a write that it took it is open, and the bytes are at the end of the current file. -/
  atEnd : ∀ bytes, (site.written s bytes).1 = .ok () →
    (site.written s bytes).2.1.isOpen = true ∧ ∃ before,
      site.content? (site.written s bytes).2.2 0 = some (before ++ bytes.data.toList)
  /-- A write that was stopped by a file operation leaves it open, or such that every write that is
  no shorter calls for a rotation. -/
  again : ∀ bytes e, (site.written s bytes).1 = .error (.file e) →
    (site.written s bytes).2.1.isOpen = true ∨ ∀ more : ByteArray, bytes.size ≤ more.size →
      (site.written s bytes).2.1.isDue more = true
  /-- While it is closed, every write that would make its file too large calls for a rotation. -/
  due_of_closed : s.1.isOpen = false → ∀ bytes : ByteArray,
    site.maxSize < s.1.size + bytes.size → s.1.isDue bytes = true
  /-- The others are lost meanwhile, however many come. -/
  lost : s.1.isOpen = false → ∀ writes, (∀ bytes ∈ writes, s.1.isDue bytes = false) →
    site.writtenAll s writes = s ∧
      ∀ bytes ∈ writes, site.written s bytes = (.error .closed, s)

theorem recovers_of_sound (h : site.Sound s) : site.Recovers s where
  ok_iff bytes hfiles := by
    have hcourse := writeCourse h bytes
    generalize site.written s bytes = answer at hcourse hfiles ⊢
    cases hcourse with
    | lost hclosed hdue => simp [hclosed, hdue]
    | unrotated e files hdue => exact absurd rfl (hfiles e)
    | unwritten e s' htracks => exact absurd rfl (hfiles e)
    | done s' htracks hready hcontent => exact iff_of_true rfl hready
  atEnd bytes hok := by
    have hcourse := writeCourse h bytes
    generalize site.written s bytes = answer at hcourse hok ⊢
    cases hcourse with
    | lost hclosed hdue => cases hok
    | unrotated e files hdue => cases hok
    | unwritten e s' htracks => cases hok
    | done s' htracks hready hcontent => exact ⟨htracks.isOpen, _, hcontent⟩
  again bytes e hfail := by
    have hcourse := writeCourse h bytes
    generalize site.written s bytes = answer at hcourse hfail ⊢
    cases hcourse with
    | lost hclosed hdue => cases hfail
    | unrotated e files hdue =>
        refine .inr fun more hmore => ?_
        have hlarge := isDue_eq_true_iff.mp hdue
        exact isDue_eq_true_iff.mpr
          ⟨hlarge.1, Nat.lt_of_lt_of_le hlarge.2 (Nat.add_le_add_left hmore _)⟩
    | unwritten e s' htracks => exact .inl htracks.isOpen
    | done s' htracks hready hcontent => cases hfail
  due_of_closed hclosed bytes hlarge :=
    isDue_eq_true_iff.mpr ⟨h.size_pos hclosed, h.maxSize ▸ hlarge⟩
  lost hclosed writes hdue :=
    ⟨writtenAll_of_not_due hclosed hdue, fun bytes hbytes =>
      written_of_not_due hclosed (hdue bytes hbytes)⟩

/-- Whatever has happened to a log since it was opened, it takes a write during which no file
operation fails if it is open or the write calls for a rotation. -/
theorem recovers_of_run {files : FileTree} {opened : RotatingLog × FileTree}
    (hstart : site.start files = .ok opened)
    (hrun : Relation.ReflTransGen site.Happens opened s) : site.Recovers s :=
  recovers_of_sound (sound_of_run hstart hrun)

/-- A log that keeps one older file, and a directory in the place of that. -/
def narrow : LogSite :=
  ⟨⟨"/l"⟩, "a", 2, 3⟩

def obstructed : FileTree :=
  ⟨[], [(["a.log.1", "l"], .directory), (["l"], .directory)]⟩

/-- A rotation has failed, and what stood in its way has been taken away. -/
def silenced (opened : RotatingLog × FileTree) : RotatingLog × FileTree :=
  let stopped := narrow.writtenAll opened ["ab".toUTF8, "cd".toUTF8]
  (stopped.1, stopped.2.erase ["a.log.1", "l"])

theorem exists_silenced : ∃ opened, narrow.start obstructed = .ok opened ∧
    Relation.ReflTransGen narrow.Happens opened (silenced opened) ∧
    (silenced opened).1 = ⟨"a", 2, 3, false, 2⟩ ∧
    (narrow.written (silenced opened) "e".toUTF8).1 = .error .closed ∧
    (narrow.written (silenced opened) "ef".toUTF8).1 = .ok () := by
  have hstart : (narrow.start obstructed).toOption.map (fun opened => ((silenced opened).1,
      (narrow.written (silenced opened) "e".toUTF8).1,
      (narrow.written (silenced opened) "ef".toUTF8).1)) =
        some (⟨"a", 2, 3, false, 2⟩, .error .closed, .ok ()) := by decide +kernel
  cases hopened : narrow.start obstructed with
  | error e =>
      rw [hopened] at hstart
      cases hstart
  | ok opened =>
      rw [hopened] at hstart
      obtain ⟨hlog, hends⟩ := Prod.mk.inj (Option.some.inj hstart)
      obtain ⟨hshort, hlong⟩ := Prod.mk.inj hends
      have hwritten := happens_writtenAll narrow opened ["ab".toUTF8, "cd".toUTF8]
      refine ⟨opened, rfl, hwritten.tail ?_, hlog, hshort, hlong⟩
      refine .change _ _ _ fun hopen => ?_
      have hclosed : (silenced opened).1.isOpen = true := hopen
      rw [hlog] at hclosed
      cases hclosed

/-- A write that is longer than the one whose rotation failed opens the log again. -/
theorem recovers_after_obstruction : ∃ opened s, narrow.start obstructed = .ok opened ∧
    Relation.ReflTransGen narrow.Happens opened s ∧ narrow.Recovers s ∧
    s.1.isOpen = false ∧ (narrow.written s "ef".toUTF8).1 = .ok () := by
  obtain ⟨opened, hstart, hrun, hlog, -, hlong⟩ := exists_silenced
  exact ⟨opened, silenced opened, hstart, hrun, recovers_of_run hstart hrun, by rw [hlog], hlong⟩

/-- A shorter write is lost, though no file operation fails. -/
theorem short_write_is_lost : ∃ opened s, narrow.start obstructed = .ok opened ∧
    Relation.ReflTransGen narrow.Happens opened s ∧
    (∀ e, (narrow.written s "e".toUTF8).1 ≠ .error (.file e)) ∧
    (narrow.written s "e".toUTF8).1 ≠ .ok () := by
  obtain ⟨opened, hstart, hrun, -, hshort, -⟩ := exists_silenced
  refine ⟨opened, silenced opened, hstart, hrun, fun e hfail => ?_, fun hok => ?_⟩
  · rw [hshort] at hfail
    cases hfail
  · rw [hshort] at hok
    cases hok

end LogSite

end CheckWorker
