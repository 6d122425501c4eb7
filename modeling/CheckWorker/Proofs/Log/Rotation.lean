import CheckWorker.Log.Logger
import CheckWorker.Proofs.Log.Slots
import Mathlib.Data.List.Induction

/-!
# What a log does to its files

An opening and a write add bytes to the current file, an opening none. If the file holds something
already and would grow too large, it is set aside first, and the file with the highest number is
given up. So the contents after any number of uses that succeed are computed from those before. Uses
fail only with a file operation: a log that was opened stays open as long as these succeed.
-/

namespace CheckWorker

open RotatingLog (Move)

/-- What is done with a log. -/
inductive LogUse
  | reopen
  | write (bytes : ByteArray)

/-- The bytes that are written, if any are, as one piece. -/
def LogUse.writes : LogUse → List (List UInt8)
  | .reopen => []
  | .write bytes => [bytes.data.toList]

namespace LogSite

/-- Opens the log, with the directory made first. -/
def start (site : LogSite) (files : FileTree) : Except LogFailure (RotatingLog × FileTree) :=
  match files.makeDirectories site.directory with
  | (_, .error e) => .error (.file e)
  | (files, .ok ()) =>
      match RotatingLog.start site.disk site.name site.maxFiles site.maxSize files with
      | (.error e, _) => .error (.file e)
      | (.ok log, files) => .ok (log, files)

/-- One use of an open log; opening it again forgets what was known of it. -/
def use (site : LogSite) (s : RotatingLog × FileTree) :
    LogUse → Except LogFailure (RotatingLog × FileTree)
  | .reopen => site.start s.2
  | .write bytes =>
      match s.1.write site.disk bytes s.2 with
      | (.error e, _, _) => .error e
      | (.ok (), log, files) => .ok (log, files)

/-- Opens the log and uses it until something fails. -/
def run (site : LogSite) (files : FileTree) (uses : List LogUse) :
    Except LogFailure (RotatingLog × FileTree) := do
  uses.foldlM site.use (← site.start files)

/-- The files once the directory has been made. -/
def prepared (site : LogSite) (files : FileTree) : FileTree :=
  (files.makeDirectories site.directory).1

/-! ## Contents -/

/-- The contents when the current file has been set aside. -/
def turned (slots : Nat) (contents : Nat → Option (List UInt8)) : Nat → Option (List UInt8)
  | 0 => some []
  | i + 1 => if i + 1 < slots then contents i else contents (i + 1)

/-- Whether the current file is set aside before bytes are added. -/
def Due (site : LogSite) (contents : Nat → Option (List UInt8)) (bytes : List UInt8) : Prop :=
  0 < ((contents 0).getD []).length ∧
    site.maxSize < ((contents 0).getD []).length + bytes.length

instance (site : LogSite) (contents : Nat → Option (List UInt8)) (bytes : List UInt8) :
    Decidable (site.Due contents bytes) :=
  inferInstanceAs (Decidable (_ ∧ _))

theorem due_nil_iff {site : LogSite} {contents : Nat → Option (List UInt8)} :
    site.Due contents [] ↔ site.maxSize < ((contents 0).getD []).length := by
  rw [Due, List.length_nil, Nat.add_zero]
  exact and_iff_right_of_imp Nat.zero_lt_of_lt

/-- The contents when bytes have been added. -/
def added (site : LogSite) (contents : Nat → Option (List UInt8)) (bytes : List UInt8) :
    Nat → Option (List UInt8) :=
  if site.Due contents bytes then
    Function.update (turned site.slots contents) 0 (some bytes)
  else Function.update contents 0 (some ((contents 0).getD [] ++ bytes))

variable {site : LogSite} {log log' : RotatingLog} {t t' : FileTree}

/-! ## A rotation -/

/-- The steps that move each file below a number on by one, the last of them first. -/
def shifts (site : LogSite) (n : Nat) : List Move :=
  (List.range n).reverse.map fun i => .shift (site.fileName i) (site.fileName (i + 1))

theorem shifts_succ (site : LogSite) (n : Nat) :
    site.shifts (n + 1) = .shift (site.fileName n) (site.fileName (n + 1)) :: site.shifts n := by
  rw [shifts, List.range_succ, List.reverse_append]
  rfl

theorem runMoves_cons_eq_ok {m : Move} {rest : List Move}
    (hok : RotatingLog.runMoves site.disk t (m :: rest) = (.ok (), t')) :
    ∃ between, m.run site.disk t = .ok between ∧
      RotatingLog.runMoves site.disk between rest = (.ok (), t') := by
  rw [RotatingLog.runMoves] at hok
  split at hok
  · next between hmove => exact ⟨between, hmove, hok⟩
  · cases hok

/-- A path that leads to the directory after some steps did so before them: while it is lost nothing
succeeds. -/
theorem stands_of_shifts {n : Nat} (hstands : site.Stands t')
    (hok : RotatingLog.runMoves site.disk t (site.shifts n) = (.ok (), t')) : site.Stands t := by
  induction n generalizing t with
  | zero =>
      cases hok
      exact hstands
  | succ n ih =>
      rw [shifts_succ] at hok
      obtain ⟨between, hmove, hrest⟩ := runMoves_cons_eq_ok hok
      exact stands_of_shift (ih hrest) hmove

/-- The contents when each file below a number has moved on by one. -/
def shifted (n : Nat) (contents : Nat → Option (List UInt8)) : Nat → Option (List UInt8)
  | 0 => none
  | i + 1 => if i < n then contents i else contents (i + 1)

theorem becomes_shifts {n : Nat} (hn : n < site.slots) (hfree : site.content? t n = none)
    (hstands : site.Stands t')
    (hok : RotatingLog.runMoves site.disk t (site.shifts n) = (.ok (), t')) :
    site.Becomes (shifted n (site.content? t)) t t' := by
  induction n generalizing t with
  | zero =>
      cases hok
      have hsame : shifted 0 (site.content? t') = site.content? t' := by
        funext i
        cases i with
        | zero => exact hfree.symm
        | succ i => simp [shifted]
      rw [hsame]
      exact .refl site t'
  | succ n ih =>
      rw [shifts_succ] at hok
      obtain ⟨between, hmove, hrest⟩ := runMoves_cons_eq_ok hok
      -- the step frees the number that the one after it needs
      have hshift := becomes_shift hn hfree (stands_of_shifts hstands hrest) hmove
      have hbelow := ih (Nat.lt_of_succ_lt hn) (by simp [hshift.content]) hrest
      have hcontents : shifted n (site.content? between) = shifted (n + 1) (site.content? t) := by
        rw [hshift.content]
        funext i
        cases i with
        | zero => rfl
        | succ i =>
            simp only [shifted, Function.update_apply]
            grind
      exact hcontents ▸ hshift.trans hbelow

/-- The log is one that was opened at the site. -/
structure IsAt (site : LogSite) (l : RotatingLog) : Prop where
  name : l.name = site.name
  maxFiles : l.maxFiles = site.maxFiles
  maxSize : l.maxSize = site.maxSize

/-- The log is open, and its size is that of the current file. -/
structure Tracks (site : LogSite) (l : RotatingLog) (t : FileTree) : Prop extends site.IsAt l where
  isOpen : l.isOpen = true
  current : ∃ bytes, site.content? t 0 = some bytes ∧ l.size = bytes.length

theorem becomes_reopen (hat : site.IsAt log)
    (hok : log.reopen site.disk t = (.ok (), log', t')) :
    site.Stands t ∧ site.Tracks log' t' ∧
      site.Becomes (Function.update (site.content? t) 0 (some ((site.content? t 0).getD [])))
        t t' := by
  rw [RotatingLog.reopen, hat.name] at hok
  rcases hopen : site.disk.openEnd (RotatingLog.fileName site.name 0) t with e | ⟨size, t''⟩
  · simp [hopen] at hok
  · rw [hopen] at hok
    cases hok
    obtain ⟨hstands, rfl, hbecomes⟩ := becomes_openEnd hopen
    refine ⟨hstands, ⟨⟨rfl, hat.maxFiles, hat.maxSize⟩, rfl, (site.content? t 0).getD [], ?_, rfl⟩,
      hbecomes⟩
    rw [hbecomes.content, Function.update_self]

theorem moves_of_slots_eq_one (h : site.slots = 1) :
    RotatingLog.moves site.name (site.maxFiles - 1) = [.clear (site.fileName 0)] := by
  have hnone : site.maxFiles - 1 = 0 := by
    unfold slots at h
    omega
  rw [hnone]
  rfl

theorem moves_of_slots {n : Nat} (h : site.slots = n + 2) :
    RotatingLog.moves site.name (site.maxFiles - 1) =
      .discard (site.fileName (n + 1)) :: site.shifts (n + 1) := by
  have hsome : site.maxFiles - 1 = n + 1 := by
    unfold slots at h
    omega
  rw [hsome]
  rfl

theorem becomes_moves (hstands : site.Stands t')
    (hok : RotatingLog.runMoves site.disk t
      (RotatingLog.moves site.name (site.maxFiles - 1)) = (.ok (), t')) :
    ∃ contents, site.Becomes contents t t' ∧
      Function.update contents 0 (some ((contents 0).getD [])) =
        turned site.slots (site.content? t) := by
  obtain hone | ⟨n, hmore⟩ : site.slots = 1 ∨ ∃ n, site.slots = n + 2 := by
    obtain ⟨n, hn⟩ := Nat.exists_eq_add_of_lt site.slots_pos
    cases n with
    | zero => exact .inl (by omega)
    | succ n => exact .inr ⟨n, by omega⟩
  · rw [moves_of_slots_eq_one hone] at hok
    obtain ⟨between, hmove, hrest⟩ := runMoves_cons_eq_ok hok
    cases hrest
    refine ⟨_, becomes_clear hmove, ?_⟩
    funext i
    cases i with
    | zero => rfl
    | succ i => simp [turned, hone]
  · rw [moves_of_slots hmore] at hok
    obtain ⟨between, hmove, hrest⟩ := runMoves_cons_eq_ok hok
    have hlast : n + 1 < site.slots := by omega
    have hdiscard := becomes_discard hlast hmove
    have hshifts := becomes_shifts hlast (by simp [hdiscard.content]) hstands hrest
    refine ⟨_, hdiscard.trans hshifts, ?_⟩
    rw [hdiscard.content, hmore]
    funext i
    cases i with
    | zero => rfl
    | succ i =>
        simp only [turned, shifted, Function.update_apply]
        grind

/-- A rotation that succeeds leaves an empty current file. -/
theorem becomes_rotate (hat : site.IsAt log)
    (hok : log.rotate site.disk t = (.ok (), log', t')) :
    site.Tracks log' t' ∧ site.Becomes (turned site.slots (site.content? t)) t t' := by
  obtain ⟨name, maxFiles, maxSize, isOpen, size⟩ := log
  obtain ⟨rfl, rfl, rfl⟩ := hat
  rw [RotatingLog.rotate] at hok
  split at hok
  · next between hmoves =>
      obtain ⟨hstands, htracks, hreopen⟩ := becomes_reopen ⟨rfl, rfl, rfl⟩ hok
      obtain ⟨contents, hcontents, hturned⟩ := becomes_moves hstands hmoves
      rw [hcontents.content, hturned] at hreopen
      exact ⟨htracks, hcontents.trans hreopen⟩
  · cases hok

/-! ## One use -/

theorem becomes_start (hok : RotatingLog.start site.disk site.name site.maxFiles site.maxSize t =
      (.ok log, t')) :
    site.Tracks log t' ∧ site.Becomes (site.added (site.content? t) []) t t' := by
  rw [RotatingLog.start] at hok
  rcases hreopen : RotatingLog.reopen site.disk ⟨site.name, site.maxFiles, site.maxSize, false, 0⟩ t
    with ⟨e | ⟨⟩, opened, between⟩
  · simp [hreopen] at hok
  obtain ⟨-, htracks, hbecomes⟩ := becomes_reopen ⟨rfl, rfl, rfl⟩ hreopen
  obtain ⟨bytes, hcurrent, hsize⟩ := htracks.current
  have hbytes : bytes = (site.content? t 0).getD [] := by
    rw [hbecomes.content, Function.update_self, Option.some.injEq] at hcurrent
    exact hcurrent.symm
  simp only [hreopen, hsize, hbytes] at hok
  split at hok
  · next hlarge =>
      have hdue : site.Due (site.content? t) [] := due_nil_iff.mpr hlarge
      rcases hrotate : opened.rotate site.disk between with ⟨e | ⟨⟩, rotated, after⟩
      · simp [hrotate] at hok
      obtain ⟨rfl, rfl⟩ : rotated = log ∧ after = t' := by simpa [hrotate] using hok
      obtain ⟨htracks', hturned⟩ := becomes_rotate htracks.toIsAt hrotate
      refine ⟨htracks', ?_⟩
      have hsome : some ((site.content? t 0).getD []) = site.content? t 0 := by
        cases hthere : site.content? t 0 with
        | none => simp [hthere] at hlarge
        | some bytes => rfl
      rw [hbecomes.content, hsome, Function.update_eq_self] at hturned
      have hadded : site.added (site.content? t) [] = turned site.slots (site.content? t) := by
        rw [added, if_pos hdue]
        exact Function.update_eq_self 0 (turned site.slots (site.content? t))
      rw [hadded]
      exact hbecomes.trans hturned
  · next hsmall =>
      obtain ⟨rfl, rfl⟩ : opened = log ∧ between = t' := by simpa using hok
      have hnot : ¬ site.Due (site.content? t) [] := mt due_nil_iff.mp hsmall
      rw [added, if_neg hnot, List.append_nil]
      exact ⟨htracks, hbecomes⟩

theorem becomes_add {bytes : ByteArray} (htracks : site.Tracks log t)
    (hok : log.put site.disk bytes t = (.ok (), log', t')) :
    site.Tracks log' t' ∧ site.Becomes (Function.update (site.content? t) 0
      (some ((site.content? t 0).getD [] ++ bytes.data.toList))) t t' := by
  obtain ⟨name, maxFiles, maxSize, isOpen, size⟩ := log
  obtain ⟨⟨rfl, rfl, rfl⟩, rfl, held, hcurrent, rfl⟩ := htracks
  rw [RotatingLog.put] at hok
  rcases happend : site.disk.append (RotatingLog.fileName site.name 0) bytes t with e | after
  · simp [happend] at hok
  simp only [happend] at hok
  cases hok
  have hbecomes := becomes_append happend
  refine ⟨⟨⟨rfl, rfl, rfl⟩, rfl, held ++ bytes.data.toList, ?_, ?_⟩, hbecomes⟩
  · rw [hbecomes.content, Function.update_self, hcurrent, Option.getD_some]
  · rw [List.length_append]
    rfl

theorem isDue_iff {bytes : ByteArray} (htracks : site.Tracks log t) :
    log.isDue bytes = true ↔ site.Due (site.content? t) bytes.data.toList := by
  obtain ⟨held, hcurrent, hsize⟩ := htracks.current
  simp [RotatingLog.isDue, Due, hcurrent, hsize, htracks.maxSize]

theorem becomes_write {bytes : ByteArray} (htracks : site.Tracks log t)
    (hok : log.write site.disk bytes t = (.ok (), log', t')) :
    site.Tracks log' t' ∧ site.Becomes (site.added (site.content? t) bytes.data.toList) t t' := by
  rw [RotatingLog.write] at hok
  split at hok
  · next hdue =>
      rcases hrotate : log.rotate site.disk t with ⟨e | ⟨⟩, rotated, between⟩
      · simp [hrotate] at hok
      obtain ⟨htracks', hturned⟩ := becomes_rotate htracks.toIsAt hrotate
      simp only [hrotate] at hok
      obtain ⟨htracks'', hadded⟩ := becomes_add htracks' hok
      refine ⟨htracks'', ?_⟩
      rw [added, if_pos ((isDue_iff htracks).mp hdue)]
      rw [hturned.content] at hadded
      exact hturned.trans hadded
  · next hnot =>
      rw [added, if_neg (mt (isDue_iff htracks).mpr hnot)]
      exact becomes_add htracks hok

/-! ## Any number of uses -/

/-- Nothing is created where there is a file of the log already. -/
theorem makeDirectories_of_tracks (htracks : site.Tracks log t) :
    t.makeDirectories site.directory = (t, .ok ()) := by
  obtain ⟨bytes, hcurrent, -⟩ := htracks.current
  rw [content?_eq] at hcurrent
  obtain ⟨n, hn, -⟩ := Option.bind_eq_some_iff.mp hcurrent
  obtain ⟨hfits, l, hl, -⟩ := (FileTree.child?_eq_some_iff (isName_fileName site 0)).mp hn
  exact FileTree.makeDirectories_of_leads hl
    (FileTree.checkPath_of_join (isName_fileName site 0) hfits.path)

theorem becomes_opening {files : FileTree} {s : RotatingLog × FileTree}
    (hok : site.start files = .ok s) :
    site.Tracks s.1 s.2 ∧
      site.Becomes (site.added (site.content? (site.prepared files)) []) (site.prepared files)
        s.2 := by
  rcases hmade : files.makeDirectories site.directory with ⟨made, e | ⟨⟩⟩
  · simp [start, hmade] at hok
  rcases hstart : RotatingLog.start site.disk site.name site.maxFiles site.maxSize made
    with ⟨e | log, after⟩
  · simp [start, hmade, hstart] at hok
  simp only [start, hmade, hstart] at hok
  cases hok
  rw [prepared, hmade]
  exact becomes_start hstart

/-- What one use does to the contents of the files. -/
theorem becomes_use {s s' : RotatingLog × FileTree} {u : LogUse} (htracks : site.Tracks s.1 s.2)
    (hok : site.use s u = .ok s') :
    site.Tracks s'.1 s'.2 ∧
      site.Becomes (site.added (site.content? s.2) u.writes.flatten) s.2 s'.2 := by
  cases u with
  | reopen =>
      have hopening := becomes_opening hok
      rwa [prepared, makeDirectories_of_tracks htracks] at hopening
  | write bytes =>
      rw [use] at hok
      rcases hwrite : s.1.write site.disk bytes s.2 with ⟨e | ⟨⟩, log, after⟩
      · simp [hwrite] at hok
      simp only [hwrite] at hok
      cases hok
      simpa [LogUse.writes] using becomes_write htracks hwrite

theorem failure_of_start {files : FileTree} {e : LogFailure}
    (hfail : site.start files = .error e) : ∃ fault, e = .file fault := by
  rw [start] at hfail
  split at hfail
  · cases hfail
    exact ⟨_, rfl⟩
  · split at hfail
    · cases hfail
      exact ⟨_, rfl⟩
    · cases hfail

theorem failure_of_put {e : LogFailure} {bytes : ByteArray} (hopen : log.isOpen = true)
    (hfail : (log.put site.disk bytes t).1 = .error e) : ∃ fault, e = .file fault := by
  rw [RotatingLog.put, hopen] at hfail
  rcases happend : site.disk.append (RotatingLog.fileName log.name 0) bytes t with fault | after
  · obtain rfl : .file fault = e := by simpa [happend] using hfail
    exact ⟨fault, rfl⟩
  · simp [happend] at hfail

/-- A log that is open fails only with a file operation. -/
theorem failure_of_use {s : RotatingLog × FileTree} {u : LogUse} {e : LogFailure}
    (htracks : site.Tracks s.1 s.2) (hfail : site.use s u = .error e) :
    ∃ fault, e = .file fault := by
  cases u with
  | reopen => exact failure_of_start hfail
  | write bytes =>
      have hwrite : (s.1.write site.disk bytes s.2).1 = .error e := by
        rw [use] at hfail
        rcases hw : s.1.write site.disk bytes s.2 with ⟨e' | ⟨⟩, log, after⟩
        · simpa [hw] using hfail
        · simp [hw] at hfail
      rw [RotatingLog.write] at hwrite
      split at hwrite
      · rcases hrotate : s.1.rotate site.disk s.2 with ⟨fault | ⟨⟩, rotated, between⟩
        · obtain rfl : .file fault = e := by simpa [hrotate] using hwrite
          exact ⟨fault, rfl⟩
        · simp only [hrotate] at hwrite
          exact failure_of_put (becomes_rotate htracks.toIsAt hrotate).1.isOpen hwrite
      · exact failure_of_put htracks.isOpen hwrite

theorem run_concat (site : LogSite) (files : FileTree) (uses : List LogUse) (u : LogUse) :
    site.run files (uses ++ [u]) = site.run files uses >>= fun s => site.use s u := by
  simp only [run, List.foldlM_append, List.foldlM_cons, List.foldlM_nil, bind_pure, bind_assoc]

/-- What holds when the log has been opened, and is kept by each use, holds after every run. -/
theorem run_induction {motive : List LogUse → RotatingLog × FileTree → Prop} {files : FileTree}
    (opening : ∀ s, site.start files = .ok s → site.Tracks s.1 s.2 → motive [] s)
    (step : ∀ uses s u s', motive uses s → site.Tracks s.1 s.2 → site.use s u = .ok s' →
      motive (uses ++ [u]) s')
    {uses : List LogUse} {s : RotatingLog × FileTree} (hok : site.run files uses = .ok s) :
    site.Tracks s.1 s.2 ∧ motive uses s := by
  induction uses using List.reverseRecOn generalizing s with
  | nil =>
      have hstart : site.start files = .ok s := by
        simpa only [run, List.foldlM_nil, bind_pure] using hok
      have htracks := (becomes_opening hstart).1
      exact ⟨htracks, opening s hstart htracks⟩
  | append_singleton uses u ih =>
      rw [run_concat] at hok
      cases hrun : site.run files uses with
      | error e => simp [hrun, bind, Except.bind] at hok
      | ok between =>
          have huse : site.use between u = .ok s := by
            simpa [hrun, bind, Except.bind] using hok
          obtain ⟨htracks, hbetween⟩ := ih hrun
          exact ⟨(becomes_use htracks huse).1, step uses between u s hbetween htracks huse⟩

theorem tracks_of_run {files : FileTree} {uses : List LogUse} {s : RotatingLog × FileTree}
    (hok : site.run files uses = .ok s) : site.Tracks s.1 s.2 :=
  (run_induction (motive := fun _ _ => True) (fun _ _ _ => trivial)
    (fun _ _ _ _ _ _ _ => trivial) hok).1

/-- When no file operation fails, a run comes to its end. -/
theorem exists_run {files : FileTree} {uses : List LogUse}
    (hfiles : ∀ fault, site.run files uses ≠ .error (.file fault)) :
    ∃ s, site.run files uses = .ok s := by
  have hfailure : ∀ e, site.run files uses = .error e → ∃ fault, e = .file fault := by
    clear hfiles
    induction uses using List.reverseRecOn with
    | nil =>
        intro e hfail
        exact failure_of_start (by simpa only [run, List.foldlM_nil, bind_pure] using hfail)
    | append_singleton uses u ih =>
        intro e hfail
        rw [run_concat] at hfail
        cases hrun : site.run files uses with
        | error e' =>
            obtain rfl : e' = e := by simpa [hrun, bind, Except.bind] using hfail
            exact ih e' hrun
        | ok s =>
            have huse : site.use s u = .error e := by
              simpa [hrun, bind, Except.bind] using hfail
            exact failure_of_use (tracks_of_run hrun) huse
  cases hrun : site.run files uses with
  | ok s => exact ⟨s, rfl⟩
  | error e =>
      obtain ⟨fault, rfl⟩ := hfailure e hrun
      exact absurd hrun (hfiles fault)

end LogSite

end CheckWorker
