import CheckWorker.Proofs.Log.Rotation

/-!
# The bounds of a log

What a log counts as its size is the size of the current file. A file that is filled grows beyond
the limit only by one write that is too large for any file; it is empty when that comes, and nothing
but empty writes joins it. No empty file is ever set aside. The log touches only as many files as it
may keep, and all else stays as it is.
-/

namespace CheckWorker

open FileTree (SameOutside)

/-- What has come into a file since the log was opened. -/
structure Filling where
  /-- What it held before. -/
  before : List UInt8
  writes : List (List UInt8)

namespace Filling

def bytes (f : Filling) : List UInt8 :=
  f.before ++ f.writes.flatten

/-- The file is within the limit, or it holds one write that is not empty, which is beyond. -/
def IsBounded (maxSize : Nat) (f : Filling) : Prop :=
  f.bytes.length ≤ maxSize ∨
    f.before = [] ∧ ∃ w, f.writes.filter (· ≠ []) = [w] ∧ maxSize < w.length

variable {maxSize : Nat} {f : Filling} {w : List UInt8}

theorem isBounded_single (maxSize : Nat) (w : List UInt8) : IsBounded maxSize ⟨[], [w]⟩ := by
  by_cases hlarge : maxSize < w.length
  · have hne : w ≠ [] := List.ne_nil_of_length_pos (Nat.zero_lt_of_lt hlarge)
    exact .inr ⟨rfl, w, by simp [hne], hlarge⟩
  · exact .inl (by simpa [bytes] using Nat.le_of_not_lt hlarge)

/-- A write that does not call for another file leaves the file within its bounds. -/
theorem isBounded_concat
    (h : ¬ (0 < f.bytes.length ∧ maxSize < f.bytes.length + w.length)) :
    IsBounded maxSize ⟨f.before, f.writes ++ [w]⟩ := by
  have hbytes : bytes ⟨f.before, f.writes ++ [w]⟩ = f.bytes ++ w := by
    simp [bytes]
  by_cases hlarge : maxSize < f.bytes.length + w.length
  · -- the file was empty, so that the write is all there is
    have hnil : f.bytes = [] := List.eq_nil_of_length_eq_zero (by omega)
    obtain ⟨hbefore, hwrites⟩ := List.append_eq_nil_iff.mp hnil
    have hnone : f.writes.filter (· ≠ []) = [] := by
      simpa [List.filter_eq_nil_iff] using List.flatten_eq_nil_iff.mp hwrites
    rw [hnil, List.length_nil, Nat.zero_add] at hlarge
    have hne : w ≠ [] := List.ne_nil_of_length_pos (Nat.zero_lt_of_lt hlarge)
    refine .inr ⟨hbefore, w, ?_, hlarge⟩
    rw [List.filter_append, hnone]
    simp [hne]
  · refine .inl ?_
    rw [hbytes, List.length_append]
    exact Nat.le_of_not_lt hlarge

end Filling

namespace LogSite

variable {site : LogSite} {t t' : FileTree}

def names (site : LogSite) : List String :=
  (List.range site.slots).map site.fileName

/-- The files that were set aside stay as they are, or the current one joins them; then it holds
something. -/
def SetsAside (site : LogSite) (before after : FileTree) : Prop :=
  (∀ i, i + 1 < site.slots → site.content? after (i + 1) = site.content? before (i + 1)) ∨
    ∃ bytes, bytes ≠ [] ∧ site.content? before 0 = some bytes ∧
      ∀ i, i + 1 < site.slots → site.content? after (i + 1) = site.content? before i

/-- The files have been filled one after another, the newest first, since the contents were others.
Those that have not been filled are the ones that were set aside before, each moved on as often as a
file was set aside since. -/
structure Fills (site : LogSite) (opened contents : Nat → Option (List UInt8))
    (writes : List (List UInt8)) (fillings : List Filling) : Prop where
  before : fillings.map Filling.before =
    List.replicate (fillings.length - 1) [] ++ (opened 0).toList
  writes : fillings.reverse.flatMap Filling.writes = writes
  filled : ∀ i f, i < site.slots → fillings[i]? = some f → contents i = some f.bytes
  moved : ∀ i, i < site.slots → fillings.length ≤ i →
    contents i = opened (i + 1 - fillings.length)
  bounded : ∀ f ∈ fillings, f.IsBounded site.maxSize
  nonempty : ∀ f ∈ fillings.tail, f.bytes ≠ []

/-- What holds of the files after an opening and some writes. -/
structure KeepsBounds (site : LogSite) (files : FileTree) (writes : List (List UInt8))
    (s : RotatingLog × FileTree) : Prop where
  size : ∃ bytes, site.content? s.2 0 = some bytes ∧ s.1.size = bytes.length
  fillings : ∃ s₀ fillings, site.start files = .ok s₀ ∧
    site.SetsAside (site.prepared files) s₀.2 ∧
      site.Fills (site.content? s₀.2) (site.content? s.2) writes fillings
  next : ∀ u s', site.use s u = .ok s' → site.SetsAside s.2 s'.2
  same : SameOutside (site.Owned (site.prepared files).here) (site.prepared files) s.2
  /-- Nor would anything else have been possible if no other files could be seen. -/
  opening_only : RotatingLog.start (site.disk.only site.names) site.name site.maxFiles site.maxSize
      (site.prepared files) =
    RotatingLog.start site.disk site.name site.maxFiles site.maxSize (site.prepared files)
  write_only : ∀ bytes, s.1.write (site.disk.only site.names) bytes s.2 =
    s.1.write site.disk bytes s.2

/-! ## Files that are filled -/

variable {opened contents : Nat → Option (List UInt8)} {writes : List (List UInt8)}
  {f : Filling} {fillings : List Filling} {w : List UInt8}

theorem due_iff (h : contents 0 = some f.bytes) :
    site.Due contents w ↔ 0 < f.bytes.length ∧ site.maxSize < f.bytes.length + w.length := by
  rw [Due, h, Option.getD_some]

namespace Fills

theorem first {held : List UInt8} (h : opened 0 = some held) (hsize : held.length ≤ site.maxSize) :
    site.Fills opened opened [] [⟨held, []⟩] where
  before := by simp [h]
  writes := rfl
  filled i f _ hf := by
    obtain ⟨rfl, rfl⟩ : i = 0 ∧ (⟨held, []⟩ : Filling) = f := by
      cases i <;> simp_all
    simpa [Filling.bytes] using h
  moved i _ hi := by simp
  bounded f hf := by
    obtain rfl := List.mem_singleton.mp hf
    exact .inl (by simpa [Filling.bytes] using hsize)
  nonempty f hf := by simp at hf

/-- A write joins the current file. -/
theorem grow (h : site.Fills opened contents writes (f :: fillings))
    (hdue : ¬ site.Due contents w) :
    site.Fills opened (site.added contents w) (writes ++ [w])
      (⟨f.before, f.writes ++ [w]⟩ :: fillings) := by
  have hcurrent : contents 0 = some f.bytes := h.filled 0 f site.slots_pos rfl
  rw [added, if_neg hdue]
  refine ⟨?_, ?_, ?_, ?_, ?_, ?_⟩
  · simpa using h.before
  · simp [← h.writes]
  · intro i g hi hg
    cases i with
    | zero =>
        obtain rfl := Option.some.inj hg
        simp [hcurrent, Filling.bytes]
    | succ i =>
        rw [Function.update_of_ne i.succ_ne_zero]
        exact h.filled (i + 1) g hi hg
  · intro i hi hlength
    rw [Function.update_of_ne (Nat.ne_of_gt (Nat.lt_of_lt_of_le (Nat.succ_pos _) hlength))]
    exact h.moved i hi hlength
  · intro g hg
    rcases List.mem_cons.mp hg with rfl | hg
    · exact Filling.isBounded_concat (mt (due_iff hcurrent).mpr hdue)
    · exact h.bounded g (List.mem_cons_of_mem f hg)
  · exact h.nonempty

/-- The current file is set aside before the write, and it is not empty. -/
theorem turn (h : site.Fills opened contents writes (f :: fillings)) (hdue : site.Due contents w) :
    site.Fills opened (site.added contents w) (writes ++ [w])
      (⟨[], [w]⟩ :: f :: fillings) := by
  have hcurrent : contents 0 = some f.bytes := h.filled 0 f site.slots_pos rfl
  have hfull : f.bytes ≠ [] := List.ne_nil_of_length_pos ((due_iff hcurrent).mp hdue).1
  rw [added, if_pos hdue]
  refine ⟨?_, ?_, ?_, ?_, ?_, ?_⟩
  · simpa [List.replicate_succ] using h.before
  · simp [← h.writes]
  · intro i g hi hg
    cases i with
    | zero =>
        obtain rfl := Option.some.inj hg
        simp [Filling.bytes]
    | succ i =>
        rw [Function.update_of_ne i.succ_ne_zero, turned, if_pos hi]
        exact h.filled i g (Nat.lt_of_succ_lt hi) hg
  · intro i hi hlength
    cases i with
    | zero => cases hlength
    | succ i =>
        rw [Function.update_of_ne i.succ_ne_zero, turned, if_pos hi,
          h.moved i (Nat.lt_of_succ_lt hi) (Nat.le_of_succ_le_succ hlength)]
        simp only [List.length_cons, Nat.add_sub_add_right]
  · intro g hg
    rcases List.mem_cons.mp hg with rfl | hg
    · exact Filling.isBounded_single site.maxSize w
    · exact h.bounded g hg
  · intro g hg
    rcases List.mem_cons.mp hg with rfl | hg
    · exact hfull
    · exact h.nonempty g hg

theorem add (h : site.Fills opened contents writes (f :: fillings)) (w : List UInt8) :
    ∃ f' fillings',
      site.Fills opened (site.added contents w) (writes ++ [w]) (f' :: fillings') := by
  by_cases hdue : site.Due contents w
  · exact ⟨_, _, h.turn hdue⟩
  · exact ⟨_, _, h.grow hdue⟩

end Fills

/-! ## One use -/

theorem setsAside_of_added (h : site.content? t' = site.added (site.content? t) w) :
    site.SetsAside t t' := by
  rw [SetsAside, h, added]
  by_cases hdue : site.Due (site.content? t) w
  · rw [if_pos hdue]
    cases hcurrent : site.content? t 0 with
    | none => simp [Due, hcurrent] at hdue
    | some bytes =>
        have hne : bytes ≠ [] := by
          rw [Due, hcurrent] at hdue
          exact List.ne_nil_of_length_pos hdue.1
        refine .inr ⟨bytes, hne, rfl, fun i hi => ?_⟩
        rw [Function.update_of_ne i.succ_ne_zero, turned, if_pos hi]
  · rw [if_neg hdue]
    exact .inl fun i _ => Function.update_of_ne i.succ_ne_zero _ _

/-- After an opening the current file is within the limit. -/
theorem exists_current_of_opening (site : LogSite) (contents : Nat → Option (List UInt8)) :
    ∃ held, site.added contents [] 0 = some held ∧ held.length ≤ site.maxSize := by
  rw [added]
  by_cases hdue : site.Due contents []
  · rw [if_pos hdue, Function.update_self]
    exact ⟨[], rfl, Nat.zero_le _⟩
  · rw [if_neg hdue, Function.update_self, List.append_nil]
    exact ⟨_, rfl, Nat.le_of_not_lt (mt due_nil_iff.mpr hdue)⟩

/-- What is kept while the log is only written to. -/
structure Filled (site : LogSite) (files : FileTree) (writes : List (List UInt8))
    (s : RotatingLog × FileTree) : Prop where
  same : SameOutside (site.Owned (site.prepared files).here) (site.prepared files) s.2
  fillings : ∃ s₀ f fillings, site.start files = .ok s₀ ∧
    site.SetsAside (site.prepared files) s₀.2 ∧
      site.Fills (site.content? s₀.2) (site.content? s.2) writes (f :: fillings)

theorem filled_opening {files : FileTree} {s : RotatingLog × FileTree}
    (hok : site.start files = .ok s) : site.Filled files [] s := by
  have hbecomes := (becomes_opening hok).2
  obtain ⟨held, hheld, hsize⟩ :=
    exists_current_of_opening site (site.content? (site.prepared files))
  rw [← hbecomes.content] at hheld
  exact ⟨hbecomes.same, s, _, _, hok, setsAside_of_added hbecomes.content, .first hheld hsize⟩

theorem filled_write {files : FileTree} {s s' : RotatingLog × FileTree} {bytes : ByteArray}
    (h : site.Filled files writes s) (htracks : site.Tracks s.1 s.2)
    (hok : site.use s (.write bytes) = .ok s') :
    site.Filled files (writes ++ [bytes.data.toList]) s' := by
  have hbecomes := (becomes_use htracks hok).2
  rw [LogUse.writes, List.flatten_singleton] at hbecomes
  obtain ⟨s₀, f, fillings, hopening, haside, hfills⟩ := h.fillings
  obtain ⟨f', fillings', hfills'⟩ := hfills.add bytes.data.toList
  rw [← hbecomes.content] at hfills'
  exact ⟨h.same.trans (h.same.here ▸ hbecomes.same), s₀, f', fillings', hopening, haside, hfills'⟩

/-! ## Any number of writes -/

theorem filled_run {files : FileTree} {writes : List ByteArray} {s : RotatingLog × FileTree}
    (hok : site.run files (writes.map .write) = .ok s) :
    site.Tracks s.1 s.2 ∧ site.Filled files (writes.map (·.data.toList)) s := by
  suffices h : site.Tracks s.1 s.2 ∧ ∀ writes' : List ByteArray,
      writes.map LogUse.write = writes'.map .write →
        site.Filled files (writes'.map (·.data.toList)) s from
    ⟨h.1, h.2 writes rfl⟩
  refine run_induction (motive := fun uses s => ∀ writes : List ByteArray,
    uses = writes.map .write → site.Filled files (writes.map (·.data.toList)) s) ?_ ?_ hok
  · intro s hstart _ writes hwrites
    obtain rfl := List.map_eq_nil_iff.mp hwrites.symm
    exact filled_opening hstart
  · intro uses s u s' hfilled htracks huse writes hwrites
    obtain ⟨earlier, last, rfl, hearlier, hlast⟩ := List.map_eq_append_iff.mp hwrites.symm
    obtain ⟨bytes, rfl, rfl⟩ := List.map_eq_singleton_iff.mp hlast
    rw [List.map_append]
    exact filled_write (hfilled earlier hearlier.symm) htracks huse

theorem mem_names {i : Nat} (hi : i ≤ site.maxFiles - 1) : site.fileName i ∈ site.names := by
  refine List.mem_map.mpr ⟨i, List.mem_range.mpr ?_, rfl⟩
  unfold slots
  omega

/-- A log that is opened and written to keeps its bounds while no file operation fails. -/
theorem keepsBounds_run (site : LogSite) (files : FileTree) (writes : List ByteArray)
    (hfiles : ∀ fault, site.run files (writes.map .write) ≠ .error (.file fault)) :
    ∃ s, site.run files (writes.map .write) = .ok s ∧
      site.KeepsBounds files (writes.map (·.data.toList)) s := by
  obtain ⟨s, hok⟩ := exists_run hfiles
  refine ⟨s, hok, ?_⟩
  obtain ⟨htracks, hfilled⟩ := filled_run hok
  obtain ⟨s₀, f, fillings, hopening, haside, hfills⟩ := hfilled.fillings
  refine ⟨htracks.current, ⟨s₀, f :: fillings, hopening, haside, hfills⟩, fun u s' huse => ?_,
    hfilled.same, ?_, fun bytes => ?_⟩
  · exact setsAside_of_added (becomes_use htracks huse).2.content
  · exact RotatingLog.start_only site.maxSize fun i hi => mem_names hi
  · refine RotatingLog.write_only (fun i hi => ?_) bytes
    rw [htracks.name]
    exact mem_names (htracks.maxFiles ▸ hi)

/-- A file that is too large is found and set aside, a write fits exactly, one is too large for any
file, and an empty one comes after it. -/
theorem keepsBounds_of_four_writes :
    let site : LogSite := ⟨⟨"/l"⟩, "a b", 2, 4⟩
    let files : FileTree := ⟨[], [(["l"], .directory), (["a_b.log", "l"], .file "older".toUTF8),
      (["a_b.log.2", "l"], .file "kept".toUTF8), (["other", "l"], .directory)]⟩
    let writes := ["abc", "d", "efghi", ""].map String.toUTF8
    (∀ fault, site.run files (writes.map .write) ≠ .error (.file fault)) ∧
      ∃ s, site.run files (writes.map .write) = .ok s ∧
        site.KeepsBounds files (writes.map (·.data.toList)) s := by
  intro site files writes
  have hfiles : ∀ fault, site.run files (writes.map .write) ≠ .error (.file fault) := by
    intro fault hfail
    have hok : (site.run files (writes.map .write)).toOption.isSome = true := by decide +kernel
    rw [hfail] at hok
    cases hok
  exact ⟨hfiles, keepsBounds_run site files writes hfiles⟩

end LogSite

end CheckWorker
