import CheckWorker.Log.RotatingLog
import CheckWorker.Proofs.FileSystem.Finding

/-!
# The names of a log's files

The names of a log's files name one thing each in the directory, and no two of them are the same. No
others are used: with a disk on which only as many files can be seen as are kept, opening a log and
writing to it do the same.
-/

namespace CheckWorker

/-- The disk with some files only. Others cannot be seen, and nothing can be done to them. -/
def Disk.only {δ : Type} (names : List String) (disk : Disk δ) : Disk δ where
  holds name d := decide (name ∈ names) && disk.holds name d
  remove name d := if name ∈ names then disk.remove name d else .error .denied
  rename source dest d :=
    if source ∈ names ∧ dest ∈ names then disk.rename source dest d else .error .denied
  clear name d := if name ∈ names then disk.clear name d else .error .denied
  openEnd name d := if name ∈ names then disk.openEnd name d else .error .denied
  append name bytes d := if name ∈ names then disk.append name bytes d else .error .denied

namespace RotatingLog

theorem slash_notMem_cleanName (name : String) : '/' ∉ (cleanName name).toList := by
  rw [cleanName, String.toList_map, List.mem_map]
  rintro ⟨c, -, hc⟩
  split at hc
  · next hname =>
      rw [hc] at hname
      exact absurd hname (by decide)
  · exact absurd hc (by decide)

theorem toList_fileName_succ (name : String) (i : Nat) :
    (fileName name (i + 1)).toList =
      (fileName name 0).toList ++ '.' :: Nat.toDigits 10 (i + 1) := by
  simp [fileName, Nat.toString_eq_repr, Nat.toList_repr]

theorem fileName_injective (name : String) : Function.Injective (fileName name) := by
  have hzero (i : Nat) : fileName name (i + 1) ≠ fileName name 0 := fun heq => by
    have hlist := congrArg String.toList heq
    rw [toList_fileName_succ] at hlist
    simp at hlist
  intro i j hij
  cases i with
  | zero =>
      cases j with
      | zero => rfl
      | succ j => exact absurd hij.symm (hzero j)
  | succ i =>
      cases j with
      | zero => exact absurd hij (hzero i)
      | succ j =>
          have hlist := congrArg String.toList hij
          rw [toList_fileName_succ, toList_fileName_succ, List.append_cancel_left_eq,
            List.cons.injEq] at hlist
          have hvalue := congrArg (Nat.ofDigitChars 10 · 0) hlist.2
          simpa [Nat.ofDigitChars_ten_toDigits] using hvalue

theorem isName_fileName {name : String} (h : '/' ∉ name.toList) (i : Nat) :
    FilePath.IsName (fileName name i) := by
  have hcurrent : (fileName name 0).toList = name.toList ++ ['.', 'l', 'o', 'g'] := by
    simp [fileName]
  have hlong : 4 ≤ (fileName name i).toList.length := by
    cases i <;> simp only [toList_fileName_succ, hcurrent, List.length_append, List.length_cons] <;>
      omega
  have hshort {s : String} (hs : s.toList.length < 4) : fileName name i ≠ s := by
    rintro rfl
    omega
  have hslash : '/' ∉ (fileName name i).toList := by
    cases i with
    | zero => simp [hcurrent, h]
    | succ i =>
        have hdigits : '/' ∉ Nat.toDigits 10 (i + 1) := fun hmem => by
          have hdigit := Nat.isDigit_of_mem_toDigits (by decide) (by decide) hmem
          exact absurd hdigit (by decide)
        simp [toList_fileName_succ, hcurrent, h, hdigits]
  exact ⟨hshort (by decide), hslash, hshort (by decide), hshort (by decide)⟩

/-! ## What is used -/

def Move.names : Move → List String
  | .discard file => [file]
  | .shift source dest => [source, dest]
  | .clear file => [file]

section

variable {δ : Type} {disk : Disk δ} {d : δ} {names : List String}

theorem Move.run_only {m : Move} (h : ∀ file ∈ m.names, file ∈ names) :
    m.run (disk.only names) d = m.run disk d := by
  cases m with
  | discard file =>
      have hfile := h file List.mem_cons_self
      simp [Move.run, Disk.only, hfile]
  | shift source dest =>
      have hsource := h source List.mem_cons_self
      have hdest := h dest (List.mem_cons_of_mem _ List.mem_cons_self)
      simp [Move.run, Disk.only, hsource, hdest]
  | clear file =>
      have hfile := h file List.mem_cons_self
      simp [Move.run, Disk.only, hfile]

theorem runMoves_only {moves : List Move} (h : ∀ m ∈ moves, ∀ file ∈ m.names, file ∈ names) :
    runMoves (disk.only names) d moves = runMoves disk d moves := by
  induction moves generalizing d with
  | nil => rfl
  | cons m moves ih =>
      rw [runMoves, runMoves, Move.run_only (h m List.mem_cons_self)]
      cases m.run disk d with
      | ok d' => exact ih fun m' hm' => h m' (List.mem_cons_of_mem m hm')
      | error e => rfl

theorem names_of_mem_moves {name file : String} {k : Nat} {m : Move} (hm : m ∈ moves name k)
    (hfile : file ∈ m.names) : ∃ i ≤ k, file = fileName name i := by
  cases k with
  | zero =>
      obtain rfl := List.mem_singleton.mp hm
      exact ⟨0, Nat.le_refl 0, List.mem_singleton.mp hfile⟩
  | succ k =>
      rcases List.mem_cons.mp hm with rfl | hm
      · exact ⟨k + 1, Nat.le_refl _, List.mem_singleton.mp hfile⟩
      · obtain ⟨i, hi, rfl⟩ := List.mem_map.mp hm
        have hlt : i < k + 1 := List.mem_range.mp (List.mem_reverse.mp hi)
        rcases List.mem_cons.mp hfile with rfl | hfile
        · exact ⟨i, Nat.le_of_lt hlt, rfl⟩
        · exact ⟨i + 1, hlt, List.mem_singleton.mp hfile⟩

variable {l : RotatingLog}

theorem reopen_only (h : fileName l.name 0 ∈ names) :
    l.reopen (disk.only names) d = l.reopen disk d := by
  simp [reopen, Disk.only, h]

theorem put_only (h : fileName l.name 0 ∈ names) (bytes : ByteArray) :
    l.put (disk.only names) bytes d = l.put disk bytes d := by
  simp [put, Disk.only, h]

theorem rotate_only (h : ∀ i ≤ l.maxFiles - 1, fileName l.name i ∈ names) :
    l.rotate (disk.only names) d = l.rotate disk d := by
  have hmoves : runMoves (disk.only names) d (moves l.name (l.maxFiles - 1)) =
      runMoves disk d (moves l.name (l.maxFiles - 1)) :=
    runMoves_only fun m hm file hfile => by
      obtain ⟨i, hi, rfl⟩ := names_of_mem_moves hm hfile
      exact h i hi
  simp only [rotate, hmoves]
  split
  · exact reopen_only (h 0 (Nat.zero_le _))
  · rfl

theorem reopen_eq (disk : Disk δ) (l : RotatingLog) (d : δ) : ∃ isOpen size,
    (l.reopen disk d).2.1 = ⟨l.name, l.maxFiles, l.maxSize, isOpen, size⟩ := by
  rw [reopen]
  cases disk.openEnd (fileName l.name 0) d with
  | ok found => exact ⟨true, found.1, rfl⟩
  | error e => exact ⟨l.isOpen, l.size, rfl⟩

theorem rotate_eq (disk : Disk δ) (l : RotatingLog) (d : δ) : ∃ isOpen size,
    (l.rotate disk d).2.1 = ⟨l.name, l.maxFiles, l.maxSize, isOpen, size⟩ := by
  rw [rotate]
  rcases runMoves disk d (moves l.name (l.maxFiles - 1)) with ⟨e | ⟨⟩, d'⟩
  · exact ⟨false, l.size, rfl⟩
  · exact reopen_eq disk { l with isOpen := false } d'

/-- A write uses no names but those of the files that are kept. -/
theorem write_only (h : ∀ i ≤ l.maxFiles - 1, fileName l.name i ∈ names) (bytes : ByteArray) :
    l.write (disk.only names) bytes d = l.write disk bytes d := by
  obtain ⟨isOpen, size, hrotated⟩ := rotate_eq disk l d
  rw [write, write, rotate_only h, put_only (h 0 (Nat.zero_le _))]
  rcases hrotate : l.rotate disk d with ⟨e | ⟨⟩, l', d'⟩
  · rfl
  · rw [hrotate] at hrotated
    have hlog : l' = ⟨l.name, l.maxFiles, l.maxSize, isOpen, size⟩ := hrotated
    have hcurrent : fileName l'.name 0 ∈ names := by
      rw [hlog]
      exact h 0 (Nat.zero_le _)
    simp only [put_only hcurrent]

/-- Neither does opening a log. -/
theorem start_only {name : String} {maxFiles : Nat} (maxSize : Nat)
    (h : ∀ i ≤ maxFiles - 1, fileName name i ∈ names) :
    start (disk.only names) name maxFiles maxSize d = start disk name maxFiles maxSize d := by
  let l : RotatingLog := ⟨name, maxFiles, maxSize, false, 0⟩
  obtain ⟨isOpen, size, hreopened⟩ := reopen_eq disk l d
  rw [start, start, reopen_only (h 0 (Nat.zero_le _))]
  rcases hreopen : l.reopen disk d with ⟨e | ⟨⟩, l', d'⟩
  · rfl
  · rw [hreopen] at hreopened
    have hlog : l' = ⟨name, maxFiles, maxSize, isOpen, size⟩ := hreopened
    have hfiles : ∀ i ≤ l'.maxFiles - 1, fileName l'.name i ∈ names := by
      rw [hlog]
      exact h
    simp only [rotate_only hfiles]

end

end RotatingLog

end CheckWorker
