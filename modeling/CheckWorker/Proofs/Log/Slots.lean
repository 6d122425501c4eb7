import CheckWorker.Proofs.FileSystem.Entries
import CheckWorker.Proofs.Log.Names
import Mathlib.Logic.Function.Basic

/-!
# The files of a log

A log owns as many files in a directory as it may keep, numbered from the current one at zero. Each
thing that a log does to the disk changes their contents as its name says, if the path still leads
to the directory afterwards. Elsewhere it changes nothing.
-/

namespace CheckWorker

open FileTree (SameOutside Leads Fits)

/-- The bytes of a file; a directory has none. -/
def Node.bytes? : Node → Option (List UInt8)
  | .directory => none
  | .file bytes => some bytes.data.toList
  | .program => some []

/-- Where a log is kept and how much of it. -/
structure LogSite where
  directory : FilePath
  appName : String
  maxFiles : Nat
  maxSize : Nat

namespace LogSite

open RotatingLog (Move)

/-- The number of files that are kept, with the current one, which there is always. -/
def slots (site : LogSite) : Nat :=
  max site.maxFiles 1

def name (site : LogSite) : String :=
  RotatingLog.cleanName site.appName

def fileName (site : LogSite) (i : Nat) : String :=
  RotatingLog.fileName site.name i

def path (site : LogSite) (i : Nat) : FilePath :=
  site.directory.join (site.fileName i)

def disk (site : LogSite) : Disk FileTree :=
  FileTree.disk site.directory

/-- The bytes in the file with a number. -/
def content? (site : LogSite) (files : FileTree) (i : Nat) : Option (List UInt8) :=
  (files.read (site.path i)).toOption.map fun bytes => bytes.data.toList

/-- Locations at or below one of the log's own files, seen from the working directory `here`. -/
def Owned (site : LogSite) (here l : Location) : Prop :=
  ∃ i < site.slots, site.fileName i :: site.directory.place here <:+ l

variable {site : LogSite} {t t' t'' : FileTree} {i j : Nat} {l : Location}

theorem isName_fileName (site : LogSite) (i : Nat) : FilePath.IsName (site.fileName i) :=
  RotatingLog.isName_fileName (RotatingLog.slash_notMem_cleanName _) i

theorem fileName_ne (h : i ≠ j) : site.fileName i ≠ site.fileName j :=
  (RotatingLog.fileName_injective site.name).ne h

theorem owned_of_leads (hl : t.Leads site.directory l) (hi : i < site.slots) {m : Location}
    (h : site.fileName i :: l <:+ m) : site.Owned t.here m :=
  ⟨i, hi, hl.eq_place ▸ h⟩

/-! ## Contents -/

theorem content?_eq (site : LogSite) (t : FileTree) (i : Nat) :
    site.content? t i = (t.child? site.directory (site.fileName i)).bind Node.bytes? := by
  rw [content?, FileTree.read, FileTree.child?, path]
  rcases t.find (site.directory.join (site.fileName i)) with e | ⟨m, _ | bytes | _⟩ <;> rfl

theorem content?_of_leads (hl : t.Leads site.directory l)
    (hfits : Fits site.directory (site.fileName i)) :
    site.content? t i = (t.node? (site.fileName i :: l)).bind Node.bytes? := by
  rw [content?_eq, FileTree.child?_of_leads (isName_fileName site i) hl hfits]

theorem content?_congr (hl : t.Leads site.directory l) (hl' : t'.Leads site.directory l)
    (h : t'.node? (site.fileName i :: l) = t.node? (site.fileName i :: l)) :
    site.content? t' i = site.content? t i := by
  rw [content?_eq, content?_eq, FileTree.child?_congr (isName_fileName site i) hl hl' h]

theorem content?_of_not_holds (h : site.disk.holds (site.fileName i) t = false) :
    site.content? t i = none := by
  have hchild : (t.child? site.directory (site.fileName i)).isSome = false := by
    rw [← FileTree.isThere_join]
    exact h
  rw [content?_eq, Option.isSome_eq_false_iff.mp hchild |> Option.isNone_iff_eq_none.mp]
  rfl

/-! ## Changes -/

/-- The path of the directory leads to it. -/
def Stands (site : LogSite) (t : FileTree) : Prop :=
  ∃ l, t.Leads site.directory l

/-- The contents of the files become what is told, and elsewhere nothing is changed. -/
structure Becomes (site : LogSite) (contents : Nat → Option (List UInt8)) (t t' : FileTree) :
    Prop where
  content : site.content? t' = contents
  same : SameOutside (site.Owned t.here) t t'

theorem Becomes.refl (site : LogSite) (t : FileTree) : site.Becomes (site.content? t) t t :=
  ⟨rfl, .refl _ t⟩

theorem Becomes.trans {c c' : Nat → Option (List UInt8)} (h : site.Becomes c t t')
    (h' : site.Becomes c' t' t'') : site.Becomes c' t t'' where
  content := h'.content
  same := h.same.trans (h.same.here ▸ h'.same)

/-- One file is changed. -/
theorem becomes_update (hl : t.Leads site.directory l) (hl' : t'.Leads site.directory l)
    (hi : i < site.slots) (hfits : Fits site.directory (site.fileName i))
    (hsame : SameOutside (· = site.fileName i :: l) t t') :
    site.Becomes (Function.update (site.content? t) i
      ((t'.node? (site.fileName i :: l)).bind Node.bytes?)) t t' where
  content := by
    funext j
    by_cases hj : j = i
    · subst hj
      rw [Function.update_self, content?_of_leads hl' hfits]
    · rw [Function.update_of_ne hj]
      refine content?_congr hl hl' (hsame.node _ fun heq => ?_)
      exact fileName_ne hj (List.cons.inj heq).1
  same := by
    refine hsame.mono ?_
    rintro _ rfl
    exact owned_of_leads hl hi List.suffix_rfl

theorem becomes_put (hl : t.Leads site.directory l) (hi : i < site.slots)
    (hfits : Fits site.directory (site.fileName i))
    (hfree : t.node? (site.fileName i :: l) ≠ some .directory) (bytes : ByteArray) :
    site.Becomes (Function.update (site.content? t) i (some bytes.data.toList)) t
      (t.put (site.fileName i :: l) (.file bytes)) := by
  have hupdate := becomes_update hl (hl.put hfree (.file bytes)) hi hfits
    (FileTree.sameOutside_put t _ _)
  rwa [FileTree.node?_put_same t (List.cons_ne_nil _ _)] at hupdate

/-! ## Steps -/

theorem becomes_discard (hi : i < site.slots)
    (hok : (Move.discard (site.fileName i)).run site.disk t = .ok t') :
    site.Becomes (Function.update (site.content? t) i none) t t' := by
  simp only [Move.run] at hok
  split at hok
  · obtain ⟨hfits, l, hl, hfree, rfl⟩ := FileTree.removeFile_join (isName_fileName site i) hok
    have hupdate := becomes_update hl (hl.erase hfree) hi hfits (FileTree.sameOutside_erase t _)
    rw [FileTree.node?_erase_same t (List.cons_ne_nil _ _)] at hupdate
    exact hupdate
  · next hholds =>
      cases hok
      rw [← content?_of_not_holds (by simpa using hholds), Function.update_eq_self]
      exact .refl site t

theorem stands_of_shift (hstands : site.Stands t')
    (hok : (Move.shift (site.fileName i) (site.fileName (i + 1))).run site.disk t = .ok t') :
    site.Stands t := by
  simp only [Move.run] at hok
  split at hok
  · obtain ⟨-, -, l, hl, -⟩ := FileTree.rename_join (isName_fileName site i)
      (isName_fileName site (i + 1)) (fileName_ne (Nat.ne_add_one i)) hok
    exact ⟨l, hl⟩
  · cases hok
    exact hstands

/-- One file takes the number of the next, if that is free. -/
theorem becomes_shift (hi : i + 1 < site.slots) (hfree : site.content? t (i + 1) = none)
    (hstands : site.Stands t')
    (hok : (Move.shift (site.fileName i) (site.fileName (i + 1))).run site.disk t = .ok t') :
    site.Becomes
      (Function.update (Function.update (site.content? t) (i + 1) (site.content? t i)) i none)
      t t' := by
  simp only [Move.run] at hok
  split at hok
  · -- what was moved may be a directory, and the path of the log's directory may lead through it
    have hne : site.fileName i ≠ site.fileName (i + 1) := fileName_ne (Nat.ne_add_one i)
    obtain ⟨hfits, hfits', l, hl, rfl⟩ := FileTree.rename_join (isName_fileName site i)
      (isName_fileName site (i + 1)) hne hok
    have hapart := FileTree.apart_cons hne l
    have hsame := FileTree.sameOutside_move t (site.fileName i :: l) (site.fileName (i + 1) :: l)
    obtain ⟨l', hl'⟩ := hstands
    obtain rfl := hsame.leads hl hl'
    refine ⟨?_, hsame.mono ?_⟩
    · funext j
      by_cases hj : j = i
      · subst hj
        rw [Function.update_self, content?_of_leads hl' hfits,
          FileTree.node?_move_source t hapart]
        rfl
      rw [Function.update_of_ne hj]
      by_cases hj' : j = i + 1
      · subst hj'
        rw [Function.update_self, content?_of_leads hl' hfits', content?_of_leads hl hfits,
          FileTree.node?_move_dest t hapart]
      · rw [Function.update_of_ne hj']
        exact content?_congr hl hl' (FileTree.node?_move_other t
          (FileTree.not_suffix_cons (fileName_ne (Ne.symm hj)) l')
          (FileTree.not_suffix_cons (fileName_ne (Ne.symm hj')) l'))
    · rintro m (hm | hm)
      · exact owned_of_leads hl (Nat.lt_of_succ_lt hi) hm
      · exact owned_of_leads hl hi hm
  · next hholds =>
      cases hok
      have hnone : site.content? t i = none := content?_of_not_holds (by simpa using hholds)
      have hsource : Function.update (site.content? t) i none = site.content? t := by
        rw [← hnone, Function.update_eq_self]
      have hdest : Function.update (site.content? t) (i + 1) none = site.content? t := by
        rw [← hfree, Function.update_eq_self]
      rw [hnone, hdest, hsource]
      exact .refl site t

theorem slots_pos (site : LogSite) : 0 < site.slots :=
  Nat.lt_of_lt_of_le Nat.one_pos (Nat.le_max_right _ _)

theorem becomes_clear (hok : (Move.clear (site.fileName 0)).run site.disk t = .ok t') :
    site.Becomes (Function.update (site.content? t) 0 (some [])) t t' := by
  obtain ⟨hfits, l, hl, hfree, rfl⟩ :=
    (FileTree.write_join_eq_ok_iff (isName_fileName site 0)).mp hok
  exact becomes_put hl site.slots_pos hfits hfree ByteArray.empty

theorem toList_bytesAt (t : FileTree) (m : Location) :
    (t.bytesAt m).data.toList = ((t.node? m).bind Node.bytes?).getD [] := by
  rw [FileTree.bytesAt]
  rcases t.node? m with _ | _ | bytes | _ <;> rfl

theorem becomes_openEnd {size : Nat}
    (hok : site.disk.openEnd (site.fileName 0) t = .ok (size, t')) :
    site.Stands t ∧ size = ((site.content? t 0).getD []).length ∧
      site.Becomes (Function.update (site.content? t) 0 (some ((site.content? t 0).getD [])))
        t t' := by
  obtain ⟨hfits, l, hl, hfree, hsize, hopen⟩ :=
    FileTree.openAppend_join (isName_fileName site 0) hok
  have hcontent := content?_of_leads hl hfits
  have hlength : size = ((site.content? t 0).getD []).length := by
    rw [hcontent, ← toList_bytesAt, hsize]
    rfl
  rcases hopen with ⟨hthere, rfl⟩ | ⟨hnone, rfl⟩
  · have hsome : some ((site.content? t' 0).getD []) = site.content? t' 0 := by
      rw [hcontent]
      rcases hn : t'.node? (site.fileName 0 :: l) with _ | _ | bytes | _ <;>
        first | exact absurd hn hthere | exact absurd hn hfree | rfl
    rw [hsome, Function.update_eq_self]
    exact ⟨⟨l, hl⟩, hlength, .refl site t'⟩
  · have hempty : (site.content? t 0).getD [] = [] := by
      rw [hcontent, hnone]
      rfl
    rw [hempty]
    exact ⟨⟨l, hl⟩, hempty ▸ hlength, becomes_put hl site.slots_pos hfits hfree ByteArray.empty⟩

theorem becomes_append {bytes : ByteArray}
    (hok : site.disk.append (site.fileName 0) bytes t = .ok t') :
    site.Becomes (Function.update (site.content? t) 0
      (some ((site.content? t 0).getD [] ++ bytes.data.toList))) t t' := by
  obtain ⟨hfits, l, hl, hfree, rfl⟩ := FileTree.append_join (isName_fileName site 0) hok
  have hput := becomes_put hl site.slots_pos hfits hfree
    (t.bytesAt (site.fileName 0 :: l) ++ bytes)
  rw [ByteArray.data_append, Array.toList_append, toList_bytesAt,
    ← content?_of_leads hl hfits] at hput
  exact hput

end LogSite

end CheckWorker
