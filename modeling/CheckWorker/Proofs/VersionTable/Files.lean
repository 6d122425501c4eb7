import CheckWorker.Proofs.Json.Forms
import CheckWorker.Proofs.Text.Utf8
import CheckWorker.VersionTable

/-!
# Table files

A table may be written with its keys in any order, with other keys among them, and with keys left
out. It is loaded as what was written, and each key that was left out as its standard. An entry may
be written in any order too, but both of its keys have to be there.
-/

namespace CheckWorker.VersionTable

open Json

/-- The ways to write an entry. -/
def entryForm (e : VersionEntry) : Form :=
  .record ["version", "artifact"] [("version", .text e.version), ("artifact", .text e.artifact)]

/-- The keys of a table, with the ways to write what belongs to each. -/
def members (t : VersionTable) : List (String × Form) :=
  [("entries", .array entryForm t.entries),
    ("pinned_auxiliary", .array .text t.pinnedAuxiliary),
    ("fallback_auxiliary", .array .text t.fallbackAuxiliary)]

/-- The keys of a table that are not left out. -/
def membersLeaving (t : VersionTable) (left : List String) : List (String × Form) :=
  t.members.filter fun m => m.1 ∉ left

/-- The ways to write a table, with some of its keys left out. -/
def form (t : VersionTable) (left : List String) : Form :=
  .record ["entries", "pinned_auxiliary", "fallback_auxiliary"] (t.membersLeaving left)

/-- A table with the standard for each key that is left out. -/
def leaving (t : VersionTable) (left : List String) : VersionTable where
  entries := if "entries" ∈ left then [] else t.entries
  pinnedAuxiliary := if "pinned_auxiliary" ∈ left then standardPinned else t.pinnedAuxiliary
  fallbackAuxiliary :=
    if "fallback_auxiliary" ∈ left then standardFallback else t.fallbackAuxiliary

/-- What belongs to a key, unless that is left out. -/
def kept {α : Type} (left : List String) (key : String) (a : α) : Option α :=
  if key ∈ left then none else some a

/-- The data of a table of which keys are left out. -/
def dataLeaving (t : VersionTable) (left : List String) : shape.Data :=
  (kept left "entries" (t.entries.map entryToData),
    kept left "pinned_auxiliary" t.pinnedAuxiliary,
    kept left "fallback_auxiliary" t.fallbackAuxiliary, ())

/-! ## Data of tables -/

theorem kept_eq_some_iff {α : Type} {left : List String} {key : String} {a b : α} :
    kept left key a = some b ↔ key ∉ left ∧ a = b := by
  unfold kept
  split <;> simp_all

theorem getD_kept {α : Type} (left : List String) (key : String) (a b : α) :
    (kept left key a).getD b = if key ∈ left then b else a := by
  unfold kept
  split <;> rfl

theorem not_mem_of_kept {α : Type} {left : List String} {key : String} {a : α}
    (h : kept left key a ≠ none) : key ∉ left := by
  intro hkey
  exact h (if_pos hkey)

theorem leaving_nil (t : VersionTable) : t.leaving [] = t := by
  simp [leaving]

theorem map_entryOfData (entries : List VersionEntry) :
    (entries.map entryToData).map entryOfData = entries := by
  rw [List.map_map]
  exact List.map_id entries

theorem ofData_dataLeaving (t : VersionTable) (left : List String) :
    ofData (t.dataLeaving left) = t.leaving left := by
  have hentries : ((kept left "entries" (t.entries.map entryToData)).getD []).map entryOfData =
      if "entries" ∈ left then [] else t.entries := by
    rw [getD_kept]
    split
    · rfl
    · exact map_entryOfData t.entries
  have hpinned := getD_kept left "pinned_auxiliary" t.pinnedAuxiliary standardPinned
  have hfallback := getD_kept left "fallback_auxiliary" t.fallbackAuxiliary standardFallback
  exact congr (congr (congrArg VersionTable.mk hentries) hpinned) hfallback

/-! ## Reading -/

theorem legible_entryShape : entryShape.Legible := by
  simp [entryShape, Shape.Legible, Fields.Legible, Fields.Apart, Fields.names]

theorem legible_shape : shape.Legible := by
  simp [shape, entryShape, Shape.Legible, Fields.Legible, Fields.Apart, Fields.names]

theorem readAs_entryForm (depth : Nat) (e : VersionEntry) :
    (entryForm e).ReadAs (entryShape.read (depth + 1)) (entryToData e) := by
  apply Form.readAs_record legible_entryShape
  · intro key hkey
    simpa [Fields.names, Fields.Strange] using hkey
  · intro m hm
    rcases List.mem_pair.mp hm with rfl | rfl
    · exact .inl ⟨rfl, Form.readAs_text _ e.version⟩
    · exact .inr (.inl ⟨rfl, Form.readAs_text _ e.artifact⟩)
  · show ["version", "artifact"].Nodup
    decide
  · intro d hd
    rcases List.mem_pair.mp hd with rfl | rfl
    · exact List.mem_cons_self
    · exact List.mem_cons_of_mem _ List.mem_cons_self

theorem readAs_entries (depth : Nat) (entries : List VersionEntry) :
    (Form.array entryForm entries).ReadAs (Shape.read (.many entryShape) (depth + 2))
      (entries.map entryToData) :=
  Form.readAs_many (readAs_entryForm depth) entries

theorem readAs_texts (depth : Nat) (texts : List String) :
    (Form.array .text texts).ReadAs (Shape.read (.many .text) (depth + 1)) texts := by
  have hread {read : List String} (hid : texts.map id = read) :
      (Form.array .text texts).ReadAs (Shape.read (.many .text) (depth + 1)) read := by
    subst hid
    exact Form.readAs_many (fun s => Form.readAs_text "a string" s) texts
  exact hread (List.map_id texts)

theorem nodup_keys (t : VersionTable) (left : List String) :
    ((t.membersLeaving left).map Prod.fst).Nodup := by
  have hkeys : (t.members.map Prod.fst).Nodup := by
    show ["entries", "pinned_auxiliary", "fallback_auxiliary"].Nodup
    decide
  exact hkeys.sublist (List.filter_sublist.map Prod.fst)

theorem mem_keys {t : VersionTable} {left : List String} {m : String × Form} (hm : m ∈ t.members)
    (hleft : m.1 ∉ left) : m.1 ∈ (t.membersLeaving left).map Prod.fst :=
  List.mem_map_of_mem (List.mem_filter.mpr ⟨hm, decide_eq_true hleft⟩)

theorem readAs_form (t : VersionTable) (left : List String) :
    (t.form left).ReadAs (shape.read depthLimit) (t.dataLeaving left) := by
  apply Form.readAs_record legible_shape
  · intro key hkey
    simpa [Fields.names, Fields.Strange] using hkey
  · intro m hm
    obtain ⟨hm, hleft⟩ := List.mem_filter.mp hm
    have hleft : m.1 ∉ left := of_decide_eq_true hleft
    simp only [members, List.mem_cons, List.not_mem_nil, or_false] at hm
    rcases hm with rfl | rfl | rfl
    · exact .inl ⟨rfl, _, kept_eq_some_iff.mpr ⟨hleft, rfl⟩, readAs_entries 124 t.entries⟩
    · exact .inr (.inl ⟨rfl, _, kept_eq_some_iff.mpr ⟨hleft, rfl⟩,
        readAs_texts 125 t.pinnedAuxiliary⟩)
    · exact .inr (.inr (.inl ⟨rfl, _, kept_eq_some_iff.mpr ⟨hleft, rfl⟩,
        readAs_texts 125 t.fallbackAuxiliary⟩))
  · exact nodup_keys t left
  · -- Only what was kept is among the data, and the member of its key was not left out either.
    intro e he
    rcases Fields.mem_entries_optional he with ⟨hkey, hkept⟩ | he
    · rw [hkey]
      exact mem_keys List.mem_cons_self (not_mem_of_kept hkept)
    rcases Fields.mem_entries_optional he with ⟨hkey, hkept⟩ | he
    · rw [hkey]
      exact mem_keys (List.mem_cons_of_mem _ List.mem_cons_self) (not_mem_of_kept hkept)
    rcases Fields.mem_entries_optional he with ⟨hkey, hkept⟩ | he
    · rw [hkey]
      exact mem_keys (List.mem_cons_of_mem _ (List.mem_cons_of_mem _ List.mem_cons_self))
        (not_mem_of_kept hkept)
    · exact absurd he List.not_mem_nil

theorem decode_of_whole {t : VersionTable} {left : List String} {text : String}
    (h : (t.form left).Whole text.toList) : decode text = .ok (t.leaving left) := by
  have hdata : shape.ofText text = .ok (t.dataLeaving left) :=
    Form.ofText_of_whole (readAs_form t left) h
  rw [decode, hdata, Except.map, ofData_dataLeaving]

/-! ## Writing -/

theorem prints_entryForm (e : VersionEntry) :
    (entryForm e).Prints (entryShape.print (entryToData e)) := by
  have hparts : ∀ part ∈ [("version", Form.text e.version, printText e.version),
      ("artifact", Form.text e.artifact, printText e.artifact)], part.2.1.Prints part.2.2 := by
    intro part hpart
    rcases List.mem_pair.mp hpart with rfl | rfl
    · exact quoted_printText e.version
    · exact quoted_printText e.artifact
  exact Form.prints_record (List.Perm.of_eq (List.append_nil _).symm) nofun
    (Form.prints_object hparts)

theorem prints_entries (entries : List VersionEntry) :
    (Form.array entryForm entries).Prints
      (Shape.print (.many entryShape) (entries.map entryToData)) := by
  have hprints : (Form.array entryForm entries).Prints
      (printArray (entries.map fun e => entryShape.print (entryToData e))) :=
    Form.prints_array fun e _ => prints_entryForm e
  simp only [Shape.print, List.map_map]
  exact hprints

theorem prints_texts (texts : List String) :
    (Form.array .text texts).Prints (Shape.print (.many .text) texts) :=
  Form.prints_array fun s _ => quoted_printText s

/-- The keys of a table, with how what belongs to each is printed. -/
def parts (t : VersionTable) : List (String × Form × List Char) :=
  [("entries", .array entryForm t.entries,
      Shape.print (.many entryShape) (t.entries.map entryToData)),
    ("pinned_auxiliary", .array .text t.pinnedAuxiliary,
      Shape.print (.many .text) t.pinnedAuxiliary),
    ("fallback_auxiliary", .array .text t.fallbackAuxiliary,
      Shape.print (.many .text) t.fallbackAuxiliary)]

theorem prints_of_mem_parts {t : VersionTable} {part : String × Form × List Char}
    (h : part ∈ parts t) : part.2.1.Prints part.2.2 := by
  simp only [parts, List.mem_cons, List.not_mem_nil, or_false] at h
  rcases h with rfl | rfl | rfl
  · exact prints_entries t.entries
  · exact prints_texts t.pinnedAuxiliary
  · exact prints_texts t.fallbackAuxiliary

theorem members_eq_map_parts (t : VersionTable) :
    t.members = t.parts.map fun part => (part.1, part.2.1) := rfl

/-- The parts of a table without those for the keys that are left out. -/
def partsLeaving (t : VersionTable) (left : List String) : List (String × Form × List Char) :=
  t.parts.filter fun part => part.1 ∉ left

/-- Other keys, each with any value, as parts of an object. -/
def strangers (others : List (String × Value)) : List (String × Form × List Char) :=
  others.map fun e => (e.1, .anything, e.2.print)

/-- A table may be printed with its keys in any order and with others among them. -/
theorem prints_form {t : VersionTable} {left : List String} {others : List (String × Value)}
    {parts : List (String × Form × List Char)}
    (hperm : parts.Perm (t.partsLeaving left ++ strangers others))
    (hothers : ∀ e ∈ others, e.1 ∉ ["entries", "pinned_auxiliary", "fallback_auxiliary"] ∧
      ∃ depth, e.2.Written depth) : (t.form left).Prints (Form.printParts parts) := by
  have hmembers : (parts.map fun part => (part.1, part.2.1)).Perm
      (t.membersLeaving left ++ others.map fun e => (e.1, Form.anything)) := by
    rw [membersLeaving, members_eq_map_parts, List.filter_map]
    have hmap := hperm.map fun part => (part.1, part.2.1)
    rw [List.map_append, strangers, List.map_map] at hmap
    exact hmap
  apply Form.prints_record hmembers
  · intro m hm
    obtain ⟨e, he, rfl⟩ := List.mem_map.mp hm
    exact ⟨(hothers e he).1, rfl⟩
  · apply Form.prints_object
    intro part hpart
    rcases List.mem_append.mp (hperm.mem_iff.mp hpart) with hpart | hpart
    · exact prints_of_mem_parts (List.mem_of_mem_filter hpart)
    · obtain ⟨e, he, rfl⟩ := List.mem_map.mp hpart
      obtain ⟨-, depth, hwritten⟩ := hothers e he
      exact Form.prints_anything hwritten

theorem whole_encode (t : VersionTable) : (t.form []).Whole t.encode.toList := by
  have hperm : t.parts.Perm (t.partsLeaving [] ++ strangers []) := by
    simp [partsLeaving, strangers]
  have hprints : (t.form []).Prints (Form.printParts t.parts) := prints_form hperm nofun
  rw [encode, Shape.toText, String.toList_ofList]
  exact hprints.whole

theorem decode_encode (t : VersionTable) : decode t.encode = .ok t := by
  rw [decode_of_whole t.whole_encode, leaving_nil]

/-! ## Loading -/

theorem readText_of_read {files : FileTree} {path : FilePath} {text : String}
    (h : files.read path = .ok text.toUTF8) : files.readText path = .ok text := by
  have hdecode : text.toUTF8.decode? = some text := Utf8.decode?_toUTF8 text
  simp only [FileTree.readText, h, bind, Except.bind, hdecode]
  rfl

/-- A table file is loaded as the table that is written in it, whatever the order of its keys and
whatever stands among them. A key that was left out is loaded as its standard, and only such a
key is. -/
theorem load_written {t : VersionTable} {left : List String} {files : FileTree} {path : FilePath}
    {text : String} (hwritten : (t.form left).Whole text.toList)
    (hfile : files.read path = .ok text.toUTF8) :
    load files path = .ok (t.leaving left) ∧ (left = [] → load files path = .ok t) := by
  have hload : load files path = .ok (t.leaving left) := by
    rw [load, readText_of_read hfile]
    simp only [decode_of_whole hwritten]
  refine ⟨hload, ?_⟩
  rintro rfl
  rw [hload, leaving_nil]

/-- An unknown key, the other keys in another order, and the pinned packages left out. -/
theorem load_out_of_order :
    let t : VersionTable := ⟨[⟨"1", "a"⟩], [], []⟩
    let text := "\x7b\"note\":[],\"fallback_auxiliary\":[],\"entries\":[" ++
      "\x7b\"version\":\"1\",\"artifact\":\"a\"\x7d]\x7d"
    let files : FileTree := ⟨[], [(["t"], .file text.toUTF8)]⟩
    (t.form ["pinned_auxiliary"]).Whole text.toList ∧ files.read ⟨"t"⟩ = .ok text.toUTF8 ∧
      load files ⟨"t"⟩ = .ok ⟨[⟨"1", "a"⟩], standardPinned, []⟩ := by
  intro t text files
  let parts := (t.partsLeaving ["pinned_auxiliary"] ++ strangers [("note", .array [])]).reverse
  have hothers : ∀ e ∈ [("note", Value.array [])],
      e.1 ∉ ["entries", "pinned_auxiliary", "fallback_auxiliary"] ∧ ∃ depth, e.2.Written depth := by
    intro e he
    rw [List.mem_singleton.mp he]
    exact ⟨by decide, 1, .array nofun⟩
  have hprints : (t.form ["pinned_auxiliary"]).Prints (Form.printParts parts) :=
    prints_form (List.reverse_perm _) hothers
  have htext : Form.printParts parts = text.toList := by decide +kernel
  have hwritten : (t.form ["pinned_auxiliary"]).Whole text.toList := htext ▸ hprints.whole
  have hfile : files.read ⟨"t"⟩ = .ok text.toUTF8 := rfl
  exact ⟨hwritten, hfile, (load_written hwritten hfile).1⟩

end CheckWorker.VersionTable
