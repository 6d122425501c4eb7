import CheckWorker.Proofs.Json.Forms

/-!
# What is written is read back

What is written for the data of a shape is read as that data, whatever ends it. This holds of
shapes in which data can be told from what is written for it: the words of a choice differ, the
fields of a record have names of their own, and nothing may be null or arbitrary.

What is written for data is one of the ways to write it, and a reader that reads them all reads it
back. A record is written with its entries as members.
-/

namespace CheckWorker.Json

/-- A reader takes what is written for data, up to what ends it, and gives back the data. -/
def ReadsBack {α : Type} (reader : Reader α) (print : α → List Char) : Prop :=
  ∀ (a : α) {text rest : List Char}, Gap text (print a ++ rest) → Ends rest →
    reader text = .ok (a, rest)

/-- Data is read back if what is written for it has a form that is read as it. -/
theorem readsBack_of_forms {α : Type} {reader : Reader α} {print : α → List Char} (form : α → Form)
    (hread : ∀ a, (form a).ReadAs reader a) (hprints : ∀ a, (form a).Prints (print a)) :
    ReadsBack reader print :=
  fun a _ rest hgap hends => hread a hgap (hprints a rest) hends

/-! ## Shapes without parts -/

theorem readsBack_text (expected : String) : ReadsBack (readText expected) printText :=
  readsBack_of_forms Form.text (Form.readAs_text expected) quoted_printText

theorem readsBack_flag : ReadsBack readFlag fun b => (Value.boolean b).print := by
  intro b text rest hgap _
  have hwritten : Value.Written 0 (.boolean b) := .boolean b
  have hspells := hwritten.spells rest
  rw [← toOption_eq_some_iff, toOption_readFlag hgap hspells]
  rfl

theorem readsBack_whole (width : Width) :
    ReadsBack (readWhole? width) fun n => printWhole (width.toInt n) := by
  intro n text rest hgap hrest
  obtain ⟨hlow, hhigh⟩ := width.toInt_range n
  have hwritten : Value.Written 0 (.number (.whole (width.toInt n))) := written_whole hlow hhigh
  have hspells := hwritten.spells rest
  have hvalue : width.ofNumber (.whole (width.toInt n)) = .ok n := by
    simp [Width.ofNumber, width.ofInt?_toInt]
  rw [← toOption_eq_some_iff]
  refine (toOption_readWhole? width hgap hspells hrest).trans ?_
  simp [Value.number?, hvalue]

theorem wordIndex?_get {words : List String} (h : words.Nodup) (i : Fin words.length) :
    wordIndex? words (words.get i) = some i := by
  refine List.finIdxOf?_eq_some_iff.mpr ⟨rfl, ?_⟩
  intro j hj hword
  have hji : j = i := List.nodup_iff_injective_get.mp h hword
  exact absurd (hji ▸ hj) (Fin.lt_irrefl i)

theorem readsBack_choice {words : List String} (h : words.Nodup) (depth : Nat) :
    ReadsBack (readChoice words depth) fun i => printText (words.get i) := by
  intro i text rest hgap hrest
  have hword : readWord words (printText (words.get i) ++ rest) = .ok (i, rest) := by
    simp only [readWord, readsBack_text _ _ (Gap.refl _) hrest, bind, Except.bind,
      wordIndex?_get h]
    rfl
  obtain ⟨chars, hchars, -⟩ := (quoted_printText (words.get i) rest).exists_chars
  rw [hchars] at hword hgap
  have hskip : skipSpace text = '"' :: chars := hgap.skipSpace_cons (by decide)
  simp only [readChoice, hskip, hword]

/-! ## Arrays and records -/

/-- A value as it is written, and nothing else that spells it. -/
def Printed (depth : Nat) (v : Value) (text rest : List Char) : Prop :=
  text = v.print ++ rest ∧ Spells depth v text rest

theorem takes_printed (depth : Nat) : Takes (Printed depth) :=
  fun hv => takes_spells depth hv.2

def Form.printed (depth : Nat) (v : Value) : Form where
  spells := Printed depth v
  starts h := h.2.starts
  length_lt h := takes_printed depth h

theorem Form.prints_printed {depth : Nat} {v : Value} (h : v.Written depth) :
    (printed depth v).Prints v.print :=
  fun rest => ⟨rfl, h.spells rest⟩

theorem ReadsBack.readAs {shape : Shape} {depth : Nat}
    (h : ReadsBack (shape.read depth) shape.print) (d : shape.Data) :
    (Form.printed depth (shape.value d)).ReadAs (shape.read depth) d := by
  rintro text core rest hgap ⟨rfl, -⟩ hends
  rw [shape.print_value] at hgap
  exact h d hgap hends

theorem readsBack_many {shape : Shape} {depth : Nat} (hfits : shape.Fits depth)
    (h : ReadsBack (shape.read depth) shape.print) :
    ReadsBack (readMany (depth + 1) shape.read) fun ds => printArray (ds.map shape.print) := by
  apply readsBack_of_forms (Form.array fun d => Form.printed depth (shape.value d))
  · intro ds
    have hread := Form.readAs_many h.readAs ds
    rwa [List.map_id'] at hread
  · intro ds
    apply Form.prints_array
    intro d _
    have hprints := Form.prints_printed (shape.written hfits d)
    rwa [shape.print_value] at hprints

/-- The entries that are written for a record, as its members. -/
def Fields.members (fields : Fields) (depth : Nat) (ds : fields.Data) : List (String × Form) :=
  (fields.entries ds).map fun e => (e.1, .printed depth e.2)

theorem Fields.map_fst_members (fields : Fields) (depth : Nat) (ds : fields.Data) :
    (fields.members depth ds).map Prod.fst = (fields.entries ds).map Prod.fst := by
  rw [members, List.map_map]
  rfl

theorem Fields.prints_members {fields : Fields} {depth : Nat} (hfits : fields.Fits depth)
    (ds : fields.Data) :
    (Form.object (fields.members depth ds)).Prints (printObject (fields.print ds)) := by
  let part (e : String × Value) : String × Form × List Char := (e.1, .printed depth e.2, e.2.print)
  have hparts : ∀ p ∈ (fields.entries ds).map part, p.2.1.Prints p.2.2 := by
    intro p hp
    obtain ⟨e, he, rfl⟩ := List.mem_map.mp hp
    exact Form.prints_printed (fields.written hfits ds e he)
  have hprints := Form.prints_object hparts
  rw [Form.printParts, List.map_map, List.map_map] at hprints
  rw [← fields.print_entries, printEntries_eq_map]
  exact hprints

theorem readsBack_record {name : String} {fields : Fields} {depth : Nat} (h : fields.Legible)
    (hfits : fields.Fits depth)
    (hgives : ∀ ds, ∀ e ∈ fields.entries ds, fields.Gives depth ds e.1 (.printed depth e.2)) :
    ReadsBack (Shape.read (.record name fields) (depth + 1))
      (Shape.print (.record name fields)) := by
  apply readsBack_of_forms fun ds => Form.object (fields.members depth ds)
  · intro ds
    apply Form.readAs_object h
    · intro m hm
      obtain ⟨e, he, rfl⟩ := List.mem_map.mp hm
      exact .inl (hgives ds e he)
    · rw [fields.map_fst_members]
      exact (fields.nodup_entries h ds).filter _
    · intro e he
      rw [fields.map_fst_members]
      exact List.mem_map_of_mem he
  · exact fields.prints_members hfits

mutual

/-- What is written for the data of a shape is read as that data. -/
theorem Shape.readsBack : (shape : Shape) → shape.Legible → ∀ {depth}, shape.Fits depth →
    ReadsBack (shape.read depth) shape.print
  | .text, _, _, _ => readsBack_text "a string"
  | .flag, _, _, _ => readsBack_flag
  | .whole width, _, _, _ => readsBack_whole width
  | .maybe _, h, _, _ => h.elim
  | .many shape, h, _ + 1, hfits => readsBack_many hfits (shape.readsBack h hfits)
  | .anything, h, _, _ => h.elim
  | .oneOf _, h, depth, _ => readsBack_choice h depth
  | .record _ fields, h, _ + 1, hfits => readsBack_record h hfits (fields.gives h hfits)

/-- What is written under a key is a way to write what the field of that name holds. -/
theorem Fields.gives : (fields : Fields) → fields.Legible → ∀ {depth}, fields.Fits depth →
    ∀ ds, ∀ e ∈ fields.entries ds, fields.Gives depth ds e.1 (.printed depth e.2)
  | .nil, _, _, _, _, _, he => absurd he List.not_mem_nil
  | .required _ _ shape rest, h, depth, hfits, (d, ds), e, he => by
      have hread := (shape.readsBack h.1 hfits.1).readAs d
      rcases List.mem_cons.mp he with rfl | he
      · exact .inl ⟨rfl, hread⟩
      · exact .inr (rest.gives h.2.2 hfits.2 ds e he)
  | .optional _ _ _ rest, h, _, hfits, (none, ds), e, he =>
      .inr (rest.gives h.2.2 hfits.2 ds e he)
  | .optional _ _ shape rest, h, depth, hfits, (some d, ds), e, he => by
      have hread := (shape.readsBack h.1 hfits.1).readAs d
      rcases List.mem_cons.mp he with rfl | he
      · exact .inl ⟨rfl, d, rfl, hread⟩
      · exact .inr (rest.gives h.2.2 hfits.2 ds e he)

end

theorem Shape.ofText_toText {shape : Shape} (h : shape.Legible) (hfits : shape.Fits depthLimit)
    (d : shape.Data) : shape.ofText (shape.toText d) = .ok d := by
  have hgap : Gap (shape.print d) (shape.print d ++ []) := by
    rw [List.append_nil]
    exact Gap.refl _
  have hread := shape.readsBack h hfits d hgap (Gap.refl []).ends_nil
  rw [ofText, toText, String.toList_ofList, readWhole, hread]
  rfl

/-! ## Tagged contents -/

section

variable {P : Value → List Char → List Char → Prop} {a b : String} {rounds : List Char}
  {first : Bool} {v : Value} {entries : List (String × Value)} {text rest : List Char}

theorem nextOf_of_nil (hrounds : rounds ≠ []) (h : Items '}' (Entry P) first [] text rest) :
    nextOf a b rounds first text = .ok (none, rest) := by
  obtain ⟨r, rounds, rfl⟩ := List.exists_cons_of_ne_nil hrounds
  rw [nextOf, nextKey_of_nil h]
  rfl

theorem nextOf_of_fst (hrounds : rounds ≠ [])
    (h : Items '}' (Entry P) first ((a, v) :: entries) text rest) :
    ∃ colon more, nextOf a b rounds first text = .ok (some true, colon) ∧ Keyed P v colon more ∧
      Items '}' (Entry P) false entries more rest := by
  obtain ⟨r, rounds, rfl⟩ := List.exists_cons_of_ne_nil hrounds
  obtain ⟨colon, more, hnext, hv, hmore⟩ := nextKey_of_cons h
  refine ⟨colon, more, ?_, hv, hmore⟩
  simp [nextOf, hnext, bind, Except.bind, pure, Except.pure]

theorem nextOf_of_snd (hab : b ≠ a) (hrounds : rounds ≠ [])
    (h : Items '}' (Entry P) first ((b, v) :: entries) text rest) :
    ∃ colon more, nextOf a b rounds first text = .ok (some false, colon) ∧ Keyed P v colon more ∧
      Items '}' (Entry P) false entries more rest := by
  obtain ⟨r, rounds, rfl⟩ := List.exists_cons_of_ne_nil hrounds
  obtain ⟨colon, more, hnext, hv, hmore⟩ := nextKey_of_cons h
  refine ⟨colon, more, ?_, hv, hmore⟩
  simp [nextOf, hnext, hab, bind, Except.bind, pure, Except.pure]

end

namespace Tagging

variable {κ : Type} {t : Tagging κ}

/-- Kinds can be told apart by their words, and what they hold can be told from what is written. -/
structure Legible (t : Tagging κ) : Prop where
  key_ne : t.contentKey ≠ t.tagKey
  mem_kinds : ∀ k, k ∈ t.kinds
  words_nodup : t.words.Nodup
  content : ∀ k, ∀ shape ∈ t.content k, shape.Legible ∧ shape.Fits 126

theorem readsBack_tag (h : t.Legible) (depth : Nat) :
    ReadsBack (t.readTag depth) fun k => printText (t.word k) := by
  intro k text rest hgap hends
  obtain ⟨i, hi⟩ := List.get_of_mem (h.mem_kinds k)
  let j : Fin t.words.length := i.cast (List.length_map t.word).symm
  have hkind : t.kindAt j = k := hi
  have hword : t.words.get j = t.word k := by
    simp [j, words, ← hi]
  have hgap' : Gap text (printText (t.words.get j) ++ rest) := by
    rw [hword]
    exact hgap
  have hread := readsBack_choice h.words_nodup depth j hgap' hends
  rw [readTag, hread]
  simp [Except.map, hkind]

variable (t) in
/-- Reads what follows a tag: the content that goes with it, if any does. -/
def readRest (depth : Nat) (expected : String) (o : Option Shape) (data : contentData o → t.Data) :
    Reader t.Data := fun text => do
  let (part, text) ← t.nextPart false text
  match part with
  | some true => throw (.before (.duplicate t.tagKey) (afterObject text))
  | some false =>
      let (d, text) ← readContent expected depth o (← takeColon text)
      t.closeParts (data d) text
  | none => place text ((noContent t.contentKey o).map data)

theorem nextPart_of_nil {P : Value → List Char → List Char → Prop} (hP : Takes P)
    {text rest : List Char} (hitems : Items '}' (Entry P) false [] text rest) :
    t.nextPart false text = .ok (none, rest) := by
  have hlt := hitems.length_lt hP.entry
  exact nextOf_of_nil (List.ne_nil_of_length_pos (by omega)) hitems

theorem closeParts_eq {P : Value → List Char → List Char → Prop} (hP : Takes P) (d : t.Data)
    {text rest : List Char} (hitems : Items '}' (Entry P) false [] text rest) :
    t.closeParts d text = .ok (d, rest) := by
  rw [closeParts, nextPart_of_nil hP hitems]
  rfl

/-- The content behind its key is read, and nothing follows it. -/
theorem readRest_some (h : t.Legible) {depth : Nat} {expected : String} {shape : Shape}
    (hlegible : shape.Legible) (hfits : shape.Fits depth) (d : shape.Data)
    (data : shape.Data → t.Data) {text rest : List Char}
    (hitems : Items '}' (Entry (Printed depth)) false [(t.contentKey, shape.value d)] text rest) :
    t.readRest depth expected (some shape) data text = .ok (data d, rest) := by
  have htakes : Takes (Printed depth) := takes_printed depth
  have hlt := hitems.length_lt htakes.entry
  obtain ⟨colon, more, hnext, hkeyed, hmore⟩ := nextOf_of_snd h.key_ne
    (List.ne_nil_of_length_pos (l := text) (by omega)) hitems
  obtain ⟨behind, core, hcolon, hgap, rfl, -⟩ := hkeyed.takeColon_eq
  rw [shape.print_value] at hgap
  have hpart : t.nextPart false text = .ok (some false, colon) := hnext
  have hread : readContent expected depth (some shape) behind = .ok (d, more) :=
    shape.readsBack hlegible hfits d hgap (hmore.ends (.inr rfl))
  have hclose := closeParts_eq htakes (data d) hmore
  simp only [readRest, hpart, hcolon, bind, Except.bind]
  rw [hread]
  exact hclose

theorem readRest_eq (h : t.Legible) {depth : Nat} {expected : String} : {o : Option Shape} →
    (∀ shape ∈ o, shape.Legible ∧ shape.Fits depth) → (d : contentData o) →
    (data : contentData o → t.Data) → {text rest : List Char} →
    Items '}' (Entry (Printed depth)) false (t.contentEntry o d) text rest →
    t.readRest depth expected o data text = .ok (data d, rest)
  | none, _, d, data, text, rest, hitems => by
      rw [readRest, nextPart_of_nil (takes_printed depth) hitems]
      rfl
  | some shape, ho, d, data, _, _, hitems =>
      readRest_some h (ho shape rfl).1 (ho shape rfl).2 d data hitems

theorem readTagFirst_eq (depth : Nat) (text : List Char) :
    t.readTagFirst depth text = (do
      let (k, text) ← t.readTag depth (← takeColon text)
      t.readRest depth (t.unitName k) (t.content k) (fun d => ⟨k, d⟩) text) := rfl

theorem items_printEntries {depth : Nat} {entries : List (String × Value)}
    (h : ∀ e ∈ entries, e.2.Written depth) (rest : List Char) :
    Items '}' (Entry (Printed depth)) true entries
      (printList (printEntries entries) ++ '}' :: rest) rest := by
  rw [printEntries_eq_map]
  refine items_printList (fun e he behind => ?_) rest
  rw [printEntry, List.append_assoc]
  exact entry_printText ⟨rfl, (h e he).spells behind⟩ e.1

/-- The entries of tagged data, as they are written. -/
theorem items_print (h : t.Legible) (d : t.Data) (rest : List Char) :
    ∃ entries : List Char, t.print d ++ rest = '{' :: entries ∧
      Items '}' (Entry (Printed 126)) true
        ((t.tagKey, .text (t.word d.1)) :: t.contentEntry (t.content d.1) d.2) entries rest := by
  refine ⟨_, ?_, items_printEntries (written_cons (.text _) (t.written_contentEntry _
    (fun shape hshape => (h.content d.1 shape hshape).2) d.2)) rest⟩
  rw [← t.print_value]
  simp [value, Value.print, printObject]

/-- What is written for tagged data is read as that data. -/
theorem readsBack (h : t.Legible) : ReadsBack (t.read depthLimit) t.print := by
  intro d text rest hgap _
  obtain ⟨entries, hprint, hitems⟩ := items_print h d rest
  have hskip := (hprint ▸ hgap).skipSpace_cons (by decide)
  have hlt := hitems.length_lt (Takes.entry (takes_printed 126))
  obtain ⟨colon, more, hnext, hkeyed, hmore⟩ := nextOf_of_fst (b := t.contentKey)
    (List.ne_nil_of_length_pos (l := entries) (by omega)) hitems
  obtain ⟨behind, core, hcolon, hgap', rfl, -⟩ := hkeyed.takeColon_eq
  have hpart : t.nextPart true entries = .ok (some true, colon) := hnext
  have htag := readsBack_tag h 126 d.1 hgap' (hmore.ends (.inr rfl))
  have hrest : t.readRest 126 (t.unitName d.1) (t.content d.1) (fun content => ⟨d.1, content⟩)
      more = .ok (d, rest) :=
    readRest_eq h (h.content d.1) d.2 _ hmore
  have hinside : t.read depthLimit text = t.readTagFirst 126 colon := by
    simp only [read, hskip]
    simp [openBracket, depthLimit, hpart, bind, Except.bind]
  rw [hinside, readTagFirst_eq]
  simp only [hcolon, htag, bind, Except.bind]
  exact hrest

theorem ofText_toText (h : t.Legible) (d : t.Data) : t.ofText (t.toText d) = .ok d := by
  have hgap : Gap (t.print d) (t.print d ++ []) := by
    rw [List.append_nil]
    exact Gap.refl _
  have hread := readsBack h d hgap (Gap.refl []).ends_nil
  rw [ofText, toText, String.toList_ofList, readWhole, hread]
  rfl

end Tagging

end CheckWorker.Json
