import CheckWorker.Proofs.Json.Passing
import CheckWorker.Proofs.Json.Slots

/-!
# Forms

Data may be written in many ways: with blanks anywhere, with any escapes, with the fields of a
record in any order and others among them that no reader knows. A form is the set of all texts that
count as one way to write something, and a reader reads a form as some data if it reads every one of
these texts as that data.

A record is read member by member, and a reader of a record reads every way to write it if it reads
the ways to write its fields.
-/

namespace CheckWorker.Json

/-- The texts that begin with one of the ways to write something, and what they leave. -/
structure Form where
  spells : List Char → List Char → Prop
  starts : ∀ {text rest}, spells text rest → Starts text
  length_lt : ∀ {text rest}, spells text rest → rest.length < text.length

/-- A key, a colon and one of the texts of a form. -/
inductive Member : String × Form → List Char → List Char → Prop
  | mk {k : String} {F : Form} {text colon behind core rest : List Char} :
      Quoted k text colon → Gap colon (':' :: behind) → Gap behind core → F.spells core rest →
        Member (k, F) text rest

/-- What stands behind the key of a member. -/
def Member.Behind (m : String × Form) (colon rest : List Char) : Prop :=
  ∃ behind core, takeColon colon = .ok behind ∧ Gap behind core ∧ m.2.spells core rest

theorem Member.exists_behind {m : String × Form} {text rest : List Char} (h : Member m text rest) :
    ∃ colon, Quoted m.1 text colon ∧ Member.Behind m colon rest := by
  cases h with
  | mk hk hcolon hgap hF => exact ⟨_, hk, _, _, takeColon_of_gap hcolon, hgap, hF⟩

theorem Member.length_lt {m : String × Form} {text rest : List Char} (h : Member m text rest) :
    rest.length < text.length := by
  cases h with
  | @mk k F text colon behind core rest hk hcolon hgap hF =>
      have hlt := hk.length_lt
      have hlen := hcolon.length_le
      have hle := hgap.length_le
      have hvalue := F.length_lt hF
      simp only [List.length_cons] at hlen
      omega

namespace Form

def text (s : String) : Form where
  spells := Quoted s
  starts := Quoted.starts
  length_lt := Quoted.length_lt

/-- Anything in the form of a value. -/
def anything : Form where
  spells text rest := ∃ depth, WellFormed depth text rest
  starts := by
    rintro text rest ⟨depth, h⟩
    exact h.starts
  length_lt := by
    rintro text rest ⟨depth, h⟩
    exact h.length_lt

/-- Items between brackets, each in its form. -/
def array {α : Type} (form : α → Form) (as : List α) : Form where
  spells text rest :=
    ∃ body, text = '[' :: body ∧ Items ']' (fun a => (form a).spells) true as body rest
  starts := by
    rintro text rest ⟨body, rfl, -⟩
    exact ⟨_, _, rfl, by decide⟩
  length_lt := by
    rintro text rest ⟨body, rfl, h⟩
    have hlt := h.length_lt fun {a} {_} {_} ha => (form a).length_lt ha
    simp only [List.length_cons]
    omega

/-- Members between braces, in this order. -/
def object (members : List (String × Form)) : Form where
  spells text rest := ∃ body, text = '{' :: body ∧ Items '}' Member true members body rest
  starts := by
    rintro text rest ⟨body, rfl, -⟩
    exact ⟨_, _, rfl, by decide⟩
  length_lt := by
    rintro text rest ⟨body, rfl, h⟩
    have hlt := h.length_lt Member.length_lt
    simp only [List.length_cons]
    omega

/-- Members between braces, in any order and with any others among them whose keys are not among
`names`. -/
def record (names : List String) (given : List (String × Form)) : Form where
  spells text rest := ∃ members others, members.Perm (given ++ others) ∧
    (∀ m ∈ others, m.1 ∉ names ∧ m.2 = anything) ∧ (object members).spells text rest
  starts := by
    rintro text rest ⟨members, others, -, -, h⟩
    exact (object members).starts h
  length_lt := by
    rintro text rest ⟨members, others, -, -, h⟩
    exact (object members).length_lt h

/-- The whole of a text is in the form, with nothing else but blanks. -/
def Whole (F : Form) (text : List Char) : Prop :=
  ∃ core behind, Gap text core ∧ F.spells core behind ∧ Gap behind []

/-- A reader takes everything in the form as some data, up to what ends it. -/
def ReadAs {α : Type} (F : Form) (reader : Reader α) (a : α) : Prop :=
  ∀ ⦃text core rest⦄, Gap text core → F.spells core rest → Ends rest → reader text = .ok (a, rest)

/-! ## Texts and arrays -/

theorem readAs_text (expected s : String) : (text s).ReadAs (readText expected) s := by
  intro text core rest hgap h _
  have hspells : Spells 0 (.text s) core rest := Scalar.text h
  rw [← toOption_eq_some_iff, toOption_readText expected hgap hspells]
  rfl

theorem readAs_many {α β : Type} {form : α → Form} {reader : Nat → Reader β} {data : α → β}
    {depth : Nat} (h : ∀ a, (form a).ReadAs (reader depth) (data a)) (as : List α) :
    (array form as).ReadAs (readMany (depth + 1) reader) (as.map data) := by
  rintro text _ rest hgap ⟨body, rfl, hitems⟩ _
  have hskip : skipSpace text = '[' :: body := hgap.skipSpace_cons (by decide)
  have hlt := hitems.length_lt fun {a} {_} {_} ha => (form a).length_lt ha
  rw [← toOption_eq_some_iff]
  simp only [readMany, hskip, openBracket]
  rw [toOption_bind, toOption_foldItems (P := fun a => (form a).spells)
    (fun done a => some (data a :: done)) _ _ hitems (by omega),
    ← List.foldlM_map (g := fun done a => some (a :: done)), foldlM_cons_eq]
  · simp [pure, Except.pure]
  · intro a text rest ha
    exact (form a).starts ha
  · intro a text rest ha hends done
    simp [h a (Gap.refl _) ha hends, bind, Except.bind, pure, Except.pure]

end Form

/-! ## Members of a record -/

namespace Fields

/-- A form under a key is a way to write what a record holds in the field of that name. -/
def Gives (depth : Nat) : (fields : Fields) → fields.Data → (key : String) → Form → Prop
  | .nil, _, _, _ => False
  | .required name _ shape rest, (d, ds), key, F =>
      key = name ∧ F.ReadAs (shape.read depth) d ∨ rest.Gives depth ds key F
  | .optional name _ shape rest, (d, ds), key, F =>
      key = name ∧ (∃ given ∈ d, F.ReadAs (shape.read depth) given) ∨ rest.Gives depth ds key F

/-- No field goes by a key, not by another name either. -/
def Strange (key : String) : Fields → Prop
  | .nil => True
  | .required name aliases _ rest => ¬ (key = name ∨ key ∈ aliases) ∧ rest.Strange key
  | .optional name aliases _ rest => ¬ (key = name ∨ key ∈ aliases) ∧ rest.Strange key

theorem Gives.mem_names {depth : Nat} {key : String} {F : Form} : {fields : Fields} →
    {ds : fields.Data} → fields.Gives depth ds key F → key ∈ fields.names
  | .required _ _ _ rest, (_, ds), h => by
      rcases h with ⟨rfl, -⟩ | h
      · exact List.mem_cons_self
      · exact List.mem_cons_of_mem _ (Gives.mem_names h)
  | .optional _ _ _ rest, (_, ds), h => by
      rcases h with ⟨rfl, -⟩ | h
      · exact List.mem_cons_self
      · exact List.mem_cons_of_mem _ (Gives.mem_names h)

theorem readSlot_of_strange {key : String} {depth : Nat} : (fields : Fields) → fields.Strange key →
    (slots : fields.Slots) → (colon : List Char) → fields.readSlot depth key slots colon = none
  | .nil, _, _, _ => rfl
  | .required name aliases shape rest, h, (slot, slots), colon => by
      rw [readSlot, if_neg h.1, rest.readSlot_of_strange h.2]
      rfl
  | .optional name aliases shape rest, h, (slot, slots), colon => by
      rw [readSlot, if_neg h.1, rest.readSlot_of_strange h.2]
      rfl

/-- What a record holds is read into its slot, whatever is in the others. -/
theorem readSlot_of_gives {depth : Nat} {m : String × Form} {colon rest : List Char}
    (hm : Member.Behind m colon rest) (hends : Ends rest) : (fields : Fields) → fields.Legible →
    {ds : fields.Data} → fields.Gives depth ds m.1 m.2 → (slots : fields.Slots) →
    (fields.readSlot depth m.1 slots colon).map Except.toOption =
      some ((fields.fill ds m.1 slots).map fun slots => (slots, rest))
  | .required name aliases shape others, hlegible, (d, ds), h, slots => by
      obtain ⟨behind, core, hcolon, hgap, hF⟩ := hm
      rcases h with ⟨hname, hread⟩ | h
      · refine (readField_of_named (.inl hname) hcolon (hread hgap hF hends) slots).trans ?_
        exact congrArg (fun x => some (Option.map _ x)) (if_pos hname).symm
      · have hother := hlegible.2.1 m.1 h.mem_names
        have ih := readSlot_of_gives ⟨behind, core, hcolon, hgap, hF⟩ hends others hlegible.2.2 h
          slots.2
        refine (readField_of_other hother ih).trans ?_
        exact congrArg (fun x => some (Option.map _ x))
          (if_neg fun hname => hother (.inl hname)).symm
  | .optional name aliases shape others, hlegible, (d, ds), h, slots => by
      obtain ⟨behind, core, hcolon, hgap, hF⟩ := hm
      rcases h with ⟨hname, given, hd, hread⟩ | h
      · obtain rfl : d = some given := hd
        refine (readField_of_named (.inl hname) hcolon (hread hgap hF hends) slots).trans ?_
        exact congrArg (fun x => some (Option.map _ x)) (if_pos hname).symm
      · have hother := hlegible.2.1 m.1 h.mem_names
        have ih := readSlot_of_gives ⟨behind, core, hcolon, hgap, hF⟩ hends others hlegible.2.2 h
          slots.2
        refine (readField_of_other hother ih).trans ?_
        exact congrArg (fun x => some (Option.map _ x))
          (if_neg fun hname => hother (.inl hname)).symm

/-! ## Records -/

/-- A member of a record: a way to write what a field holds, or anything under a key that no field
goes by. -/
def Admits (fields : Fields) (depth : Nat) (ds : fields.Data) (m : String × Form) : Prop :=
  fields.Gives depth ds m.1 m.2 ∨
    (m.1 ∉ fields.names ∧ fields.Strange m.1) ∧ m.2 = Form.anything

theorem toOption_readEntry_of_admits {fields : Fields} {depth : Nat} {ds : fields.Data}
    {m : String × Form} {colon rest : List Char} (hlegible : fields.Legible)
    (h : fields.Admits depth ds m) (hm : Member.Behind m colon rest) (hends : Ends rest)
    (slots : fields.Slots) :
    (readEntry fields depth m.1 slots colon).toOption =
      (fields.meet ds slots m.1).map fun slots => (slots, rest) := by
  rcases h with h | ⟨⟨hname, hstrange⟩, hF⟩
  · obtain ⟨result, hresult, hfilled⟩ :=
      Option.map_eq_some_iff.mp (readSlot_of_gives hm hends fields hlegible h slots)
    rw [readEntry, hresult, meet, if_pos h.mem_names]
    exact hfilled
  · obtain ⟨behind, core, hcolon, hgap, hspells⟩ := hm
    rw [hF] at hspells
    obtain ⟨depth', hwell⟩ := hspells
    have hskip := skipValue_of_wellFormed hwell hgap hends
    rw [readEntry, fields.readSlot_of_strange hstrange, meet, if_neg hname]
    simp [hcolon, hskip, bind, Except.bind, pure, Except.pure]

end Fields

namespace Form

/-- A record is read whatever the order of its members and whatever stands among them. -/
theorem readAs_object {name : String} {fields : Fields} {depth : Nat} {ds : fields.Data}
    {members : List (String × Form)} (hlegible : fields.Legible)
    (hmembers : ∀ m ∈ members, fields.Admits depth ds m)
    (honce : ((members.map Prod.fst).filter (· ∈ fields.names)).Nodup)
    (hall : ∀ e ∈ fields.entries ds, e.1 ∈ members.map Prod.fst) :
    (object members).ReadAs (Shape.read (.record name fields) (depth + 1)) ds := by
  rintro text _ rest hgap ⟨body, rfl, hitems⟩ _
  have hskip : skipSpace text = '{' :: body := hgap.skipSpace_cons (by decide)
  have hlt := hitems.length_lt Member.length_lt
  have hmet : members.foldlM (fun slots m => fields.meet ds slots m.1) fields.noSlots =
      some (fields.slots ds) := by
    rw [← List.foldlM_map, ← fields.met_nil ds,
      Fields.foldlM_meet hlegible ds (fun _ _ _ => List.not_mem_nil) honce, List.append_nil,
      fields.met_eq_slots ds]
    intro e he
    exact List.mem_reverse.mpr (hall e he)
  have hfold : foldEntries (readEntry fields depth) body true fields.noSlots body =
      .ok (fields.slots ds, rest) := by
    rw [← toOption_eq_some_iff, toOption_foldKeys (P := Member) (B := Member.Behind)
      (fun slots m => fields.meet ds slots m.1) Member.exists_behind _ hitems (by omega), hmet]
    · rfl
    · intro m colon rest hm hbehind hends slots
      exact Fields.toOption_readEntry_of_admits hlegible (hmembers m hm) hbehind hends slots
  have hread : Shape.read (.record name fields) (depth + 1) text =
      foldEntries (readEntry fields depth) body true fields.noSlots body >>=
        fun read => place read.2 (fields.ofSlots read.1) := by
    simp only [Shape.read, hskip]
    rfl
  rw [hread, hfold]
  exact congrArg (place rest) (fields.ofSlots_slots ds)

theorem readAs_record {name : String} {fields : Fields} {depth : Nat} {ds : fields.Data}
    {given : List (String × Form)} (hlegible : fields.Legible)
    (hstrange : ∀ key ∉ fields.names, fields.Strange key)
    (hgiven : ∀ m ∈ given, fields.Gives depth ds m.1 m.2) (hapart : (given.map Prod.fst).Nodup)
    (hall : ∀ e ∈ fields.entries ds, e.1 ∈ given.map Prod.fst) :
    (record fields.names given).ReadAs (Shape.read (.record name fields) (depth + 1)) ds := by
  rintro text core rest hgap ⟨members, others, hperm, hothers, hspells⟩ hends
  refine readAs_object hlegible ?_ ?_ ?_ hgap hspells hends
  · intro m hm
    rcases List.mem_append.mp (hperm.mem_iff.mp hm) with hm | hm
    · exact .inl (hgiven m hm)
    · obtain ⟨hname, hF⟩ := hothers m hm
      exact .inr ⟨⟨hname, hstrange m.1 hname⟩, hF⟩
  · rw [((hperm.map Prod.fst).filter _).nodup_iff, List.map_append, List.filter_append]
    have hnone : (others.map Prod.fst).filter (· ∈ fields.names) = [] := by
      simpa [List.filter_eq_nil_iff] using fun m F hm => (hothers (m, F) hm).1
    rw [hnone, List.append_nil]
    exact hapart.filter _
  · intro e he
    obtain ⟨m, hm, hkey⟩ := List.mem_map.mp (hall e he)
    exact List.mem_map.mpr ⟨m, hperm.mem_iff.mpr (List.mem_append_left others hm), hkey⟩

/-- A whole text in a form holds what is read from the form. -/
theorem ofText_of_whole {F : Form} {shape : Shape} {d : shape.Data} {text : String}
    (hread : F.ReadAs (shape.read depthLimit) d) (h : F.Whole text.toList) :
    shape.ofText text = .ok d := by
  obtain ⟨core, behind, hgap, hcore, hbehind⟩ := h
  have hclose : closeText behind = .ok () := by
    have hskip : skipSpace behind = [] := hbehind.skipSpace_eq
    simp [closeText, hskip]
  rw [Shape.ofText, readWhole, hread hgap hcore hbehind.ends_nil]
  simp [hclose, bind, Except.bind, pure, Except.pure]

/-! ## What is printed -/

/-- What is printed is one of the texts of a form, whatever follows it. -/
def Prints (F : Form) (printed : List Char) : Prop :=
  ∀ rest, F.spells (printed ++ rest) rest

theorem prints_array {α : Type} {form : α → Form} {print : α → List Char} {as : List α}
    (h : ∀ a ∈ as, (form a).Prints (print a)) : (array form as).Prints (printArray (as.map print)) :=
  fun rest => ⟨_, by simp [printArray], items_printList h rest⟩

/-- The parts of an object as they are printed, each after its key. -/
def printParts (parts : List (String × Form × List Char)) : List Char :=
  printObject (parts.map fun part => printEntry part.1 part.2.2)

theorem prints_object {parts : List (String × Form × List Char)}
    (h : ∀ part ∈ parts, part.2.1.Prints part.2.2) :
    (object (parts.map fun part => (part.1, part.2.1))).Prints (printParts parts) := by
  intro rest
  have hpart : ∀ part ∈ parts, ∀ rest,
      Member (part.1, part.2.1) (printEntry part.1 part.2.2 ++ rest) rest := by
    intro part hpart rest
    rw [printEntry, List.append_assoc]
    exact .mk (quoted_printText part.1 _) (Gap.refl _) (Gap.refl _) (h part hpart rest)
  have hitems : Items '}' (fun part : String × Form × List Char => Member (part.1, part.2.1)) true
      parts (printList (parts.map fun part => printEntry part.1 part.2.2) ++ '}' :: rest) rest :=
    items_printList hpart rest
  refine ⟨_, ?_, hitems.map (fun part : String × Form × List Char => (part.1, part.2.1)) id⟩
  simp [printParts, printObject]

/-- A record is printed with its members in any order and others among them. -/
theorem prints_record {names : List String} {given members others : List (String × Form)}
    {printed : List Char} (hperm : members.Perm (given ++ others))
    (hothers : ∀ m ∈ others, m.1 ∉ names ∧ m.2 = anything)
    (h : (object members).Prints printed) : (record names given).Prints printed :=
  fun rest => ⟨members, others, hperm, hothers, h rest⟩

theorem prints_anything {depth : Nat} {v : Value} (h : v.Written depth) :
    anything.Prints v.print :=
  fun rest => ⟨depth, (h.spells rest).wellFormed⟩

theorem Prints.whole {F : Form} {printed : List Char} (h : F.Prints printed) : F.Whole printed := by
  refine ⟨printed, [], Gap.refl _, ?_, Gap.refl _⟩
  have hspells := h []
  rwa [List.append_nil] at hspells

end Form

end CheckWorker.Json
