import CheckWorker.Json.Printer
import CheckWorker.Json.Tagged
import CheckWorker.Proofs.Json.Document

/-!
# What is written

The text that is written for a value spells the value. What is written for the data of a shape is
the text of a value as well, the one that the data stands for, so it spells that value.
-/

namespace CheckWorker.Json

/-! ## Texts -/

theorem hexValue?_hexDigit : ∀ n < 16, hexValue? (hexDigit n) = some n := by
  decide

theorem hexValue4?_hexDigit {n : Nat} (h : n < 0x20) :
    hexValue4? '0' '0' (hexDigit (n / 16)) (hexDigit (n % 16)) = some n := by
  have hzero : hexValue? '0' = some 0 := by decide
  have hhigh := hexValue?_hexDigit (n / 16) (by omega)
  have hlow := hexValue?_hexDigit (n % 16) (by omega)
  have hvalue : 0 * 0x1000 + 0 * 0x100 + n / 16 * 0x10 + n % 16 = n := by omega
  simp only [hexValue4?, hzero, hhigh, hlow, Option.bind_eq_bind, Option.bind_some, hvalue]
  rfl

theorem charText_printChar (c : Char) (rest : List Char) :
    CharText c (printChar c ++ rest) rest := by
  unfold printChar
  split
  · next h => exact .short (by rw [h]; rfl)
  split
  · next h => exact .short (by rw [h]; rfl)
  split
  · next h => exact .short (by rw [h]; rfl)
  split
  · next h => exact .short (by rw [h]; rfl)
  split
  · next h => exact .short (by rw [h]; rfl)
  split
  · next h => exact .short (by rw [h]; rfl)
  split
  · next h => exact .short (by rw [h]; rfl)
  split
  · next h => exact .hex (hexValue4?_hexDigit h)
  · next hquote hback _ _ _ _ _ hcontrol => exact .plain (by omega) hquote hback

theorem chars_printChars (cs rest : List Char) :
    Chars cs (cs.flatMap printChar ++ '"' :: rest) rest := by
  induction cs with
  | nil => exact .close
  | cons c cs ih =>
      rw [List.flatMap_cons, List.append_assoc]
      exact .char (charText_printChar c _) ih

theorem quoted_printText (s : String) (rest : List Char) :
    Quoted s (printText s ++ rest) rest := by
  rw [printText, List.cons_append, List.append_assoc]
  exact .mk (chars_printChars s.toList rest)

/-! ## Items -/

theorem printList_cons (part : List Char) (parts : List (List Char)) :
    printList (part :: parts) = part ++ parts.flatMap (',' :: ·) := by
  induction parts generalizing part with
  | nil => simp [printList]
  | cons part' parts ih =>
      rw [printList, ih, List.flatMap_cons]
      · rfl
      · simp

section

variable {α : Type} {close : Char} {P : α → List Char → List Char → Prop} {print : α → List Char}

theorem items_flatMap {as : List α} (h : ∀ a ∈ as, ∀ rest, P a (print a ++ rest) rest)
    (rest : List Char) :
    Items close P false as ((as.map print).flatMap (',' :: ·) ++ close :: rest) rest := by
  induction as with
  | nil => exact .done (Gap.refl _)
  | cons a as ih =>
      rw [List.map_cons, List.flatMap_cons, List.append_assoc]
      exact .next (Gap.refl _) (Gap.refl _) (h a (by simp) _)
        (ih fun a' ha' => h a' (by simp [ha']))

theorem items_printList {as : List α} (h : ∀ a ∈ as, ∀ rest, P a (print a ++ rest) rest)
    (rest : List Char) :
    Items close P true as (printList (as.map print) ++ close :: rest) rest := by
  cases as with
  | nil => exact .done (Gap.refl _)
  | cons a as =>
      rw [List.map_cons, printList_cons, List.append_assoc]
      exact .first (Gap.refl _) (h a (by simp) _)
        (items_flatMap (fun a' ha' => h a' (by simp [ha'])) rest)

end

theorem entry_printText {P : Value → List Char → List Char → Prop} {v : Value}
    {text rest : List Char} (h : P v text rest) (k : String) :
    Entry P (k, v) (printText k ++ ':' :: text) rest :=
  .mk (quoted_printText k _) (.mk (Gap.refl _) (Gap.refl _) h)

/-! ## Values -/

theorem printItems_eq_map (items : List Value) : printItems items = items.map Value.print := by
  induction items with
  | nil => rfl
  | cons v items ih => rw [printItems, ih, List.map_cons]

theorem printItems_map {α : Type} {value : α → Value} {print : α → List Char}
    (h : ∀ a, (value a).print = print a) (as : List α) :
    printItems (as.map value) = as.map print := by
  rw [printItems_eq_map, List.map_map]
  exact List.map_congr_left fun a _ => h a

theorem printEntries_cons {k : String} {v : Value} {entries : List (String × Value)}
    {text : List Char} {parts : List (List Char)} (h : v.print = text)
    (hrest : printEntries entries = parts) :
    printEntries ((k, v) :: entries) = printEntry k text :: parts := by
  rw [printEntries, h, hrest]

theorem printEntries_eq_map (entries : List (String × Value)) :
    printEntries entries = entries.map fun e => printEntry e.1 e.2.print := by
  induction entries with
  | nil => rfl
  | cons e entries ih => rw [printEntries, ih, List.map_cons]

/-- At most `depth` brackets are open at once in what is written, and its numbers stand for
themselves. -/
inductive Value.Written : Nat → Value → Prop
  | null {depth : Nat} : Written depth .null
  | boolean {depth : Nat} (b : Bool) : Written depth (.boolean b)
  | number {depth : Nat} {n : Number} {m : Numeral} :
      (Value.number n).print = m.text → m.number? = some n → Written depth (.number n)
  | text {depth : Nat} (s : String) : Written depth (.text s)
  | array {depth : Nat} {items : List Value} :
      (∀ v ∈ items, Written depth v) → Written (depth + 1) (.array items)
  | object {depth : Nat} {entries : List (String × Value)} :
      (∀ e ∈ entries, Written depth e.2) → Written (depth + 1) (.object entries)

theorem Scalar.spells {v : Value} {text rest : List Char} (h : Scalar v text rest) (depth : Nat) :
    Spells depth v text rest := by
  cases depth with
  | zero => exact h
  | succ depth => exact .scalar h

theorem Value.Written.spells {depth : Nat} {v : Value} (h : v.Written depth) (rest : List Char) :
    Spells depth v (v.print ++ rest) rest := by
  induction h generalizing rest with
  | null => exact Scalar.null.spells _
  | boolean b =>
      cases b with
      | false => exact Scalar.no.spells _
      | true => exact Scalar.yes.spells _
  | number hprint hn =>
      rw [hprint]
      exact (Scalar.number hn).spells _
  | text s => exact (Scalar.text (quoted_printText s rest)).spells _
  | array _ ih =>
      rw [Value.print, printItems_eq_map, printArray, List.cons_append, List.append_assoc]
      exact .array (items_printList ih rest)
  | object _ ih =>
      rw [Value.print, printEntries_eq_map, printObject, List.cons_append, List.append_assoc]
      refine .object (items_printList (fun e he behind => ?_) rest)
      rw [printEntry, List.append_assoc]
      exact entry_printText (ih e he behind) e.1

theorem Value.Written.document {v : Value} (h : v.Written depthLimit) : Document v v.print := by
  have hspells := h.spells []
  rw [List.append_nil] at hspells
  exact ⟨_, _, Gap.refl _, hspells, Gap.refl _⟩

/-! ## Whole numbers -/

theorem valueFrom_toDigits (n : Nat) : valueFrom 0 (Nat.toDigits 10 n) = n := by
  have hvalue : ∀ value digits, valueFrom value digits = Nat.ofDigitChars 10 digits value := by
    intro value digits
    induction digits generalizing value with
    | nil => rfl
    | cons c digits ih =>
        rw [Nat.ofDigitChars_cons, Nat.mul_comm, ← digitValue, ← ih]
        rfl
  rw [hvalue, Nat.ofDigitChars_ten_toDigits]

theorem head?_toDigits {n : Nat} (h : 0 < n) : (Nat.toDigits 10 n).head? ≠ some '0' := by
  induction n using Nat.strongRecOn with
  | ind n ih =>
      by_cases hlt : n < 10
      · have hdigit : ∀ d < 10, 0 < d → Nat.digitChar d ≠ '0' := by decide
        rw [Nat.toDigits_of_lt_base hlt]
        simpa using hdigit n hlt h
      · have hne : Nat.toDigits 10 (n / 10) ≠ [] := Nat.toDigits_ne_nil
        obtain ⟨c, cs, hcs⟩ := List.exists_cons_of_ne_nil hne
        have hhead := ih (n / 10) (by omega) (by omega)
        rw [Nat.toDigits_of_base_le (by decide) (by omega), hcs]
        rw [hcs] at hhead
        exact hhead

theorem takeDigits_of_le {value : Nat} {digits : List Char}
    (h : valueFrom value digits ≤ maxWhole) :
    takeDigits value digits = (valueFrom value digits, []) := by
  induction digits generalizing value with
  | nil => rfl
  | cons c digits ih =>
      have hstep : value * 10 + digitValue c ≤ maxWhole := Nat.le_trans (le_valueFrom _ digits) h
      rw [takeDigits, if_pos hstep, ih h]
      rfl

/-- The numeral that is written for an integer. -/
def Numeral.ofInt (n : Int) : Numeral where
  negative := decide (n < 0)
  whole := Nat.toDigits 10 n.natAbs
  decimals := []
  scale := none
  whole_ne := Nat.toDigits_ne_nil
  isDigit_whole _ hc := Nat.isDigit_of_mem_toDigits (by decide) (by decide) hc
  whole_eq_zero h := by
    by_cases hzero : n.natAbs = 0
    · rw [hzero]
      rfl
    · exact absurd h (head?_toDigits (Nat.pos_of_ne_zero hzero))
  isDigit_decimals := by simp

theorem Numeral.text_ofInt (n : Int) : (Numeral.ofInt n).text = printWhole n := by
  have hunsigned : (Numeral.ofInt n).unsigned = Nat.toDigits 10 n.natAbs := by
    simp [Numeral.unsigned, Numeral.ofInt]
  rw [Numeral.text, hunsigned, printWhole]
  by_cases hn : n < 0
  · simp [Numeral.ofInt, hn]
  · simp [Numeral.ofInt, hn]

theorem Numeral.number?_ofInt {n : Int} (hlow : -(maxNegative : Int) ≤ n) (hhigh : n ≤ maxWhole) :
    (Numeral.ofInt n).number? = some (.whole n) := by
  have hbound : n.natAbs ≤ maxWhole := by
    simp only [maxNegative] at hlow
    simp only [maxWhole] at hhigh ⊢
    omega
  have hdigits : takeDigits 0 (Nat.toDigits 10 n.natAbs) = (n.natAbs, []) := by
    rw [takeDigits_of_le (by rwa [valueFrom_toDigits]), valueFrom_toDigits]
  have hinteger : (Numeral.ofInt n).number? = integer? (decide (n < 0)) n.natAbs := by
    simp [Numeral.number?, Numeral.ofInt, hdigits]
  rw [hinteger, integer?]
  by_cases hn : n < 0
  · have hvalue : -(n.natAbs : Int) = n := by omega
    have hrange : 0 < n.natAbs ∧ n.natAbs ≤ maxNegative := by omega
    have hnegative : decide (n < 0) ≠ false := by simp [hn]
    rw [if_neg hnegative, if_pos hrange, hvalue]
  · have hvalue : (n.natAbs : Int) = n := by omega
    have hnegative : decide (n < 0) = false := by simp [hn]
    rw [if_pos hnegative, hvalue]

theorem written_whole {depth : Nat} {n : Int} (hlow : -(maxNegative : Int) ≤ n)
    (hhigh : n ≤ maxWhole) : (Value.number (.whole n)).Written depth :=
  .number (Numeral.text_ofInt n).symm (Numeral.number?_ofInt hlow hhigh)

theorem Width.toInt_range : (w : Width) → (n : w.Data) →
    -(maxNegative : Int) ≤ w.toInt n ∧ w.toInt n ≤ maxWhole
  | .u32, n => by
      have hn := UInt32.toNat_lt n
      simp only [Width.toInt, maxNegative, maxWhole]
      omega
  | .i32, n => by
      have hle := Int32.le_toInt n
      have hlt := Int32.toInt_lt n
      simp only [Width.toInt, maxNegative, maxWhole]
      omega
  | .u64, n => by
      have hn := UInt64.toNat_lt n
      simp only [Width.toInt, maxNegative, maxWhole]
      omega

/-! ## Data of shapes -/

mutual

/-- The value that the data of a shape stands for. -/
def Shape.value : (shape : Shape) → shape.Data → Value
  | .text, s => .text s
  | .flag, b => .boolean b
  | .whole width, n => .number (.whole (width.toInt n))
  | .maybe _, none => .null
  | .maybe shape, some d => shape.value d
  | .many shape, ds => .array (ds.map shape.value)
  | .anything, v => v
  | .oneOf words, i => .text (words.get i)
  | .record _ fields, ds => .object (fields.entries ds)

def Fields.entries : (fields : Fields) → fields.Data → List (String × Value)
  | .nil, () => []
  | .required name _ shape rest, (d, ds) => (name, shape.value d) :: rest.entries ds
  | .optional name _ shape rest, (some d, ds) => (name, shape.value d) :: rest.entries ds
  | .optional _ _ _ rest, (none, ds) => rest.entries ds

end

mutual

theorem Shape.print_value : (shape : Shape) → (d : shape.Data) →
    (shape.value d).print = shape.print d
  | .text, _ => rfl
  | .flag, _ => rfl
  | .whole _, _ => rfl
  | .maybe _, none => rfl
  | .maybe shape, some d => shape.print_value d
  | .many shape, ds => congrArg printArray (printItems_map shape.print_value ds)
  | .anything, _ => rfl
  | .oneOf _, _ => rfl
  | .record _ fields, ds => congrArg printObject (fields.print_entries ds)

theorem Fields.print_entries : (fields : Fields) → (ds : fields.Data) →
    printEntries (fields.entries ds) = fields.print ds
  | .nil, () => rfl
  | .required _ _ shape rest, (d, ds) =>
      printEntries_cons (shape.print_value d) (rest.print_entries ds)
  | .optional _ _ shape rest, (some d, ds) =>
      printEntries_cons (shape.print_value d) (rest.print_entries ds)
  | .optional _ _ _ rest, (none, ds) => rest.print_entries ds

end

mutual

/-- At most `depth` brackets are open at once in what is written for the shape, and no value in it
is arbitrary. -/
def Shape.Fits : Shape → Nat → Prop
  | .text, _ => True
  | .flag, _ => True
  | .whole _, _ => True
  | .maybe shape, depth => shape.Fits depth
  | .many shape, depth + 1 => shape.Fits depth
  | .many _, 0 => False
  | .anything, _ => False
  | .oneOf _, _ => True
  | .record _ fields, depth + 1 => fields.Fits depth
  | .record _ _, 0 => False

def Fields.Fits : Fields → Nat → Prop
  | .nil, _ => True
  | .required _ _ shape rest, depth => shape.Fits depth ∧ rest.Fits depth
  | .optional _ _ shape rest, depth => shape.Fits depth ∧ rest.Fits depth

end

theorem written_map {α : Type} {value : α → Value} {depth : Nat}
    (h : ∀ a, (value a).Written depth) (as : List α) :
    (Value.array (as.map value)).Written (depth + 1) := by
  refine .array ?_
  intro v hv
  obtain ⟨a, -, rfl⟩ := List.mem_map.mp hv
  exact h a

theorem written_cons {k : String} {v : Value} {entries : List (String × Value)} {depth : Nat}
    (h : v.Written depth) (hrest : ∀ e ∈ entries, e.2.Written depth) :
    ∀ e ∈ (k, v) :: entries, e.2.Written depth := by
  intro e he
  cases he with
  | head => exact h
  | tail _ he => exact hrest e he

mutual

theorem Shape.written : (shape : Shape) → ∀ {depth}, shape.Fits depth → ∀ d : shape.Data,
    (shape.value d).Written depth
  | .text, _, _, s => .text s
  | .flag, _, _, b => .boolean b
  | .whole width, _, _, n => written_whole (width.toInt_range n).1 (width.toInt_range n).2
  | .maybe _, _, _, none => .null
  | .maybe shape, _, h, some d => shape.written h d
  | .many shape, _ + 1, h, ds => written_map (shape.written h) ds
  | .anything, _, h, _ => h.elim
  | .oneOf words, _, _, i => .text (words.get i)
  | .record _ fields, _ + 1, h, ds => .object (fields.written h ds)

theorem Fields.written : (fields : Fields) → ∀ {depth}, fields.Fits depth → ∀ ds : fields.Data,
    ∀ e ∈ fields.entries ds, e.2.Written depth
  | .nil, _, _, () => by
      intro e he
      cases he
  | .required _ _ shape rest, _, h, (d, ds) =>
      written_cons (shape.written h.1 d) (rest.written h.2 ds)
  | .optional _ _ shape rest, _, h, (some d, ds) =>
      written_cons (shape.written h.1 d) (rest.written h.2 ds)
  | .optional _ _ _ rest, _, h, (none, ds) => rest.written h.2 ds

end

/-- What is written for the data of a shape is a document of the value that the data stands for. -/
theorem Shape.document {shape : Shape} (h : shape.Fits depthLimit) (d : shape.Data) :
    Document (shape.value d) (shape.toText d).toList := by
  have hdocument := (shape.written h d).document
  rw [shape.print_value] at hdocument
  rwa [toText, String.toList_ofList]

namespace Tagging

variable {κ : Type} (t : Tagging κ)

def contentEntry : (o : Option Shape) → contentData o → List (String × Value)
  | none, () => []
  | some shape, d => [(t.contentKey, shape.value d)]

/-- The value that tagged data stands for. -/
def value (d : t.Data) : Value :=
  .object ((t.tagKey, .text (t.word d.1)) :: t.contentEntry (t.content d.1) d.2)

theorem print_contentEntry : (o : Option Shape) → (d : contentData o) →
    printEntries (t.contentEntry o d) = t.contentEntries o d
  | none, () => rfl
  | some shape, d => printEntries_cons (shape.print_value d) rfl

theorem print_value (d : t.Data) : (t.value d).print = t.print d :=
  congrArg printObject (printEntries_cons rfl (t.print_contentEntry (t.content d.1) d.2))

theorem written_contentEntry {depth : Nat} : (o : Option Shape) →
    (∀ shape ∈ o, shape.Fits depth) → ∀ d : contentData o, ∀ e ∈ t.contentEntry o d,
      e.2.Written depth
  | none, _, () => by
      intro e he
      cases he
  | some shape, h, d => by
      intro e he
      cases he with
      | head => exact shape.written (h shape rfl) d
      | tail _ he => cases he

/-- What is written for tagged data is a document of the value that the data stands for. -/
theorem document (h : ∀ k, ∀ shape ∈ t.content k, shape.Fits 126) (d : t.Data) :
    Document (t.value d) (t.toText d).toList := by
  have hwritten : (t.value d).Written depthLimit :=
    .object (written_cons (.text _) (t.written_contentEntry _ (h d.1) d.2))
  rw [toText, String.toList_ofList, ← print_value]
  exact hwritten.document

end Tagging

end CheckWorker.Json
