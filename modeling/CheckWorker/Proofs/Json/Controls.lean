import CheckWorker.Proofs.Json.Writing

/-!
# No controls in what is written

Whatever texts the data of a shape holds, what is written for it holds no character below the space.
So no line can end in it.
-/

namespace CheckWorker.Json

/-- No character of the text is a control below the space. -/
def Clear (text : List Char) : Prop :=
  ∀ c ∈ text, 0x20 ≤ c.toNat

@[simp] theorem clear_nil : Clear [] := by
  intro c hc
  cases hc

@[simp] theorem clear_cons {c : Char} {text : List Char} :
    Clear (c :: text) ↔ 0x20 ≤ c.toNat ∧ Clear text :=
  List.forall_mem_cons

@[simp] theorem clear_append {text rest : List Char} :
    Clear (text ++ rest) ↔ Clear text ∧ Clear rest :=
  List.forall_mem_append

theorem clear_flatMap {α : Type} {f : α → List Char} {as : List α} (h : ∀ a ∈ as, Clear (f a)) :
    Clear (as.flatMap f) := by
  intro c hc
  obtain ⟨a, ha, hca⟩ := List.mem_flatMap.mp hc
  exact h a ha c hca

theorem Clear.ne_newline {text : List Char} (h : Clear text) : '\n' ∉ text := by
  intro hmem
  exact absurd (h '\n' hmem) (by decide)

theorem le_toNat_hexDigit : ∀ n < 16, 0x20 ≤ (hexDigit n).toNat := by
  decide

theorem clear_printChar (c : Char) : Clear (printChar c) := by
  have hhex (h : c.toNat < 0x20) : Clear
      ['\\', 'u', '0', '0', hexDigit (c.toNat / 16), hexDigit (c.toNat % 16)] := by
    have hhigh := le_toNat_hexDigit (c.toNat / 16) (by omega)
    have hlow := le_toNat_hexDigit (c.toNat % 16) (by omega)
    simp [hhigh, hlow]
  have hself (h : ¬ c.toNat < 0x20) : Clear [c] := by
    simpa using h
  unfold printChar
  split
  · simp
  split
  · simp
  split
  · simp
  split
  · simp
  split
  · simp
  split
  · simp
  split
  · simp
  split
  · next h => exact hhex h
  · next h => exact hself h

theorem clear_printText (s : String) : Clear (printText s) := by
  have hchars : Clear (s.toList.flatMap printChar) := clear_flatMap fun c _ => clear_printChar c
  simp [printText, hchars]

theorem clear_toDigits (n : Nat) : Clear (Nat.toDigits 10 n) := by
  intro c hc
  have hdigit := Nat.isDigit_of_mem_toDigits (by decide) (by decide) hc
  simp only [Char.isDigit, Bool.and_eq_true, decide_eq_true_eq] at hdigit
  exact Nat.le_trans (by decide) (UInt32.le_iff_toNat_le.mp hdigit.1)

theorem clear_printWhole (n : Int) : Clear (printWhole n) := by
  unfold printWhole
  split
  · simp [clear_toDigits]
  · exact clear_toDigits _

theorem clear_printList {parts : List (List Char)} (h : ∀ part ∈ parts, Clear part) :
    Clear (printList parts) := by
  cases parts with
  | nil => exact clear_nil
  | cons part parts =>
      rw [printList_cons, clear_append]
      refine ⟨h part (by simp), clear_flatMap fun p hp => ?_⟩
      simp [h p (by simp [hp])]

theorem clear_printArray {items : List (List Char)} (h : ∀ item ∈ items, Clear item) :
    Clear (printArray items) := by
  simp [printArray, clear_printList h]

theorem clear_printObject {entries : List (List Char)} (h : ∀ entry ∈ entries, Clear entry) :
    Clear (printObject entries) := by
  simp [printObject, clear_printList h]

theorem clear_printEntry (key : String) {value : List Char} (h : Clear value) :
    Clear (printEntry key value) := by
  simp [printEntry, clear_printText, h]

mutual

/-- What is written for the data of a shape holds no controls. -/
theorem Shape.clear_print : (shape : Shape) → ∀ {depth}, shape.Fits depth → ∀ d : shape.Data,
    Clear (shape.print d)
  | .text, _, _, s => clear_printText s
  | .flag, _, _, false => by simp [Shape.print, Value.print]
  | .flag, _, _, true => by simp [Shape.print, Value.print]
  | .whole width, _, _, n => clear_printWhole (width.toInt n)
  | .maybe _, _, _, none => by simp [Shape.print]
  | .maybe shape, _, h, some d => shape.clear_print h d
  | .many shape, _ + 1, h, ds => clear_printArray fun item hitem => by
      obtain ⟨d, -, rfl⟩ := List.mem_map.mp hitem
      exact shape.clear_print h d
  | .anything, _, h, _ => h.elim
  | .oneOf words, _, _, i => clear_printText (words.get i)
  | .record _ fields, _ + 1, h, ds => clear_printObject (fields.clear_print h ds)

theorem Fields.clear_print : (fields : Fields) → ∀ {depth}, fields.Fits depth →
    ∀ ds : fields.Data, ∀ entry ∈ fields.print ds, Clear entry
  | .nil, _, _, () => by
      intro entry hentry
      cases hentry
  | .required name _ shape rest, _, h, (d, ds) =>
      List.forall_mem_cons.mpr
        ⟨clear_printEntry name (shape.clear_print h.1 d), rest.clear_print h.2 ds⟩
  | .optional name _ shape rest, _, h, (some d, ds) =>
      List.forall_mem_cons.mpr
        ⟨clear_printEntry name (shape.clear_print h.1 d), rest.clear_print h.2 ds⟩
  | .optional _ _ _ rest, _, h, (none, ds) => rest.clear_print h.2 ds

end

namespace Tagging

variable {κ : Type} (t : Tagging κ)

theorem clear_contentEntries : (o : Option Shape) → (∀ shape ∈ o, shape.Fits 126) →
    (d : contentData o) → ∀ entry ∈ t.contentEntries o d, Clear entry
  | none, _, () => by
      intro entry hentry
      cases hentry
  | some shape, h, d =>
      List.forall_mem_singleton.mpr
        (clear_printEntry t.contentKey (shape.clear_print (h shape rfl) d))

theorem clear_print (h : ∀ k, ∀ shape ∈ t.content k, shape.Fits 126) (d : t.Data) :
    Clear (t.print d) := by
  refine clear_printObject (List.forall_mem_cons.mpr ⟨?_, t.clear_contentEntries _ (h d.1) d.2⟩)
  exact clear_printEntry t.tagKey (clear_printText (t.word d.1))

end Tagging

end CheckWorker.Json
