import CheckWorker.Report.Reading

/-!
# Codes in a report line

A text that ends in blanks and a bracketed code is cut before the blanks, and every other text stays
whole. The cut can be made in one way only.
-/

namespace CheckWorker.Report

open Text

/-- A text is one or more of the characters that codes are made of. -/
structure IsCode (code : List Char) : Prop where
  ne_nil : code ≠ []
  isCodeChar : ∀ c ∈ code, isCodeChar c = true

structure IsGap (gap : List Char) : Prop where
  ne_nil : gap ≠ []
  isBlank : ∀ c ∈ gap, isBlank c = true

/-- A text has a bracketed code at its end, set off by blanks. -/
def EndsInCode (text : List Char) : Prop :=
  ∃ message gap code, IsGap gap ∧ IsCode code ∧ text = message ++ (gap ++ '[' :: (code ++ [']']))

/-- The code and the blanks before it come off; what is left loses its own trailing blanks. -/
theorem splitCode_append (message : List Char) {gap code : List Char} (hgap : IsGap gap)
    (hcode : IsCode code) :
    splitCode (message ++ (gap ++ '[' :: (code ++ [']']))) = (trimEnd message, code) := by
  have hrev : (message ++ (gap ++ '[' :: (code ++ [']']))).reverse =
      ']' :: (code.reverse ++ '[' :: (gap.reverse ++ message.reverse)) := by
    simp
  have hchars : ∀ c ∈ code.reverse, isCodeChar c = true :=
    fun c hc => hcode.isCodeChar c (List.mem_reverse.mp hc)
  have htake : (code.reverse ++ '[' :: (gap.reverse ++ message.reverse)).takeWhile isCodeChar =
      code.reverse := by
    rw [List.takeWhile_append_of_pos hchars, List.takeWhile_cons_of_neg (by decide),
      List.append_nil]
  have hdrop : (code.reverse ++ '[' :: (gap.reverse ++ message.reverse)).dropWhile isCodeChar =
      '[' :: (gap.reverse ++ message.reverse) := by
    rw [List.dropWhile_append_of_pos hchars, List.dropWhile_cons_of_neg (by decide)]
  obtain ⟨c, cs, hcs⟩ := List.exists_cons_of_ne_nil (List.reverse_ne_nil_iff.mpr hcode.ne_nil)
  obtain ⟨b, bs, hbs⟩ := List.exists_cons_of_ne_nil (List.reverse_ne_nil_iff.mpr hgap.ne_nil)
  have hblank : ∀ x ∈ b :: bs, isBlank x = true :=
    fun x hx => hgap.isBlank x (List.mem_reverse.mp (hbs ▸ hx))
  unfold splitCode
  rw [hrev]
  simp only
  rw [htake, hdrop, hcs, hbs]
  simp only [List.cons_append]
  rw [if_pos (hblank b List.mem_cons_self), ← hcs, List.reverse_reverse,
    List.dropWhile_append_of_pos fun x hx => hblank x (List.mem_cons_of_mem b hx)]
  rfl

theorem splitCode_cases (text : List Char) :
    EndsInCode text ∨ splitCode text = (text, []) := by
  unfold splitCode
  split
  case h_2 => exact .inr rfl
  case h_1 back hback =>
    split
    case h_2 => exact .inr rfl
    case h_1 c code b before htake hdrop =>
      split
      case isFalse => exact .inr rfl
      case isTrue hb =>
        refine .inl ⟨before.reverse, [b], (c :: code).reverse, ⟨by simp, by simpa using hb⟩,
          ⟨by simp, fun x hx => ?_⟩, ?_⟩
        · rw [List.mem_reverse, ← htake] at hx
          exact List.all_eq_true.mp List.all_takeWhile x hx
        · have hsplit : back = (c :: code) ++ '[' :: b :: before := by
            rw [← htake, ← hdrop, List.takeWhile_append_dropWhile]
          have htext := congrArg List.reverse hback
          rw [List.reverse_reverse, hsplit] at htext
          simp [htext]

theorem splitCode_eq_self_iff {text : List Char} :
    splitCode text = (text, []) ↔ ¬EndsInCode text := by
  constructor
  · rintro h ⟨message, gap, code, hgap, hcode, rfl⟩
    rw [splitCode_append message hgap hcode] at h
    exact hcode.ne_nil (congrArg Prod.snd h)
  · exact (splitCode_cases text).resolve_left

theorem exists_of_endsInCode {text : List Char} (h : EndsInCode text) :
    ∃ message gap code, IsGap gap ∧ IsCode code ∧ (∀ c ∈ message.getLast?, isBlank c = false) ∧
      text = message ++ (gap ++ '[' :: (code ++ [']'])) ∧ splitCode text = (message, code) := by
  obtain ⟨front, gap, code, hgap, hcode, rfl⟩ := h
  obtain ⟨blanks, hblanks, hfront⟩ := trimEnd_spec front
  refine ⟨trimEnd front, blanks ++ gap, code, ⟨by simp [hgap.ne_nil], ?_⟩, hcode,
    getLast?_trimEnd front, ?_, splitCode_append front hgap hcode⟩
  · intro c hc
    rcases List.mem_append.mp hc with hc | hc
    · exact List.all_eq_true.mp hblanks c hc
    · exact hgap.isBlank c hc
  · rw [List.append_assoc, ← List.append_assoc (trimEnd front), ← hfront]

theorem isPrefix_splitCode (text : List Char) : (splitCode text).1 <+: text := by
  rcases splitCode_cases text with h | h
  · obtain ⟨message, gap, code, -, -, -, rfl, hsplit⟩ := exists_of_endsInCode h
    rw [hsplit]
    exact List.prefix_append message _
  · exact ⟨[], by rw [h, List.append_nil]⟩

end CheckWorker.Report
