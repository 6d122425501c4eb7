import CheckWorker.Proofs.Report.Body

/-!
# Messages that cannot be on one line

A text is blocked when the message that ends it would hold a line feed. What stands before such a
text does not free it: were blanks, a severity or a column counted to the message, the message would
only be longer.
-/

namespace CheckWorker.Report

open Text

/-- The message of a text would hold a line feed. -/
def Blocked (text : List Char) : Prop :=
  '\n' ∈ (splitCode text).1

instance (text : List Char) : Decidable (Blocked text) :=
  inferInstanceAs (Decidable ('\n' ∈ (splitCode text).1))

theorem splitCode_nil : splitCode [] = ([], []) := rfl

theorem splitCode_gap {gap code : List Char} (hgap : IsGap gap) (hcode : IsCode code) :
    splitCode (gap ++ '[' :: (code ++ [']'])) = ([], code) :=
  splitCode_append [] hgap hcode

/-- What follows a message is its code, with nothing before it. -/
theorem exists_after_message (text : List Char) :
    ∃ rest, text = (splitCode text).1 ++ rest ∧ splitCode rest = ([], (splitCode text).2) := by
  rcases splitCode_cases text with h | h
  · obtain ⟨message, gap, code, hgap, hcode, -, htext, hsplit⟩ := exists_of_endsInCode h
    exact ⟨gap ++ '[' :: (code ++ [']']), by rw [hsplit, ← htext],
      by rw [splitCode_gap hgap hcode, hsplit]⟩
  · exact ⟨[], by rw [h, List.append_nil], by rw [h, splitCode_nil]⟩

/-- No message is shorter than the one that `splitCode` finds. -/
theorem splitCode_initial {before rest : List Char} (h : (splitCode rest).1 = []) :
    (splitCode (before ++ rest)).1 <+: before := by
  rcases splitCode_cases rest with hend | hwhole
  · obtain ⟨message, gap, code, hgap, hcode, -, htext, hsplit⟩ := exists_of_endsInCode hend
    obtain rfl : message = [] := by rwa [hsplit] at h
    rw [htext, List.nil_append, splitCode_append before hgap hcode]
    obtain ⟨blanks, -, hbefore⟩ := trimEnd_spec before
    exact ⟨blanks, hbefore.symm⟩
  · rw [hwhole] at h
    subst h
    rw [List.append_nil]
    exact isPrefix_splitCode before

theorem Blocked.mem {text : List Char} (h : Blocked text) : '\n' ∈ text :=
  (isPrefix_splitCode text).subset h

theorem IsCode.lineFeed_notMem {code : List Char} (h : IsCode code) :
    '\n' ∉ '[' :: (code ++ [']']) := by
  intro hm
  have hcode : '\n' ∈ code := by simpa using hm
  exact absurd (h.isCodeChar _ hcode) (by decide)

/-- Between a message and the end of the text nothing is blocked. -/
theorem not_blocked_of_splitCode {before text : List Char}
    (h : (splitCode (before ++ text)).1 = []) : ¬Blocked text := by
  intro hblocked
  by_cases hend : EndsInCode (before ++ text)
  · obtain ⟨message, gap, code, hgap, hcode, -, hparts, hsplit⟩ := exists_of_endsInCode hend
    obtain rfl : message = [] := by rwa [hsplit] at h
    rw [List.nil_append] at hparts
    rcases List.append_eq_append_iff.mp hparts with ⟨gap', rfl, rfl⟩ | ⟨code', -, hcode'⟩
    · cases gap' with
      | nil => exact hcode.lineFeed_notMem hblocked.mem
      | cons b gap' =>
          have hgap' : IsGap (b :: gap') :=
            ⟨List.cons_ne_nil b gap', fun c hc => hgap.isBlank c (List.mem_append_right before hc)⟩
          rw [Blocked, splitCode_gap hgap' hcode] at hblocked
          cases hblocked
    · exact hcode.lineFeed_notMem (hcode' ▸ List.mem_append_right code' hblocked.mem)
  · rw [splitCode_eq_self_iff.mpr hend] at h
    have htext : text = [] := (List.append_eq_nil_iff.mp h).2
    rw [htext] at hblocked
    cases hblocked

/-- More text before a message does not take its line feed away. -/
theorem Blocked.append {text : List Char} (h : Blocked text) (before : List Char) :
    Blocked (before ++ text) := by
  obtain ⟨rest, htext, hrest⟩ := exists_after_message (before ++ text)
  have hnil : (splitCode rest).1 = [] := congrArg Prod.fst hrest
  rcases List.append_eq_append_iff.mp htext with ⟨middle, hmessage, rfl⟩ | ⟨middle, -, rfl⟩
  · -- The message reaches into `text` and covers the message found there.
    have hmiddle : '\n' ∈ middle := (splitCode_initial hnil).subset h
    rw [Blocked, hmessage]
    exact List.mem_append_right before hmiddle
  · -- The message ends before `text`, which therefore belongs to blanks and code.
    exact absurd h (not_blocked_of_splitCode hnil)

/-! ## What giving back would do -/

/-- What is left when a severity and the blanks after it have been read. -/
def afterSeverity (text : List Char) : List Char :=
  trimStart ((severity? text).getD (.standard, text)).2

theorem afterSeverity_of_none {text : List Char} (h : severity? text = none) :
    afterSeverity text = trimStart text := by
  rw [afterSeverity, h, Option.getD_none]

theorem afterSeverity_of_some {text rest : List Char} {s : Severity}
    (h : severity? text = some (s, rest)) : afterSeverity text = trimStart rest := by
  rw [afterSeverity, h, Option.getD_some]

theorem content_eq (text : List Char) : content text = afterSeverity (trimStart text) := rfl

theorem trimStart_trimStart (text : List Char) : trimStart (trimStart text) = trimStart text :=
  trimStart_of_head? (head?_trimStart text)

/-- Blanks before a colon do not reach beyond it. -/
theorem trimStart_append_colon (before rest : List Char) :
    trimStart (before ++ ':' :: rest) = trimStart before ++ ':' :: rest := by
  induction before with
  | nil => exact trimStart_cons_solid (by decide) rest
  | cons c before ih =>
      cases hc : isBlank c with
      | true => rw [List.cons_append, trimStart_cons_blank hc, trimStart_cons_blank hc, ih]
      | false => rw [List.cons_append, trimStart_cons_solid hc, trimStart_cons_solid hc]; rfl

theorem toLower_of_isBlank {c : Char} (h : isBlank c = true) : c.toLower = c := by
  have hrange : ¬('A'.val ≤ c.val ∧ c.val ≤ 'Z'.val) := by
    rintro ⟨hl, hr⟩
    have hl : 65 ≤ c.toNat := UInt32.le_iff_toNat_le.mp hl
    have hr : c.toNat ≤ 90 := UInt32.le_iff_toNat_le.mp hr
    simp only [isBlank, Bool.or_eq_true, Bool.and_eq_true, decide_eq_true_eq, beq_iff_eq] at h
    omega
  unfold Char.toLower
  exact dif_neg hrange

theorem severity?_cons_blank {c : Char} (h : isBlank c = true) (text : List Char) :
    severity? (c :: text) = none := by
  cases hread : severity? (c :: text) with
  | none => rfl
  | some found =>
      exfalso
      obtain ⟨s, rest⟩ := found
      obtain ⟨word, hword, htext⟩ := severity?_eq_some hread
      cases word with
      | nil => cases s <;> cases hword
      | cons d word =>
          obtain ⟨rfl, -⟩ := List.cons.inj htext
          rw [Severity.lower, List.map_cons, toLower_of_isBlank h] at hword
          have hc : isBlank c = false := by
            cases s <;> (obtain ⟨rfl, -⟩ := List.cons.inj hword; decide)
          rw [h] at hc
          cases hc

/-- What comes to be blocked after a colon was blocked before it. -/
theorem Blocked.before_colon {rest : List Char} (h : Blocked (trimStart rest))
    (before : List Char) : Blocked (trimStart (before ++ ':' :: rest)) := by
  obtain ⟨blanks, -, hrest⟩ := trimStart_spec rest
  rw [trimStart_append_colon, hrest]
  have hall := h.append (trimStart before ++ ':' :: blanks)
  simpa using hall

/-- A severity that is not taken stays before a message that was blocked after it. -/
theorem Blocked.before_severity {text : List Char} (h : Blocked (afterSeverity text)) :
    Blocked (trimStart text) := by
  cases hread : severity? text with
  | none => rwa [afterSeverity_of_none hread] at h
  | some found =>
      rw [afterSeverity_of_some hread] at h
      obtain ⟨word, -, rfl⟩ := severity?_eq_some hread
      exact h.before_colon word

theorem Blocked.before_content {text : List Char} (h : Blocked (content text)) :
    Blocked (trimStart text) := by
  have htrim := Blocked.before_severity h
  rwa [trimStart_trimStart] at htrim

/-- A column that is not taken stays before a message that was blocked after it. -/
theorem Blocked.before_number {digits rest : List Char} (hdigits : IsNumber digits)
    (h : Blocked (content rest)) : Blocked (content (digits ++ ':' :: rest)) := by
  have hrest : Blocked (trimStart rest) := h.before_content
  rw [content_eq]
  cases hread : severity? (trimStart (digits ++ ':' :: rest)) with
  | none =>
      rw [afterSeverity_of_none hread, trimStart_trimStart]
      exact hrest.before_colon digits
  | some found =>
      obtain ⟨s, tail⟩ := found
      obtain ⟨word, hword, htext⟩ := severity?_eq_some hread
      have hdigit : ':' ∉ trimStart digits :=
        fun hm => hdigits.colon_notMem (mem_of_mem_trimStart hm)
      rw [trimStart_append_colon] at htext
      obtain ⟨-, rfl⟩ := append_colon_inj hdigit (colon_notMem_of_lower hword) htext
      rwa [afterSeverity_of_some hread]

end CheckWorker.Report
