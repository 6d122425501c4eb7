import CheckWorker.Proofs.Report.Place

/-!
# The layout of a report line

A report line is laid out from left to right: the file up to the first number between colons, that
number, a column and a severity where they are there to be taken, blanks between, and at the end the
message with its code. Each part is described by itself, with what it leaves behind, and a line on
its own is read as exactly the diagnostic that its parts give.
-/

namespace CheckWorker.Report

open Text

/-! ## Parts and what they leave behind -/

/-- A number between colons, and no other begins further to the left. -/
structure FirstNumber (text file number rest : List Char) : Prop where
  text_eq : text = file ++ ':' :: (number ++ ':' :: rest)
  isNumber : IsNumber number
  leftmost : ∀ file' number' rest', IsNumber number' →
    text = file' ++ ':' :: (number' ++ ':' :: rest') → file.length ≤ file'.length

/-- A part of a kind is taken off the front of a text, with the colon after it, if it is there. -/
def TakesPart (kind : List Char → Prop) (text part rest : List Char) : Prop :=
  (kind part ∧ text = part ++ ':' :: rest) ∨
    ((∀ part' rest', kind part' → text ≠ part' ++ ':' :: rest') ∧ part = [] ∧ rest = text)

structure SkipsBlanks (text rest : List Char) : Prop where
  blanks : ∃ blanks, (∀ c ∈ blanks, isBlank c = true) ∧ text = blanks ++ rest
  solid : ∀ c ∈ rest.head?, isBlank c = false

/-- A word says how grave a finding is, in any mixture of cases. -/
def IsSeverity (word : List Char) : Severity → Prop
  | .error => word.map Char.toLower = "error".toList
  | .note => word.map Char.toLower = "note".toList
  | .warning => word.map Char.toLower = "warning".toList

/-- A text ends in a code behind blanks, all of which come off, or it is the message as a whole. -/
def EndsAs (text message code : List Char) : Prop :=
  (∃ gap, IsGap gap ∧ IsCode code ∧ (∀ c ∈ message.getLast?, isBlank c = false) ∧
      text = message ++ (gap ++ '[' :: (code ++ [']']))) ∨
    (¬EndsInCode text ∧ message = text ∧ code = [])

/-- ASCII digits of a value that is positive and fits. -/
def InRange (digits : List Char) : Prop :=
  (∀ c ∈ digits, c.isDigit = true) ∧
    0 < Nat.ofDigitChars 10 digits 0 ∧ Nat.ofDigitChars 10 digits 0 < UInt32.size

/-- Digits in range count as their value. Others count as one, and so it is where there are none. -/
def CountsAs (digits : List Char) (n : UInt32) : Prop :=
  (InRange digits ∧ n.toNat = Nat.ofDigitChars 10 digits 0) ∨ (¬InRange digits ∧ n = 1)

/-- The parts of a line that its diagnostic is made of. -/
structure Parts where
  file : List Char
  line : List Char
  column : List Char
  severity : List Char
  message : List Char
  code : List Char

/-- The diagnostic that has the parts of a line for its fields. Where there is no file it is of the
snippet, and where there is no severity it is an error. -/
structure Parts.Gives (p : Parts) (d : Diagnostic) : Prop where
  file : d.file = if p.file = [] then "snippet.py" else String.ofList p.file
  line : CountsAs p.line d.line
  column : CountsAs p.column d.column
  severity : IsSeverity p.severity d.severity ∨ (p.severity = [] ∧ d.severity = .error)
  message : d.message = String.ofList p.message
  code : d.code = String.ofList p.code

/-- The parts of a line, with what each leaves behind. -/
structure Layout extends Parts where
  afterLine : List Char
  afterColumn : List Char
  beforeSeverity : List Char
  afterSeverity : List Char
  content : List Char

structure Layout.Of (l : Layout) (text : List Char) : Prop where
  line_first : FirstNumber text l.file l.line l.afterLine
  column_taken : TakesPart IsNumber l.afterLine l.column l.afterColumn
  blanks_skipped : SkipsBlanks l.afterColumn l.beforeSeverity
  severity_taken :
    TakesPart (fun word => ∃ s, IsSeverity word s) l.beforeSeverity l.severity l.afterSeverity
  more_skipped : SkipsBlanks l.afterSeverity l.content
  content_ends : EndsAs l.content l.message l.code

/-! ## Each part as it is read -/

theorem firstNumber_iff {text file number rest : List Char} : FirstNumber text file number rest ↔
    text = file ++ ':' :: (number ++ ':' :: rest) ∧ IsNumber number ∧
      ¬HasNumber (file ++ [':']) := by
  constructor
  · intro h
    refine ⟨h.text_eq, h.isNumber, ?_⟩
    rintro ⟨digits, hdigits, before, after, heq⟩
    -- A number inside the file would begin before the file ends.
    have htext : text = before ++ ':' :: (digits ++ ':' :: (after ++ (number ++ ':' :: rest))) := by
      have hfile : file ++ ':' :: (number ++ ':' :: rest) =
          (file ++ [':']) ++ (number ++ ':' :: rest) := by simp
      rw [h.text_eq, hfile, ← heq]
      simp
    have hle := h.leftmost before digits _ hdigits htext
    have hlength := congrArg List.length heq
    simp only [List.length_append, List.length_cons, List.length_nil] at hlength
    omega
  · rintro ⟨rfl, hnumber, hfile⟩
    refine ⟨rfl, hnumber, fun file' number' rest' hnumber' heq => Nat.le_of_not_lt fun hlt => ?_⟩
    rcases List.append_eq_append_iff.mp heq with ⟨middle, rfl, -⟩ | ⟨middle, rfl, hmiddle⟩
    · rw [List.length_append] at hlt
      omega
    · cases middle with
      | nil => simp at hlt
      | cons c middle =>
          obtain ⟨rfl, hdigits⟩ := List.cons.inj hmiddle
          have hprefix : number' ++ [':'] <+: middle ++ [':'] := by
            have hbefore : number' ++ [':'] <+: middle ++ ':' :: (number ++ ':' :: rest) := by
              refine ⟨rest', ?_⟩
              rw [List.append_assoc]
              exact hdigits
            exact prefix_of_append_colon hnumber' hbefore
          refine hfile ⟨number', hnumber', ?_⟩
          have hinfix : ':' :: (number' ++ [':']) <:+: ':' :: (middle ++ [':']) :=
            (List.cons_prefix_cons.mpr ⟨rfl, hprefix⟩).isInfix
          have hsuffix : ':' :: (middle ++ [':']) <:+ file' ++ ':' :: middle ++ [':'] :=
            ⟨file', by simp⟩
          exact hinfix.trans hsuffix.isInfix

theorem takesPart_isNumber_iff {text digits rest : List Char} :
    TakesPart IsNumber text digits rest ↔ (number? text).getD ([], text) = (digits, rest) := by
  cases hread : number? text with
  | none =>
      have hnone : ∀ part' rest', IsNumber part' → text ≠ part' ++ ':' :: rest' := by
        rintro part' rest' hpart rfl
        rw [number?_append hpart] at hread
        cases hread
      constructor
      · rintro (⟨hdigits, htext⟩ | ⟨-, rfl, rfl⟩)
        · exact absurd htext (hnone _ _ hdigits)
        · rfl
      · intro h
        obtain ⟨rfl, rfl⟩ := Prod.mk.inj h
        exact .inr ⟨hnone, rfl, rfl⟩
  | some found =>
      obtain ⟨digits', rest'⟩ := found
      obtain ⟨hdigits', rfl⟩ := eq_append_of_number? hread
      constructor
      · rintro (⟨hdigits, htext⟩ | ⟨hnone, -⟩)
        · rw [htext, number?_append hdigits] at hread
          exact (Option.some.inj hread).symm
        · exact absurd rfl (hnone _ _ hdigits')
      · intro h
        obtain ⟨rfl, rfl⟩ := Prod.mk.inj h
        exact .inl ⟨hdigits', rfl⟩

theorem isSeverity_iff {word : List Char} {s : Severity} :
    IsSeverity word s ↔ Severity.lower word = s.word.toList := by
  cases s <;> exact Iff.rfl

theorem not_isSeverity_nil (s : Severity) : ¬IsSeverity [] s := by
  intro h
  cases s <;> cases h

theorem takesPart_isSeverity_iff {text rest : List Char} {s : Severity} :
    (∃ word, TakesPart (fun word => ∃ s, IsSeverity word s) text word rest ∧
        (IsSeverity word s ∨ (word = [] ∧ s = .error))) ↔
      (severity? text).getD (.standard, text) = (s, rest) := by
  cases hread : severity? text with
  | none =>
      have hnone : ∀ part' rest', (∃ s, IsSeverity part' s) → text ≠ part' ++ ':' :: rest' := by
        rintro part' rest' ⟨t, ht⟩ rfl
        rw [severity?_append (isSeverity_iff.mp ht)] at hread
        cases hread
      constructor
      · rintro ⟨word, ⟨hword, htext⟩ | ⟨-, rfl, rfl⟩, hs⟩
        · exact absurd htext (hnone _ _ hword)
        · obtain ⟨-, rfl⟩ := hs.resolve_left (not_isSeverity_nil s)
          rfl
      · intro h
        obtain ⟨rfl, rfl⟩ := Prod.mk.inj h
        exact ⟨[], .inr ⟨hnone, rfl, rfl⟩, .inr ⟨rfl, rfl⟩⟩
  | some found =>
      obtain ⟨s', rest'⟩ := found
      obtain ⟨word', hlower, rfl⟩ := severity?_eq_some hread
      have hword' : IsSeverity word' s' := isSeverity_iff.mpr hlower
      constructor
      · rintro ⟨word, ⟨⟨t, ht⟩, htext⟩ | ⟨hnone, -⟩, hs⟩
        · have hsame : IsSeverity word s :=
            hs.resolve_right fun hnil => not_isSeverity_nil t (hnil.1 ▸ ht)
          rw [htext, severity?_append (isSeverity_iff.mp hsame)] at hread
          exact (Option.some.inj hread).symm
        · exact absurd rfl (hnone _ _ ⟨s', hword'⟩)
      · intro h
        obtain ⟨rfl, rfl⟩ := Prod.mk.inj h
        exact ⟨word', .inl ⟨⟨s', hword'⟩, rfl⟩, .inl hword'⟩

theorem skipsBlanks_iff {text rest : List Char} :
    SkipsBlanks text rest ↔ rest = trimStart text := by
  constructor
  · rintro ⟨⟨blanks, hblanks, rfl⟩, hsolid⟩
    have htrim : trimStart (blanks ++ rest) = trimStart rest :=
      List.dropWhile_append_of_pos hblanks
    rw [htrim, trimStart_of_head? hsolid]
  · rintro rfl
    obtain ⟨blanks, hblanks, htext⟩ := trimStart_spec text
    exact ⟨⟨blanks, List.all_eq_true.mp hblanks, htext⟩, head?_trimStart text⟩

theorem endsAs_iff {text message code : List Char} :
    EndsAs text message code ↔ splitCode text = (message, code) := by
  constructor
  · rintro (⟨gap, hgap, hcode, hlast, rfl⟩ | ⟨hwhole, rfl, rfl⟩)
    · rw [splitCode_append message hgap hcode, trimEnd_of_getLast? hlast]
    · exact splitCode_eq_self_iff.mpr hwhole
  · intro h
    by_cases hend : EndsInCode text
    · obtain ⟨message', gap, code', hgap, hcode, hlast, htext, hsplit⟩ := exists_of_endsInCode hend
      obtain ⟨rfl, rfl⟩ := Prod.mk.inj (hsplit.symm.trans h)
      exact .inl ⟨gap, hgap, hcode, hlast, htext⟩
    · obtain ⟨hmessage, hcode⟩ := Prod.mk.inj ((splitCode_eq_self_iff.mpr hend).symm.trans h)
      exact .inr ⟨hend, hmessage.symm, hcode.symm⟩

theorem decimalFrom_eq_none {digits : List Char} (h : ¬∀ c ∈ digits, c.isDigit = true)
    (value : Nat) : decimalFrom value digits = none := by
  induction digits generalizing value with
  | nil => exact absurd (by simp) h
  | cons c digits ih =>
      cases hc : c.isDigit with
      | false => simp [decimalFrom, hc]
      | true =>
          rw [decimalFrom, if_pos hc]
          refine ih (fun hall => h fun d hd => ?_) _
          rcases List.mem_cons.mp hd with rfl | hd
          · exact hc
          · exact hall d hd

theorem toNat_position {digits : List Char} (h : InRange digits) :
    (position digits).toNat = Nat.ofDigitChars 10 digits 0 := by
  obtain ⟨hall, hvalue⟩ := h
  cases digits with
  | nil => exact absurd hvalue.1 (Nat.lt_irrefl 0)
  | cons c digits =>
      rw [position, decimal?, decimalFrom_of_isDigit hall]
      simp only
      rw [if_pos hvalue]
      exact UInt32.toNat_ofNat_of_lt' hvalue.2

theorem position_eq_one {digits : List Char} (h : ¬InRange digits) : position digits = 1 := by
  cases digits with
  | nil => rfl
  | cons c digits =>
      by_cases hall : ∀ d ∈ c :: digits, d.isDigit = true
      · have hvalue := fun hvalue => h ⟨hall, hvalue⟩
        rw [position, decimal?, decimalFrom_of_isDigit hall]
        simp only
        rw [if_neg hvalue]
      · rw [position, decimal?, decimalFrom_eq_none hall]

theorem countsAs_iff {digits : List Char} {n : UInt32} :
    CountsAs digits n ↔ n = position digits := by
  by_cases h : InRange digits
  · rw [← UInt32.toNat_inj, toNat_position h]
    simp [CountsAs, h]
  · rw [position_eq_one h]
    simp [CountsAs, h]

/-! ## Lines -/

/-- A single line is read when a number stands between colons somewhere on it. -/
theorem isSome_diagnosticFrom_iff {text : List Char} (hline : '\n' ∉ text) (before : List Char) :
    (diagnosticFrom before text).isSome = true ↔ HasNumber text := by
  induction text generalizing before with
  | nil =>
      have hnone : ¬HasNumber [] := not_hasNumber_of_count (by decide)
      exact iff_of_false (by simp [diagnosticFrom]) hnone
  | cons c text ih =>
      have htext : '\n' ∉ text := fun hm => hline (List.mem_cons_of_mem c hm)
      have hc : c ≠ '\n' := fun hc => hline (hc ▸ List.mem_cons_self)
      have hhere : (if c = ':' then afterFile? before text else none).isSome = true ↔
          c = ':' ∧ (number? text).isSome = true := by
        by_cases hcolon : c = ':'
        · rw [if_pos hcolon, afterFile?_isSome htext]
          exact ⟨fun h => ⟨hcolon, h⟩, And.right⟩
        · rw [if_neg hcolon]
          exact iff_of_false (by simp) fun h => hcolon h.1
      rw [hasNumber_cons_iff, ← hhere, diagnosticFrom]
      cases (if c = ':' then afterFile? before text else none) with
      | some d => simp
      | none =>
          simp only [if_neg hc]
          rw [ih htext]
          simp

/-- A single line is read as what stands where its file ends. -/
theorem diagnosticFrom_eq_some_iff {text : List Char} (hline : '\n' ∉ text) {d : Diagnostic} :
    diagnosticFrom [] text = some d ↔ ∃ file rest, text = file ++ ':' :: rest ∧
      ¬HasNumber (file ++ [':']) ∧ afterFile? file.reverse rest = some d := by
  constructor
  · intro h
    simpa using exists_of_diagnosticFrom hline h
  · rintro ⟨file, rest, rfl, hfile, hd⟩
    have hfileLine : '\n' ∉ file := fun hm => hline (List.mem_append_left _ hm)
    exact diagnosticFrom_append [] hfileLine hfile (by simpa using hd)

theorem fileName_reverse (file : List Char) :
    fileName file.reverse = if file = [] then "snippet.py" else String.ofList file := by
  cases file with
  | nil => rfl
  | cons c file => simp [fileName]

theorem Parts.Gives.eq {p : Parts} {d : Diagnostic} (h : p.Gives d) :
    d = ⟨fileName p.file.reverse, position p.line, position p.column, d.severity,
      String.ofList p.message, String.ofList p.code⟩ := by
  rw [fileName_reverse, ← h.file, ← countsAs_iff.mp h.line, ← countsAs_iff.mp h.column,
    ← h.message, ← h.code]

theorem Layout.Of.body?_eq {l : Layout} {text : List Char} {s : Severity} (h : l.Of text)
    (hline : '\n' ∉ l.afterColumn)
    (hs : IsSeverity l.severity s ∨ (l.severity = [] ∧ s = .error)) :
    body? l.afterColumn = some ⟨s, l.message, l.code⟩ := by
  have hseverity := takesPart_isSeverity_iff.mp ⟨_, h.severity_taken, hs⟩
  rw [skipsBlanks_iff.mp h.blanks_skipped] at hseverity
  have hsplit : splitCode (Report.content l.afterColumn) = (l.message, l.code) := by
    rw [Report.content, hseverity, ← skipsBlanks_iff.mp h.more_skipped]
    exact endsAs_iff.mp h.content_ends
  -- On one line there is a body in any case, and it has the same message.
  obtain ⟨body, hbody⟩ := Option.isSome_iff_exists.mp (body?_isSome hline)
  obtain ⟨-, hbodySplit, hmessage⟩ := body?_eq_some_iff.mp hbody
  obtain ⟨hsame, -⟩ := Prod.mk.inj (hsplit.symm.trans hbodySplit)
  exact body?_eq_some_iff.mpr ⟨by rw [hseverity], hsplit, hsame ▸ hmessage⟩

theorem exists_layout_iff {text : List Char} (hline : '\n' ∉ text) {d : Diagnostic} :
    (∃ l : Layout, l.Of text ∧ l.Gives d) ↔ ∃ file rest, text = file ++ ':' :: rest ∧
      ¬HasNumber (file ++ [':']) ∧ afterFile? file.reverse rest = some d := by
  constructor
  · rintro ⟨l, hof, hgives⟩
    obtain ⟨rfl, hnumber, hfile⟩ := firstNumber_iff.mp hof.line_first
    have hcolumn := takesPart_isNumber_iff.mp hof.column_taken
    have htail : '\n' ∉ l.afterColumn := by
      intro hm
      have hrest : '\n' ∈ l.afterLine := mem_of_mem_column hcolumn hm
      exact hline (by simp [hrest])
    exact ⟨l.file, _, rfl, hfile, afterFile?_eq_some_iff.mpr
      ⟨l.line, l.afterLine, l.column, l.afterColumn, ⟨d.severity, l.message, l.code⟩,
        number?_append hnumber l.afterLine, hcolumn, hof.body?_eq htail hgives.severity,
        hgives.eq⟩⟩
  · rintro ⟨file, rest, rfl, hfile, hafter⟩
    obtain ⟨line, afterLine, column, afterColumn, body, hread⟩ := afterFile?_eq_some_iff.mp hafter
    obtain ⟨hnumber, rfl⟩ := eq_append_of_number? hread.line_read
    obtain ⟨hseverity, hsplit, -⟩ := body?_eq_some_iff.mp hread.body_read
    obtain ⟨word, hword, hs⟩ := takesPart_isSeverity_iff.mpr
      (Prod.ext hseverity.symm (rfl : ((severity? (trimStart afterColumn)).getD _).2 = _))
    refine ⟨{
      file, line, afterLine, column, afterColumn
      beforeSeverity := trimStart afterColumn
      severity := word
      afterSeverity :=
        ((severity? (trimStart afterColumn)).getD (.standard, trimStart afterColumn)).2
      content := content afterColumn
      message := body.message
      code := body.code }, ?_, ?_⟩
    · exact {
        line_first := firstNumber_iff.mpr ⟨rfl, hnumber, hfile⟩
        column_taken := takesPart_isNumber_iff.mpr hread.column_read
        blanks_skipped := skipsBlanks_iff.mpr rfl
        severity_taken := hword
        more_skipped := skipsBlanks_iff.mpr rfl
        content_ends := endsAs_iff.mpr hsplit }
    · rw [hread.assembled]
      exact {
        file := fileName_reverse file
        line := countsAs_iff.mpr rfl
        column := countsAs_iff.mpr rfl
        severity := hs
        message := rfl
        code := rfl }

end CheckWorker.Report

namespace CheckWorker.Diagnostic

open Report

/-- A line on its own is read when a number stands between colons on it, and it is read as what its
parts give, taken from left to right. -/
theorem ofLine?_eq_layout (line : String) (h : '\n' ∉ line.toList) :
    ((ofLine? line).isSome = true ↔
        ∃ digits, IsNumber digits ∧ ':' :: (digits ++ [':']) <:+: line.toList) ∧
      ∀ d, ofLine? line = some d ↔ ∃ l : Layout, l.Of line.toList ∧ l.Gives d := by
  constructor
  · exact isSome_diagnosticFrom_iff h []
  · intro d
    rw [exists_layout_iff h]
    exact diagnosticFrom_eq_some_iff h

/-- A path with a colon, leading zeros, a column in digits of another script, a severity in mixed
cases, and brackets in the message. -/
theorem layout_of_mixed_line :
    '\n' ∉ "C:9.py:007:\u0663: nOTe:\u2003see [a]\t [x-1]".toList ∧
      (∃ digits, IsNumber digits ∧ ':' :: (digits ++ [':']) <:+:
        "C:9.py:007:\u0663: nOTe:\u2003see [a]\t [x-1]".toList) ∧
      ∃ l : Layout, l.Of "C:9.py:007:\u0663: nOTe:\u2003see [a]\t [x-1]".toList ∧
        l.Gives ⟨"C:9.py", 7, 1, .note, "see [a]", "x-1"⟩ := by
  have hline : '\n' ∉ "C:9.py:007:\u0663: nOTe:\u2003see [a]\t [x-1]".toList := by decide
  have hread : ofLine? "C:9.py:007:\u0663: nOTe:\u2003see [a]\t [x-1]" =
      some ⟨"C:9.py", 7, 1, .note, "see [a]", "x-1"⟩ := by decide +kernel
  obtain ⟨hsome, hlayout⟩ := ofLine?_eq_layout _ hline
  exact ⟨hline, hsome.mp (by rw [hread]; rfl), (hlayout _).mp hread⟩

end CheckWorker.Diagnostic
