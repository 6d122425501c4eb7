import CheckWorker.Proofs.Report.Place

/-!
# Diagnostics as they are written and read

The diagnostics that a single line can hold are the printable ones, and a printable diagnostic is
read back from the line that is printed for it.
-/

namespace CheckWorker

open Report

namespace Diagnostic

/-- A diagnostic can be told from its line: no part of it can be taken for a part of another. -/
structure Printable (d : Diagnostic) : Prop where
  file_ne : d.file ≠ ""
  file_line : '\n' ∉ d.file.toList
  file_position : ¬HasNumber (d.file.toList ++ [':'])
  line_ne : d.line ≠ 0
  column_ne : d.column ≠ 0
  message_line : '\n' ∉ d.message.toList
  message_head : ∀ c ∈ d.message.toList.head?, Text.isBlank c = false
  code_chars : ∀ c ∈ d.code.toList, isCodeChar c = true
  message_ne : d.code ≠ "" → d.message ≠ ""
  message_last : d.code ≠ "" → ∀ c ∈ d.message.toList.getLast?, Text.isBlank c = false
  message_whole : d.code = "" → ¬EndsInCode d.message.toList

theorem Printable.separable {d : Diagnostic} (h : d.Printable) :
    Separable d.message.toList d.code.toList where
  message_line := h.message_line
  message_head := h.message_head
  code_chars := h.code_chars
  message_ne hne := by simpa using h.message_ne (by simpa using hne)
  message_last hne := h.message_last (by simpa using hne)
  message_whole hcode := h.message_whole (by simpa using hcode)

/-! ## What is printed -/

theorem toList_codeText (code : String) : (codeText code).toList = codeTail code.toList := by
  unfold codeText codeTail
  by_cases hcode : code = ""
  · subst hcode
    rfl
  · have htext : code.isEmpty = false := by simpa using hcode
    have hlist : code.toList.isEmpty = false := by simpa using hcode
    rw [htext, hlist]
    simp

theorem toList_bodyText (d : Diagnostic) :
    d.bodyText.toList =
      d.severity.word.toList ++ ':' :: ' ' :: (d.message.toList ++ codeTail d.code.toList) := by
  simp [bodyText, toList_codeText]

/-- A file and a position, and the body after a blank. -/
theorem toList_toLine (d : Diagnostic) :
    d.toLine.toList = d.file.toList ++ ':' :: (Nat.toDigits 10 d.line.toNat ++
      ':' :: (Nat.toDigits 10 d.column.toNat ++ ':' :: ' ' :: d.bodyText.toList)) := by
  simp [toLine]

theorem toList_toLineWithoutColumn (d : Diagnostic) :
    d.toLineWithoutColumn.toList = d.file.toList ++ ':' :: (Nat.toDigits 10 d.line.toNat ++
      ':' :: ' ' :: d.bodyText.toList) := by
  simp [toLineWithoutColumn]

/-! ## From the diagnostic to the line and back -/

theorem Printable.fileName_eq {d : Diagnostic} (h : d.Printable) :
    fileName d.file.toList.reverse = d.file := by
  have hfile : d.file.toList.reverse.isEmpty = false := by simpa using h.file_ne
  rw [fileName, hfile]
  simp

/-- The file of a printable diagnostic ends where it should, whatever is read after it. -/
theorem Printable.ofLine?_eq {d found : Diagnostic} (h : d.Printable) {line : String}
    {rest : List Char} (hline : line.toList = d.file.toList ++ ':' :: rest)
    (hfound : afterFile? d.file.toList.reverse rest = some found) : ofLine? line = some found := by
  rw [ofLine?, hline]
  exact diagnosticFrom_append [] h.file_line h.file_position (by simpa using hfound)

theorem Printable.body?_bodyText {d : Diagnostic} (h : d.Printable) :
    body? (' ' :: d.bodyText.toList) = some ⟨d.severity, d.message.toList, d.code.toList⟩ := by
  rw [toList_bodyText]
  exact body?_written d.severity h.separable

theorem Printable.ofLine?_toLine {d : Diagnostic} (h : d.Printable) :
    ofLine? d.toLine = some d := by
  have hcolumn := number?_append (isNumber_toDigits d.column.toNat) (' ' :: d.bodyText.toList)
  refine h.ofLine?_eq d.toList_toLine (afterFile?_eq_some_iff.mpr
    ⟨_, _, Nat.toDigits 10 d.column.toNat, _, _, number?_append (isNumber_toDigits _) _, ?_,
      h.body?_bodyText, ?_⟩)
  · rw [hcolumn, Option.getD_some]
  · rw [h.fileName_eq, position_toDigits h.line_ne, position_toDigits h.column_ne]
    simp

theorem Printable.ofLine?_toLineWithoutColumn {d : Diagnostic} (h : d.Printable) :
    ofLine? d.toLineWithoutColumn = some { d with column := 1 } := by
  have hcolumn : number? (' ' :: d.bodyText.toList) = none :=
    number?_cons_of_not_isDigit (by decide) _
  refine h.ofLine?_eq d.toList_toLineWithoutColumn (afterFile?_eq_some_iff.mpr
    ⟨_, _, [], _, _, number?_append (isNumber_toDigits _) _, ?_, h.body?_bodyText, ?_⟩)
  · rw [hcolumn, Option.getD_none]
  · rw [h.fileName_eq, position_toDigits h.line_ne]
    simp [position, Text.decimal?]

/-! ## From the line to the diagnostic -/

theorem fileName_ne (file : List Char) : fileName file ≠ "" := by
  unfold fileName
  split
  · decide
  · next h => simpa using h

theorem toList_fileName (file : List Char) :
    (fileName file.reverse).toList = file ∨
      (fileName file.reverse).toList = standardFile.toList := by
  unfold fileName
  split
  · exact .inr rfl
  · exact .inl (by simp)

theorem printable_of_ofLine? {line : String} {d : Diagnostic} (hline : '\n' ∉ line.toList)
    (h : ofLine? line = some d) : d.Printable := by
  obtain ⟨file, text, htext, hnumber, hafter⟩ := exists_of_diagnosticFrom hline h
  rw [List.append_nil] at hafter
  obtain ⟨number, rest, column, tail, body, hread⟩ := afterFile?_eq_some_iff.mp hafter
  have hfile : '\n' ∉ file := fun hm => hline (htext ▸ List.mem_append_left _ hm)
  have hsep := separable_of_body? hread.body_read
  rw [hread.assembled]
  refine {
    file_ne := fileName_ne _
    file_line := ?_
    file_position := ?_
    line_ne := position_ne_zero number
    column_ne := position_ne_zero column
    message_line := by simpa using hsep.message_line
    message_head := by simpa using hsep.message_head
    code_chars := by simpa using hsep.code_chars
    message_ne := by simpa using hsep.message_ne
    message_last := by simpa using hsep.message_last
    message_whole := by simpa using hsep.message_whole }
  · rcases toList_fileName file with hname | hname
    · rwa [hname]
    · rw [hname]
      decide
  · rcases toList_fileName file with hname | hname
    · rwa [hname]
    · rw [hname]
      exact not_hasNumber_of_count (by decide)

/-- A printable diagnostic is read back from its line, with or without its column, and only
printable diagnostics are ever read from a line. -/
theorem roundTrip :
    (∀ d : Diagnostic, d.Printable →
      ofLine? d.toLine = some d ∧ ofLine? d.toLineWithoutColumn = some { d with column := 1 }) ∧
    ∀ (line : String) (d : Diagnostic), '\n' ∉ line.toList → ofLine? line = some d →
      d.Printable ∧ ofLine? d.toLine = some d := by
  constructor
  · intro d h
    exact ⟨h.ofLine?_toLine, h.ofLine?_toLineWithoutColumn⟩
  · intro line d hline h
    have hd : d.Printable := printable_of_ofLine? hline h
    exact ⟨hd, hd.ofLine?_toLine⟩

/-- A path with colons and a message that ends in brackets, at the largest position. -/
theorem roundTrip_colons_and_brackets :
    ofLine? "C:9.py:4294967295:007: warning: see [a]\t[x-1]" =
        some ⟨"C:9.py", 4294967295, 7, .warning, "see [a]", "x-1"⟩ ∧
      ofLine? "C:9.py:4294967295:7: warning: see [a]  [x-1]" =
        some ⟨"C:9.py", 4294967295, 7, .warning, "see [a]", "x-1"⟩ ∧
      ofLine? "C:9.py:4294967295: warning: see [a]  [x-1]" =
        some ⟨"C:9.py", 4294967295, 1, .warning, "see [a]", "x-1"⟩ := by
  have hread : ofLine? "C:9.py:4294967295:007: warning: see [a]\t[x-1]" =
      some ⟨"C:9.py", 4294967295, 7, .warning, "see [a]", "x-1"⟩ := by decide +kernel
  obtain ⟨hprintable, hback⟩ := roundTrip.2 _ _ (by decide) hread
  exact ⟨hread, hback, (roundTrip.1 _ hprintable).2⟩

end Diagnostic

end CheckWorker
