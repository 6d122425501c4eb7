import CheckWorker.Proofs.Report.Blocked
import CheckWorker.Proofs.Report.Layout
import CheckWorker.Proofs.Report.Ways

/-!
# The first way of a report line

The pattern of a report line can match a text in many ways, but nothing is gained by giving back
blanks, a severity or a column, since a blocked message stays blocked. Only the end of the file is
ever tried at several places, in the order in which the file is sought. So the first way is the one
that a line is read in.
-/

namespace CheckWorker.Report

open Text

/-! ## Parts that match in one way -/

/-- What is captured of a code. -/
def codeCaptures (code : List Char) : Captures :=
  if code.isEmpty then [] else [(.code, code)]

/-- What is captured of a severity at the front of a text. -/
def severityCaptures (text : List Char) : Captures :=
  match severity? text with
  | some (s, _) => [(.severity, text.take s.word.length)]
  | none => []

/-- What is captured of a message and the code after it. -/
def endCaptures (text : List Char) : Captures :=
  (.message, (splitCode text).1) :: codeCaptures (splitCode text).2

namespace Pattern

theorem readBy_numberPart (name : Part) : ReadBy (numberPart name)
    fun text => (number? text).map fun (digits, rest) => ([(name, digits)], rest) := by
  intro text found rest
  simp only [numberPart, mem_ways_andThen, mem_ways_part_some, mem_ways_literal]
  constructor
  · rintro ⟨_, _, _, ⟨digits, hne, hdigits, rfl, rfl⟩, ⟨rfl, rfl⟩, rfl⟩
    rw [number?_append ⟨hne, hdigits⟩]
    rfl
  · intro h
    obtain ⟨⟨digits, tail⟩, hread, hfound⟩ := Option.map_eq_some_iff.mp h
    obtain ⟨rfl, rfl⟩ := Prod.mk.inj hfound
    obtain ⟨hdigits, rfl⟩ := eq_append_of_number? hread
    exact ⟨_, _, [], ⟨digits, hdigits.ne_nil, hdigits.isDigit, rfl, rfl⟩, ⟨rfl, rfl⟩, rfl⟩

theorem mem_ways_severityWord {found : Captures} {text rest : List Char} :
    (found, rest) ∈ severityWord.ways text ↔ found = [] ∧ ∃ (s : Severity) (word : List Char),
      Severity.lower word = s.word.toList ∧ text = word ++ rest := by
  simp only [severityWord, mem_ways_orElse, mem_ways_word]
  constructor
  · rintro (⟨rfl, h⟩ | ⟨rfl, h⟩ | ⟨rfl, h⟩)
    · exact ⟨rfl, .error, h⟩
    · exact ⟨rfl, .note, h⟩
    · exact ⟨rfl, .warning, h⟩
  · rintro ⟨rfl, s, h⟩
    cases s with
    | error => exact .inl ⟨rfl, h⟩
    | note => exact .inr (.inl ⟨rfl, h⟩)
    | warning => exact .inr (.inr ⟨rfl, h⟩)

theorem readBy_severityPart : ReadBy (andThen (part .severity severityWord) (literal ':'))
    fun text => (severity? text).map fun (s, rest) =>
      ([(.severity, text.take s.word.length)], rest) := by
  intro text found rest
  simp only [mem_ways_andThen, mem_ways_part, mem_ways_severityWord, mem_ways_literal]
  constructor
  · rintro ⟨_, _, _, ⟨_, ⟨rfl, s, word, hword, rfl⟩, rfl⟩, ⟨rfl, rfl⟩, rfl⟩
    rw [severity?_append hword, take_append_sub]
    simp [length_of_lower hword]
  · intro h
    obtain ⟨⟨s, tail⟩, hread, hfound⟩ := Option.map_eq_some_iff.mp h
    obtain ⟨rfl, rfl⟩ := Prod.mk.inj hfound
    obtain ⟨word, hword, rfl⟩ := severity?_eq_some hread
    refine ⟨_, _, [], ⟨[], ⟨rfl, s, word, hword, rfl⟩, rfl⟩, ⟨rfl, rfl⟩, ?_⟩
    rw [take_append_sub, length_of_lower hword, List.take_left]
    rfl

theorem mem_ways_codePart {found : Captures} {text rest : List Char} :
    (found, rest) ∈ codePart.ways text ↔ ∃ gap code, IsGap gap ∧ IsCode code ∧
      text = gap ++ '[' :: (code ++ ']' :: rest) ∧ found = [(.code, code)] := by
  simp only [codePart, inOrder, mem_ways_andThen, mem_ways_some, mem_ways_literal,
    mem_ways_part_some]
  constructor
  · rintro ⟨_, _, _, ⟨rfl, gap, hgap, hblank, rfl⟩, ⟨_, _, _, ⟨rfl, rfl⟩,
      ⟨_, _, _, ⟨code, hcode, hchars, rfl, rfl⟩, ⟨rfl, rfl⟩, rfl⟩, rfl⟩, rfl⟩
    exact ⟨gap, code, ⟨hgap, hblank⟩, ⟨hcode, hchars⟩, rfl, rfl⟩
  · rintro ⟨gap, code, hgap, hcode, rfl, rfl⟩
    exact ⟨[], _, _, ⟨rfl, gap, hgap.ne_nil, hgap.isBlank, rfl⟩, ⟨[], _, _, ⟨rfl, rfl⟩,
      ⟨_, _, [], ⟨code, hcode.ne_nil, hcode.isCodeChar, rfl, rfl⟩, ⟨rfl, rfl⟩, rfl⟩, rfl⟩, rfl⟩

/-- The end of a line: a code or nothing. -/
def closing : Pattern :=
  andThen (maybe codePart) atEnd

theorem mem_ways_closing {found : Captures} {text rest : List Char} :
    (found, rest) ∈ closing.ways text ↔ rest = [] ∧
      ((text = [] ∧ found = []) ∨ ∃ gap code, IsGap gap ∧ IsCode code ∧
        text = gap ++ '[' :: (code ++ [']']) ∧ found = [(.code, code)]) := by
  have hend (more : Captures) (left : List Char) :
      (more, rest) ∈ atEnd.ways left ↔ left = [] ∧ more = [] ∧ rest = [] := by
    cases left <;> simp [ways]
  simp only [closing, mem_ways_andThen, maybe, mem_ways_orElse, mem_ways_codePart, hend]
  constructor
  · rintro ⟨_, _, _, ⟨gap, code, hgap, hcode, rfl, rfl⟩ | hnothing, ⟨rfl, rfl, rfl⟩, rfl⟩
    · exact ⟨rfl, .inr ⟨gap, code, hgap, hcode, rfl, rfl⟩⟩
    · obtain ⟨rfl, rfl⟩ : _ = [] ∧ [] = text := by simpa [ways] using hnothing
      exact ⟨rfl, .inl ⟨rfl, rfl⟩⟩
  · rintro ⟨rfl, ⟨rfl, rfl⟩ | ⟨gap, code, hgap, hcode, rfl, rfl⟩⟩
    · exact ⟨[], [], [], .inr (by simp [ways]), ⟨rfl, rfl, rfl⟩, rfl⟩
    · exact ⟨_, [], [], .inl ⟨gap, code, hgap, hcode, rfl, rfl⟩, ⟨rfl, rfl, rfl⟩, rfl⟩

theorem readBy_closing : ReadBy closing fun text =>
    if (splitCode text).1 = [] then .some (codeCaptures (splitCode text).2, []) else none := by
  intro text found rest
  rw [mem_ways_closing]
  change _ ↔ (if (splitCode text).1 = [] then
    Option.some (codeCaptures (splitCode text).2, ([] : List Char)) else none) = .some (found, rest)
  constructor
  · rintro ⟨rfl, ⟨rfl, rfl⟩ | ⟨gap, code, hgap, hcode, rfl, rfl⟩⟩
    · rfl
    · have hne : code.isEmpty = false := by simpa using hcode.ne_nil
      rw [splitCode_gap hgap hcode, if_pos rfl, codeCaptures, hne]
      rfl
  · intro h
    split at h
    case isFalse => cases h
    case isTrue hnil =>
      obtain ⟨rfl, rfl⟩ := Prod.mk.inj (Option.some.inj h)
      refine ⟨rfl, ?_⟩
      rcases splitCode_cases text with hend | hwhole
      · obtain ⟨message, gap, code, hgap, hcode, -, htext, hsplit⟩ := exists_of_endsInCode hend
        obtain rfl : message = [] := by rwa [hsplit] at hnil
        have hne : code.isEmpty = false := by simpa using hcode.ne_nil
        rw [hsplit, codeCaptures, hne]
        exact .inr ⟨gap, code, hgap, hcode, htext, rfl⟩
      · rw [hwhole] at hnil ⊢
        exact .inl ⟨hnil, rfl⟩

theorem first?_closing {text : List Char} : closing.first? text =
    if (splitCode text).1 = [] then .some (codeCaptures (splitCode text).2) else none := by
  rw [readBy_closing.first?_eq]
  split <;> rfl

/-! ## The parts of a line, from its end -/

/-- A message and the end of the line. -/
def ending : Pattern :=
  andThen (part .message (many false isInLine)) closing

theorem first?_ending (text : List Char) :
    ending.first? text = if Blocked text then none else .some (endCaptures text) := by
  have hruns : ending.first? text = (runs false isInLine text).findSome? fun rest =>
      (closing.first? rest).map
        ((.message, text.take (text.length - rest.length)) :: ·) := by
    rw [ending, first?_andThen, ways, ways, List.map_map, List.findSome?_map]
    rfl
  have hinLine (run : List Char) : (∀ c ∈ run, isInLine c = true) ↔ '\n' ∉ run := by
    simp only [isInLine, bne_iff_ne]
    exact ⟨fun h hm => h _ hm rfl, fun h c hc heq => h (heq ▸ hc)⟩
  rw [hruns]
  split
  case isTrue hblocked =>
    refine List.findSome?_eq_none_iff.mpr fun rest hrest => ?_
    obtain ⟨run, hrun, rfl⟩ := mem_runs.mp hrest
    have hclosed : (splitCode rest).1 ≠ [] := fun hnil =>
      (hinLine run).mp hrun ((splitCode_initial hnil).subset hblocked)
    rw [first?_closing, if_neg hclosed]
    rfl
  case isFalse hfree =>
    obtain ⟨rest, htext, hrest⟩ := exists_after_message text
    have hclosing : closing.first? rest = .some (codeCaptures (splitCode text).2) := by
      rw [first?_closing, hrest, if_pos rfl]
    have htake : text.take (text.length - rest.length) = (splitCode text).1 := by
      rw [htext, take_append_sub, ← htext]
    have hfound := findSome?_runs_eq_some (f := fun rest => (closing.first? rest).map
        ((.message, text.take (text.length - rest.length)) :: ·))
      (a := endCaptures text) rest ((hinLine _).mpr hfree)
      (by rw [hclosing, htake]; rfl)
      (by
        intro shorter left hleft hlt
        rw [← htext] at hleft
        have hopen : (splitCode left).1 ≠ [] := by
          intro hnil
          have hinitial : (splitCode (shorter ++ left)).1 <+: shorter := splitCode_initial hnil
          have hle := hinitial.length_le
          rw [← hleft] at hle
          omega
        rw [first?_closing, if_neg hopen]
        rfl)
    rwa [← htext] at hfound

theorem blocked_of_none {text : List Char} {found : Captures}
    (h : (if Blocked text then none else Option.some found) = none) : Blocked text := by
  split at h
  · assumption
  · cases h

/-- The end of a line after blanks. -/
def said : Pattern :=
  andThen (many true isBlank) ending

theorem first?_said (text : List Char) : said.first? text =
    if Blocked (trimStart text) then none else .some (endCaptures (trimStart text)) := by
  rw [said, first?_greedy_andThen]
  · exact first?_ending (trimStart text)
  · intro hnone run _
    rw [← trimStart, first?_ending] at hnone
    rw [← trimStart, first?_ending, if_pos ((blocked_of_none hnone).append run)]

/-- A severity and what it is said of. -/
def graded : Pattern :=
  andThen (maybe (andThen (part .severity severityWord) (literal ':'))) said

theorem first?_graded (text : List Char) : graded.first? text =
    if Blocked (afterSeverity text) then none
    else .some (severityCaptures text ++ endCaptures (afterSeverity text)) := by
  rw [graded, first?_maybe_andThen, readBy_severityPart.first?_andThen, first?_said,
    severityCaptures]
  cases hread : severity? text with
  | none => rw [afterSeverity_of_none hread, Option.map_none, Option.bind_none, Option.none_or]; rfl
  | some found =>
      obtain ⟨s, rest⟩ := found
      simp only [afterSeverity_of_some hread, Option.map_some, Option.bind_some, first?_said]
      by_cases hblocked : Blocked (trimStart rest)
      · have hstay : Blocked (trimStart text) :=
          Blocked.before_severity (by rwa [afterSeverity_of_some hread])
        rw [if_pos hblocked, if_pos hblocked, if_pos hstay]
        rfl
      · rw [if_neg hblocked, if_neg hblocked]
        rfl

/-- What follows the position of a diagnostic. -/
def saying : Pattern :=
  andThen (many true isBlank) graded

theorem first?_saying (text : List Char) : saying.first? text =
    if Blocked (content text) then none
    else .some (severityCaptures (trimStart text) ++ endCaptures (content text)) := by
  rw [saying, first?_greedy_andThen]
  · exact first?_graded (trimStart text)
  · intro hnone run hrun
    rw [← trimStart, first?_graded] at hnone
    have hblocked : Blocked (content text) := blocked_of_none hnone
    rw [← trimStart]
    cases run with
    | nil => rw [List.nil_append, first?_graded, ← content_eq, if_pos hblocked]
    | cons c run =>
        -- A blank at the front keeps a severity from being read.
        have hread := severity?_cons_blank (hrun c List.mem_cons_self) (run ++ trimStart text)
        have hleft : afterSeverity (c :: run ++ trimStart text) = trimStart text := by
          rw [List.cons_append, afterSeverity_of_none hread, ← List.cons_append, trimStart,
            List.dropWhile_append_of_pos hrun]
          exact trimStart_trimStart text
        rw [first?_graded, hleft, if_pos hblocked.before_content]

/-- A column and what follows the position. -/
def placed : Pattern :=
  andThen (maybe (numberPart .column)) saying

/-- What is captured of a column at the front of a text. -/
def columnCaptures (text : List Char) : Captures :=
  match number? text with
  | .some (column, _) => [(.column, column)]
  | none => []

theorem first?_placed (text : List Char) : placed.first? text =
    (saying.first? ((number? text).getD ([], text)).2).map (columnCaptures text ++ ·) := by
  rw [placed, first?_maybe_andThen, (readBy_numberPart .column).first?_andThen, columnCaptures]
  cases hread : number? text with
  | none =>
      rw [Option.map_none, Option.bind_none, Option.none_or, Option.getD_none]
      exact (Option.map_id_apply).symm
  | some found =>
      obtain ⟨column, rest⟩ := found
      obtain ⟨hcolumn, rfl⟩ := eq_append_of_number? hread
      simp only [Option.map_some, Option.bind_some, Option.getD_some]
      by_cases hblocked : Blocked (content rest)
      · have hstay := hblocked.before_number hcolumn
        rw [first?_saying, first?_saying, if_pos hblocked, if_pos hstay]
        rfl
      · rw [first?_saying, if_neg hblocked]
        rfl

/-- The position of a diagnostic and all that follows. -/
def numbered : Pattern :=
  andThen (numberPart .line) placed

/-- What is captured of a line after its file, when its number and the text after it are given. -/
def numberedCaptures (line rest : List Char) : Captures :=
  let tail := ((number? rest).getD ([], rest)).2
  (.line, line) :: (columnCaptures rest ++
    (severityCaptures (trimStart tail) ++ endCaptures (content tail)))

theorem first?_numbered (text : List Char) : numbered.first? text =
    (number? text).bind fun (line, rest) =>
      if Blocked (content ((number? rest).getD ([], rest)).2) then none
      else .some (numberedCaptures line rest) := by
  rw [numbered, (readBy_numberPart .line).first?_andThen]
  cases hline : number? text with
  | none => rfl
  | some found =>
      obtain ⟨line, rest⟩ := found
      simp only [Option.map_some, Option.bind_some, first?_placed, first?_saying]
      by_cases hblocked : Blocked (content ((number? rest).getD ([], rest)).2)
      · rw [if_pos hblocked, if_pos hblocked]
        rfl
      · rw [if_neg hblocked, if_neg hblocked]
        rfl

theorem line_eq :
    line = andThen (part .file (many false isInLine)) (andThen (literal ':') numbered) :=
  rfl

end Pattern

/-! ## Diagnostics -/

theorem body?_eq (text : List Char) : body? text =
    if Blocked (content text) then none
    else some ⟨((severity? (trimStart text)).getD (.standard, trimStart text)).1,
      (splitCode (content text)).1, (splitCode (content text)).2⟩ :=
  rfl

/-- What is captured of a severity is its word, or nothing. -/
theorem isSeverity_severityCaptures (text : List Char) :
    let word := ((severityCaptures text).lookup .severity).getD []
    let s := ((severity? text).getD (.standard, text)).1
    IsSeverity word s ∨ word = [] ∧ s = .error := by
  intro word s
  cases hread : severity? text with
  | none =>
      have hword : word = [] := by simp [word, severityCaptures, hread]
      have hs : s = .error := by
        simp only [s, hread]
        rfl
      exact .inr ⟨hword, hs⟩
  | some found =>
      obtain ⟨t, rest⟩ := found
      obtain ⟨written, hwritten, rfl⟩ := severity?_eq_some hread
      have hword : word = written := by
        simp [word, severityCaptures, hread, length_of_lower hwritten]
      have hs : s = t := by simp [s, hread]
      rw [hword, hs]
      exact .inl (isSeverity_iff.mpr hwritten)

theorem severity_unique {word : List Char} {s t : Severity}
    (hs : IsSeverity word s ∨ word = [] ∧ s = .error)
    (ht : IsSeverity word t ∨ word = [] ∧ t = .error) : s = t := by
  rcases hs with hs | ⟨rfl, rfl⟩
  · rcases ht with ht | ⟨rfl, -⟩
    · apply word_injective
      exact (isSeverity_iff.mp hs).symm.trans (isSeverity_iff.mp ht)
    · exact absurd hs (not_isSeverity_nil s)
  · rcases ht with ht | ⟨-, rfl⟩
    · exact absurd ht (not_isSeverity_nil t)
    · rfl

/-- The parts of a line that are captured of it. A part that is not captured is empty. -/
def partsOf (found : Captures) : Parts :=
  let textOf (name : Part) := (found.lookup name).getD []
  { file := textOf .file
    line := textOf .line
    column := textOf .column
    severity := textOf .severity
    message := textOf .message
    code := textOf .code }

theorem partsOf_captures (file line rest text tail : List Char) :
    partsOf ((.file, file) :: (.line, line) ::
        (Pattern.columnCaptures rest ++ (severityCaptures text ++ endCaptures tail))) =
      { file, line
        column := ((number? rest).getD ([], rest)).1
        severity := ((severityCaptures text).lookup .severity).getD []
        message := (splitCode tail).1
        code := (splitCode tail).2 } := by
  unfold Pattern.columnCaptures severityCaptures endCaptures codeCaptures
  cases number? rest <;> cases severity? text <;> cases (splitCode tail).2 <;> rfl

/-- A diagnostic is the one that captures give, and no other is. -/
def GivesOnly (found : Captures) (d : Diagnostic) : Prop :=
  ∀ d', (partsOf found).Gives d' ↔ d' = d

theorem givesOnly_numberedCaptures (file line rest : List Char) {body : Body}
    (hbody : body? ((number? rest).getD ([], rest)).2 = some body) :
    GivesOnly ((.file, file.reverse) :: Pattern.numberedCaptures line rest)
      { file := fileName file
        line := position line
        column := position ((number? rest).getD ([], rest)).1
        severity := body.severity
        message := String.ofList body.message
        code := String.ofList body.code } := by
  obtain ⟨hseverity, hsplit, -⟩ := body?_eq_some_iff.mp hbody
  have hword := isSeverity_severityCaptures (trimStart ((number? rest).getD ([], rest)).2)
  simp only [← hseverity] at hword
  intro d
  rw [Pattern.numberedCaptures, partsOf_captures, hsplit]
  constructor
  · intro h
    have hd := h.eq
    rw [List.reverse_reverse, severity_unique h.severity hword] at hd
    exact hd
  · rintro rfl
    exact {
      file := by rw [← fileName_reverse, List.reverse_reverse]
      line := countsAs_iff.mpr rfl
      column := countsAs_iff.mpr rfl
      severity := hword
      message := rfl
      code := rfl }

/-- What is captured of a line after its file gives what is read there. -/
theorem rel_afterFile? (file text : List Char) :
    Option.Rel (fun found d => GivesOnly ((.file, file.reverse) :: found) d)
      (Pattern.numbered.first? text) (afterFile? file text) := by
  rw [Pattern.first?_numbered, afterFile?]
  cases number? text with
  | none => exact .none
  | some found =>
      obtain ⟨line, rest⟩ := found
      have hbody := body?_eq ((number? rest).getD ([], rest)).2
      simp only [Option.bind_eq_bind, Option.bind_some]
      by_cases hblocked : Blocked (content ((number? rest).getD ([], rest)).2)
      · rw [if_pos hblocked] at hbody ⊢
        rw [hbody]
        exact .none
      · rw [if_neg hblocked] at hbody ⊢
        rw [hbody]
        exact .some (givesOnly_numberedCaptures file line rest hbody)

theorem first?_colon (c : Char) (text : List Char) :
    (Pattern.andThen (Pattern.literal ':') Pattern.numbered).first? (c :: text) =
      if c = ':' then Pattern.numbered.first? text else none := by
  rw [Pattern.first?_andThen, Pattern.literal, Pattern.ways]
  by_cases hc : c = ':'
  · subst hc
    simp
  · rw [if_neg (by simpa using hc), if_neg hc]
    rfl

/-- What is captured of a line whose file may end here gives what is read there. -/
theorem rel_here (file text : List Char) (c : Char) : Option.Rel GivesOnly
    (((Pattern.andThen (Pattern.literal ':') Pattern.numbered).first? (c :: text)).map
      ((.file, file.reverse) :: ·)) (if c = ':' then afterFile? file text else none) := by
  rw [first?_colon]
  by_cases hc : c = ':'
  · rw [if_pos hc, if_pos hc]
    have hafter := rel_afterFile? file text
    generalize Pattern.numbered.first? text = first at hafter ⊢
    generalize afterFile? file text = read at hafter ⊢
    cases hafter with
    | none => exact .none
    | some h => exact .some h
  · rw [if_neg hc, if_neg hc]
    exact .none

/-- The places where a file may end are tried in the same order, each with the same outcome. -/
theorem rel_diagnosticFrom (file text : List Char) : Option.Rel GivesOnly
    ((Pattern.runs false Pattern.isInLine text).findSome? fun rest =>
      ((Pattern.andThen (Pattern.literal ':') Pattern.numbered).first? rest).map
        ((.file, (file.reverse ++ text).take
          ((file.reverse ++ text).length - rest.length)) :: ·)) (diagnosticFrom file text) := by
  induction text generalizing file with
  | nil => exact .none
  | cons c text ih =>
      have htake : (file.reverse ++ c :: text).take
          ((file.reverse ++ c :: text).length - (c :: text).length) = file.reverse :=
        Pattern.take_append_sub file.reverse (c :: text)
      have hhere := rel_here file text c
      have hnext := ih (c :: file)
      rw [List.reverse_cons, List.append_assoc, List.singleton_append] at hnext
      by_cases hc : c = '\n'
      · subst hc
        exact .none
      · have hruns : Pattern.runs false Pattern.isInLine (c :: text) =
            (c :: text) :: Pattern.runs false Pattern.isInLine text := by
          simp [Pattern.runs, Pattern.isInLine, hc]
        rw [hruns, List.findSome?_cons, htake, diagnosticFrom]
        generalize (if c = ':' then afterFile? file text else none) = read at hhere ⊢
        generalize ((Pattern.andThen (Pattern.literal ':') Pattern.numbered).first?
          (c :: text)).map ((Part.file, file.reverse) :: ·) = first at hhere ⊢
        cases hhere with
        | none =>
            simp only [if_neg hc]
            exact hnext
        | some h => exact .some h

end CheckWorker.Report

namespace CheckWorker.Diagnostic

open Report

/-- A line is read in the first of the ways that its pattern has, as what the parts captured in that
way give, and refused when its pattern has none. -/
theorem ofLine?_eq_first? (line : String) :
    (ofLine? line = none ↔ Pattern.line.ways line.toList = []) ∧
      ∀ d, ofLine? line = some d ↔
        ∃ found, Pattern.line.first? line.toList = some found ∧ (partsOf found).Gives d := by
  have hread : Option.Rel GivesOnly (Pattern.line.first? line.toList) (ofLine? line) := by
    have hfrom := rel_diagnosticFrom [] line.toList
    rw [Pattern.line_eq, Pattern.first?_andThen, Pattern.ways, Pattern.ways, List.map_map,
      List.findSome?_map]
    exact hfrom
  rw [← Pattern.first?_eq_none_iff]
  generalize Pattern.line.first? line.toList = first at hread
  generalize ofLine? line = read at hread
  cases hread with
  | none => simp
  | some h => simp [h _, eq_comm]

-- The first number is passed over: a message that begins after it would hold the line feed.
example : ofLine? "a:1:x:2:\nm" = some ⟨"a:1:x", 2, 1, .error, "m", ""⟩ := by decide +kernel

end CheckWorker.Diagnostic
