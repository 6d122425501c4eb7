import CheckWorker.Proofs.Report.Body
import CheckWorker.Proofs.Report.Number

/-!
# Where the file of a report line ends

On a single line the first number between colons decides where the file ends, and no later one is
ever tried.
-/

namespace CheckWorker.Report

open Text

/-- A number stands between colons somewhere in a text. -/
def HasNumber (text : List Char) : Prop :=
  ∃ digits, IsNumber digits ∧ ':' :: (digits ++ [':']) <:+: text

theorem not_hasNumber_of_count {text : List Char} (h : text.count ':' ≤ 1) : ¬HasNumber text := by
  rintro ⟨digits, -, hinfix⟩
  have hle := hinfix.sublist.count_le ':'
  simp only [List.count_cons_self, List.count_append, List.count_nil] at hle
  omega

theorem isSome_number?_iff {text : List Char} :
    (number? text).isSome = true ↔ ∃ digits, IsNumber digits ∧ digits ++ [':'] <+: text := by
  rw [Option.isSome_iff_exists]
  constructor
  · rintro ⟨⟨digits, rest⟩, h⟩
    obtain ⟨hdigits, rfl⟩ := eq_append_of_number? h
    exact ⟨digits, hdigits, rest, by simp⟩
  · rintro ⟨digits, hdigits, rest, rfl⟩
    exact ⟨(digits, rest), by simpa using number?_append hdigits rest⟩

/-- A first character only matters when it is a colon with a number right after it. -/
theorem hasNumber_cons_iff {c : Char} {text : List Char} :
    HasNumber (c :: text) ↔ (c = ':' ∧ (number? text).isSome = true) ∨ HasNumber text := by
  rw [isSome_number?_iff]
  constructor
  · rintro ⟨digits, hdigits, h⟩
    rcases List.infix_cons_iff.mp h with h | h
    · obtain ⟨hc, htext⟩ := List.cons_prefix_cons.mp h
      exact .inl ⟨hc.symm, digits, hdigits, htext⟩
    · exact .inr ⟨digits, hdigits, h⟩
  · rintro (⟨rfl, digits, hdigits, h⟩ | ⟨digits, hdigits, h⟩)
    · exact ⟨digits, hdigits, (List.cons_prefix_cons.mpr ⟨rfl, h⟩).isInfix⟩
    · exact ⟨digits, hdigits, List.infix_cons h⟩

/-- A number before a colon does not reach beyond the colon. -/
theorem prefix_of_append_colon {digits file rest : List Char} (hdigits : IsNumber digits)
    (h : digits ++ [':'] <+: file ++ ':' :: rest) : digits ++ [':'] <+: file ++ [':'] := by
  obtain ⟨tail, htail⟩ := h
  rw [List.append_assoc] at htail
  rcases List.append_eq_append_iff.mp htail with ⟨mid, rfl, hmid⟩ | ⟨mid, rfl, hmid⟩
  · cases mid with
    | nil => exact ⟨[], by simp⟩
    | cons c mid =>
        obtain ⟨rfl, -⟩ := List.cons.inj hmid
        exact ⟨mid ++ [':'], by simp⟩
  · cases mid with
    | nil => exact ⟨[], by simp⟩
    | cons c mid =>
        obtain ⟨rfl, -⟩ := List.cons.inj hmid
        exact absurd (List.mem_append_right file List.mem_cons_self) hdigits.colon_notMem

theorem isSome_number?_append_colon (file rest : List Char) :
    (number? (file ++ ':' :: rest)).isSome = (number? (file ++ [':'])).isSome := by
  rw [Bool.eq_iff_iff, isSome_number?_iff, isSome_number?_iff]
  constructor
  · rintro ⟨digits, hdigits, h⟩
    exact ⟨digits, hdigits, prefix_of_append_colon hdigits h⟩
  · rintro ⟨digits, hdigits, h⟩
    have hfile : file ++ [':'] <+: file ++ ':' :: rest := ⟨rest, by simp⟩
    exact ⟨digits, hdigits, h.trans hfile⟩

/-! ## What stands after the file -/

def fileName (file : List Char) : String :=
  if file.isEmpty then Diagnostic.standardFile else String.ofList file.reverse

/-- The parts of a diagnostic after its file, as they were read. -/
structure ReadAs (file text : List Char) (d : Diagnostic) (line rest column tail : List Char)
    (body : Body) : Prop where
  line_read : number? text = some (line, rest)
  column_read : (number? rest).getD ([], rest) = (column, tail)
  body_read : body? tail = some body
  assembled : d = ⟨fileName file, position line, position column, body.severity,
    String.ofList body.message, String.ofList body.code⟩

theorem afterFile?_eq_some_iff {file text : List Char} {d : Diagnostic} :
    afterFile? file text = some d ↔
      ∃ line rest column tail body, ReadAs file text d line rest column tail body := by
  unfold afterFile?
  constructor
  · intro h
    obtain ⟨⟨line, rest⟩, hline, h⟩ := Option.bind_eq_some_iff.mp h
    obtain ⟨body, hbody, h⟩ := Option.bind_eq_some_iff.mp h
    exact ⟨line, rest, _, _, body, hline, rfl, hbody, (Option.some.inj h).symm⟩
  · rintro ⟨line, rest, column, tail, body, hline, hcolumn, hbody, rfl⟩
    rw [hline, Option.bind_eq_bind, Option.bind_some]
    simp only
    rw [hcolumn, hbody]
    rfl

theorem mem_of_mem_column {rest column tail : List Char} {c : Char}
    (h : (number? rest).getD ([], rest) = (column, tail)) (hc : c ∈ tail) : c ∈ rest := by
  cases hn : number? rest with
  | none =>
      rw [hn] at h
      obtain ⟨-, rfl⟩ := Prod.mk.inj h
      exact hc
  | some found =>
      rw [hn, Option.getD_some] at h
      obtain ⟨-, rfl⟩ := eq_append_of_number? (hn.trans (congrArg some h))
      exact List.mem_append_right column (List.mem_cons_of_mem ':' hc)

/-- On one line the number alone decides. -/
theorem afterFile?_isSome {text : List Char} (h : '\n' ∉ text) (file : List Char) :
    (afterFile? file text).isSome = (number? text).isSome := by
  cases hn : number? text with
  | none =>
      unfold afterFile?
      rw [hn]
      rfl
  | some found =>
      obtain ⟨line, rest⟩ := found
      obtain ⟨-, rfl⟩ := eq_append_of_number? hn
      have hrest : '\n' ∉ rest := fun hm =>
        h (List.mem_append_right line (List.mem_cons_of_mem ':' hm))
      obtain ⟨body, hbody⟩ := Option.isSome_iff_exists.mp
        (body?_isSome fun hm => hrest (mem_of_mem_column rfl hm))
      exact Option.isSome_iff_exists.mpr
        ⟨_, afterFile?_eq_some_iff.mpr ⟨line, rest, _, _, body, hn, rfl, hbody, rfl⟩⟩

/-! ## The file -/

/-- A file with no number between its colons is passed over as a whole. -/
theorem diagnosticFrom_append {file rest : List Char} {d : Diagnostic} (before : List Char)
    (hline : '\n' ∉ file) (hfile : ¬HasNumber (file ++ [':']))
    (hd : afterFile? (file.reverse ++ before) rest = some d) :
    diagnosticFrom before (file ++ ':' :: rest) = some d := by
  induction file generalizing before with
  | nil =>
      rw [List.nil_append, diagnosticFrom, if_pos rfl]
      rw [List.reverse_nil, List.nil_append] at hd
      rw [hd]
  | cons c file ih =>
      rw [List.cons_append, hasNumber_cons_iff, not_or] at hfile
      have hc : c ≠ '\n' := fun hc => hline (hc ▸ List.mem_cons_self)
      have hnone : (if c = ':' then afterFile? before (file ++ ':' :: rest) else none) = none := by
        split
        · next hcolon =>
          have hnumber : number? (file ++ ':' :: rest) = none := by
            rw [← Option.not_isSome_iff_eq_none, isSome_number?_append_colon]
            exact fun hsome => hfile.1 ⟨hcolon, hsome⟩
          rw [afterFile?, hnumber]
          rfl
        · rfl
      rw [List.cons_append, diagnosticFrom, hnone]
      simp only
      rw [if_neg hc]
      refine ih (c :: before) (fun hm => hline (List.mem_cons_of_mem c hm)) hfile.2 ?_
      simpa using hd

/-- On one line the file ends at the first colon that a number between colons begins with. -/
theorem exists_of_diagnosticFrom {text before : List Char} {d : Diagnostic}
    (hline : '\n' ∉ text) (h : diagnosticFrom before text = some d) :
    ∃ file rest, text = file ++ ':' :: rest ∧ ¬HasNumber (file ++ [':']) ∧
      afterFile? (file.reverse ++ before) rest = some d := by
  induction text generalizing before with
  | nil => cases h
  | cons c text ih =>
      have htext : '\n' ∉ text := fun hm => hline (List.mem_cons_of_mem c hm)
      rw [diagnosticFrom] at h
      split at h
      case h_1 found hfound =>
        obtain rfl := Option.some.inj h
        split at hfound
        case isFalse => cases hfound
        case isTrue hc =>
          subst hc
          exact ⟨[], text, rfl, not_hasNumber_of_count (by decide), hfound⟩
      case h_2 hnone =>
        split at h
        case isTrue => cases h
        case isFalse hc =>
          obtain ⟨file, rest, rfl, hfile, hrest⟩ := ih htext h
          refine ⟨c :: file, rest, rfl, ?_, by simpa using hrest⟩
          rw [List.cons_append, hasNumber_cons_iff, not_or]
          refine ⟨?_, hfile⟩
          rintro ⟨rfl, hsome⟩
          rw [if_pos rfl] at hnone
          rw [← isSome_number?_append_colon file rest, ← afterFile?_isSome htext before, hnone]
            at hsome
          cases hsome

end CheckWorker.Report
