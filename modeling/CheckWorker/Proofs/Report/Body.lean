import CheckWorker.Proofs.Report.Code
import CheckWorker.Proofs.Report.Number

/-!
# The body of a report line

What follows the position of a diagnostic is read back as it is written when the message neither
begins with a blank nor stands in the way of the code.
-/

namespace CheckWorker.Report

open Text

/-- A message with its code can be told from any other. -/
structure Separable (message code : List Char) : Prop where
  message_line : '\n' ∉ message
  message_head : ∀ c ∈ message.head?, isBlank c = false
  code_chars : ∀ c ∈ code, isCodeChar c = true
  message_ne : code ≠ [] → message ≠ []
  message_last : code ≠ [] → ∀ c ∈ message.getLast?, isBlank c = false
  message_whole : code = [] → ¬EndsInCode message

theorem severity?_eq_some {text rest : List Char} {s : Severity}
    (h : severity? text = some (s, rest)) :
    ∃ word, Severity.lower word = s.word.toList ∧ text = word ++ ':' :: rest := by
  unfold severity? at h
  obtain ⟨before, t, after, -, ht, -⟩ := List.findSome?_eq_some_iff.mp h
  simp only at ht
  split at ht
  case h_2 => cases ht
  case h_1 tail hdrop =>
    split at ht
    case isFalse => cases ht
    case isTrue hword =>
      obtain ⟨rfl, rfl⟩ : t = s ∧ tail = rest := by simpa using ht
      exact ⟨text.take t.word.length, hword, by rw [← hdrop, List.take_append_drop]⟩

theorem colon_notMem_of_lower {word : List Char} {s : Severity}
    (h : Severity.lower word = s.word.toList) : ':' ∉ word := by
  intro hm
  have hlower : ':' ∈ s.word.toList := h ▸ List.mem_map_of_mem hm
  revert hlower
  cases s <;> decide

theorem length_of_lower {word : List Char} {s : Severity}
    (h : Severity.lower word = s.word.toList) : s.word.length = word.length := by
  rw [← String.length_toList, ← h, Severity.lower, List.length_map]

theorem word_injective {s t : Severity} (h : s.word.toList = t.word.toList) : s = t := by
  have hs := Severity.ofText?_word s
  rw [h, Severity.ofText?_word] at hs
  exact (Option.some.inj hs).symm

/-- A severity word is found in whatever cases it is written. -/
theorem severity?_append {word : List Char} {s : Severity}
    (h : Severity.lower word = s.word.toList) (rest : List Char) :
    severity? (word ++ ':' :: rest) = some (s, rest) := by
  have hlength := length_of_lower h
  cases hread : severity? (word ++ ':' :: rest) with
  | none =>
      have hs := List.findSome?_eq_none_iff.mp hread s (Severity.mem_all s)
      simp only [hlength, List.drop_left, List.take_left] at hs
      rw [if_pos h] at hs
      cases hs
  | some found =>
      obtain ⟨t, rest'⟩ := found
      obtain ⟨word', h', htext⟩ := severity?_eq_some hread
      obtain ⟨rfl, rfl⟩ :=
        append_colon_inj (colon_notMem_of_lower h) (colon_notMem_of_lower h') htext
      rw [word_injective (h.symm.trans h')]

theorem severity?_word (s : Severity) (rest : List Char) :
    severity? (s.word.toList ++ ':' :: rest) = some (s, rest) := by
  have hlower : Severity.lower s.word.toList = s.word.toList := by
    cases s <;> decide
  exact severity?_append hlower rest

theorem mem_of_mem_trimStart {text : List Char} {c : Char} (h : c ∈ trimStart text) : c ∈ text :=
  (List.dropWhile_suffix isBlank).subset h

theorem trimStart_word (s : Severity) (rest : List Char) :
    trimStart (s.word.toList ++ rest) = s.word.toList ++ rest := by
  cases s <;> rfl

/-- The text that is left for message and code when the severity has been read. -/
def content (text : List Char) : List Char :=
  trimStart ((severity? (trimStart text)).getD (.standard, trimStart text)).2

theorem body?_eq_some_iff {text : List Char} {body : Body} :
    body? text = some body ↔
      body.severity = ((severity? (trimStart text)).getD (.standard, trimStart text)).1 ∧
        splitCode (content text) = (body.message, body.code) ∧ '\n' ∉ body.message := by
  unfold body? content
  simp only
  split
  · next h =>
    constructor
    · intro hnone
      cases hnone
    · rintro ⟨-, hsplit, hline⟩
      rw [hsplit] at h
      exact absurd h hline
  · next h =>
    constructor
    · intro hsome
      obtain rfl := Option.some.inj hsome
      exact ⟨rfl, rfl, h⟩
    · rintro ⟨hseverity, hsplit, -⟩
      rw [hsplit, ← hseverity]

theorem mem_of_mem_content {text : List Char} {c : Char} (h : c ∈ content text) : c ∈ text := by
  have htail := mem_of_mem_trimStart h
  cases hs : severity? (trimStart text) with
  | none =>
      rw [hs] at htail
      exact mem_of_mem_trimStart htail
  | some found =>
      obtain ⟨word, -, htext⟩ := severity?_eq_some hs
      rw [hs] at htail
      refine mem_of_mem_trimStart (htext ▸ ?_)
      exact List.mem_append_right word (List.mem_cons_of_mem ':' htail)

/-- On one line every body is accepted. -/
theorem body?_isSome {text : List Char} (h : '\n' ∉ text) : (body? text).isSome = true := by
  have hline : '\n' ∉ (splitCode (content text)).1 :=
    fun hm => h (mem_of_mem_content ((isPrefix_splitCode _).subset hm))
  exact Option.isSome_iff_exists.mpr
    ⟨⟨_, (splitCode (content text)).1, (splitCode (content text)).2⟩,
      body?_eq_some_iff.mpr ⟨rfl, rfl, hline⟩⟩

/-- What is read as message and code can be told apart again. -/
theorem separable_of_body? {text : List Char} {body : Body} (h : body? text = some body) :
    Separable body.message body.code := by
  obtain ⟨-, hsplit, hline⟩ := body?_eq_some_iff.mp h
  have hsolid : ∀ c ∈ (content text).head?, isBlank c = false := head?_trimStart _
  by_cases hend : EndsInCode (content text)
  · obtain ⟨message, gap, code, hgap, hcode, hlast, htext, hcut⟩ := exists_of_endsInCode hend
    obtain ⟨rfl, rfl⟩ := Prod.mk.inj (hcut.symm.trans hsplit)
    rw [htext] at hsolid
    have hne : body.message ≠ [] := by
      intro hnil
      obtain ⟨b, bs, rfl⟩ := List.exists_cons_of_ne_nil hgap.ne_nil
      rw [hnil] at hsolid
      have hsolid : isBlank b = false := hsolid b rfl
      rw [hgap.isBlank b List.mem_cons_self] at hsolid
      cases hsolid
    refine ⟨hline, fun c hc => hsolid c ?_, hcode.isCodeChar, fun _ => hne, fun _ => hlast,
      fun hnil => absurd hnil hcode.ne_nil⟩
    rw [List.head?_append, hc]
    rfl
  · obtain ⟨hm, hc⟩ := Prod.mk.inj ((splitCode_eq_self_iff.mpr hend).symm.trans hsplit)
    rw [← hm] at hline
    rw [← hm, ← hc]
    exact ⟨hline, hsolid, by simp, fun hne => absurd rfl hne, fun hne => absurd rfl hne,
      fun _ => hend⟩

def codeTail (code : List Char) : List Char :=
  if code.isEmpty then [] else ' ' :: ' ' :: '[' :: (code ++ [']'])

theorem splitCode_codeTail {message code : List Char} (h : Separable message code) :
    splitCode (message ++ codeTail code) = (message, code) := by
  cases code with
  | nil =>
      rw [show codeTail [] = [] from rfl, List.append_nil]
      exact splitCode_eq_self_iff.mpr (h.message_whole rfl)
  | cons c code =>
      have hgap : IsGap [' ', ' '] := ⟨by simp, List.all_eq_true.mp (by decide)⟩
      have hcut := splitCode_append message hgap ⟨List.cons_ne_nil c code, h.code_chars⟩
      rwa [trimEnd_of_getLast? (h.message_last (List.cons_ne_nil c code))] at hcut

theorem trimStart_codeTail {message code : List Char} (h : Separable message code) :
    trimStart (message ++ codeTail code) = message ++ codeTail code := by
  apply trimStart_of_head?
  cases message with
  | nil =>
      cases code with
      | nil => simp [codeTail]
      | cons c code => exact absurd rfl (h.message_ne (List.cons_ne_nil c code))
  | cons c message => exact h.message_head

theorem body?_written (s : Severity) {message code : List Char} (h : Separable message code) :
    body? (' ' :: (s.word.toList ++ ':' :: ' ' :: (message ++ codeTail code))) =
      some ⟨s, message, code⟩ := by
  have hspace (rest : List Char) : trimStart (' ' :: rest) = trimStart rest :=
    trimStart_cons_blank (by decide) rest
  refine body?_eq_some_iff.mpr ⟨?_, ?_, h.message_line⟩
  · rw [hspace, trimStart_word, severity?_word]
    rfl
  · rw [content, hspace, trimStart_word, severity?_word, Option.getD_some, hspace,
      trimStart_codeTail h, splitCode_codeTail h]

end CheckWorker.Report
