import CheckWorker.Proofs.Text.Utf8
import CheckWorker.Text.Lines
import Mathlib.Data.List.Basic

/-!
# Lines of joined texts

A text falls apart into lines from its front: up to the first line feed goes the first line, and
what follows has lines of its own. So a text that ends in a line feed can be cut there. The bytes of
a text are cut just as the text is, since a line feed or a carriage return is never part of a longer
character.
-/

namespace CheckWorker.Text

section

variable {α : Type} [DecidableEq α] {feed ret : α} {line text : List α}

/-! ## Ends of lines -/

theorem mem_of_mem_closeLine {a : α} (h : a ∈ closeLine ret line) : a ∈ line := by
  cases line with
  | nil => cases h
  | cons b line =>
      rw [closeLine] at h
      split at h
      · exact List.mem_cons_of_mem b (List.mem_reverse.mp h)
      · exact List.mem_reverse.mp h

theorem closeLine_return (line : List α) : closeLine ret (line ++ [ret]).reverse = line := by
  rw [List.reverse_concat, closeLine, if_pos rfl, List.reverse_reverse]

theorem closeLine_reverse (h : line.getLast? ≠ some ret) : closeLine ret line.reverse = line := by
  rcases List.eq_nil_or_concat' line with rfl | ⟨front, a, rfl⟩
  · rfl
  · have ha : a ≠ ret := by
      rintro rfl
      simp at h
    simp [closeLine, ha]

/-- A line without its end is the line, or the line up to a carriage return. -/
theorem closeLine_cases (ret : α) (line : List α) :
    closeLine ret line.reverse = line ∨ line = closeLine ret line.reverse ++ [ret] := by
  by_cases h : line.getLast? = some ret
  · obtain ⟨front, rfl⟩ := List.getLast?_eq_some_iff.mp h
    exact Or.inr (by rw [closeLine_return])
  · exact Or.inl (closeLine_reverse h)

theorem feed_notMem_of_mem_splitFrom {found : List α} (hline : feed ∉ line)
    (h : found ∈ splitFrom feed ret [] line text) : feed ∉ found := by
  induction text generalizing line with
  | nil =>
      rw [splitFrom] at h
      split at h
      · cases h
      · rw [List.reverse_singleton, List.mem_singleton] at h
        rw [h]
        simpa using hline
  | cons a text ih =>
      rw [splitFrom] at h
      split at h
      · rw [splitFrom_done] at h
        rcases List.mem_append.mp h with h | h
        · rw [List.reverse_singleton, List.mem_singleton] at h
          rw [h]
          exact fun hmem => hline (mem_of_mem_closeLine hmem)
        · exact ih List.not_mem_nil h
      · next ha => exact ih (by simp [hline, Ne.symm ha]) h

/-! ## The first line and the others -/

theorem splitLines_of_notMem (h : feed ∉ text) (ret : α) :
    splitLines feed ret text = if text.isEmpty then [] else [text] := by
  rw [splitLines, splitFrom_of_not_mem h]
  rfl

theorem splitLines_append_feed (h : feed ∉ line) (ret : α) (rest : List α) :
    splitLines feed ret (line ++ feed :: rest) =
      closeLine ret line.reverse :: splitLines feed ret rest := by
  rw [splitLines, splitFrom_append_feed h, List.append_nil]

/-- What holds of texts of one line that is not ended, and of those that a line is put before, holds
of every text. -/
theorem induction_on_lines {P : List α → Prop} (feed : α)
    (last : ∀ line, feed ∉ line → P line)
    (more : ∀ line rest, feed ∉ line → P rest → P (line ++ feed :: rest)) (text : List α) :
    P text := by
  by_cases hfeed : feed ∈ text
  · obtain ⟨line, rest, htext, hline⟩ := List.eq_append_cons_of_mem hfeed
    have hlength : rest.length < text.length := by
      rw [htext, List.length_append, List.length_cons]
      omega
    rw [htext]
    exact more line rest hline (induction_on_lines feed last more rest)
  · exact last text hfeed
termination_by text.length

theorem splitFrom_concat_append (line text rest : List α) :
    splitFrom feed ret [] line (text ++ [feed] ++ rest) =
      splitFrom feed ret [] line (text ++ [feed]) ++ splitLines feed ret rest := by
  induction text generalizing line with
  | nil =>
      show splitFrom feed ret [] line (feed :: rest) = splitFrom feed ret [] line [feed] ++ _
      rw [splitFrom, if_pos rfl, splitFrom_done, splitFrom, if_pos rfl]
      rfl
  | cons a text ih =>
      by_cases ha : a = feed
      · subst ha
        simp only [List.cons_append, splitFrom, if_true]
        rw [splitFrom_done, ih, splitFrom_done _ _ [closeLine ret line], List.append_assoc]
      · simp only [List.cons_append, splitFrom, if_neg ha]
        exact ih (a :: line)

/-- A text can be cut where a line ends. -/
theorem splitLines_append (h : ∀ a ∈ text.getLast?, a = feed) (rest : List α) :
    splitLines feed ret (text ++ rest) = splitLines feed ret text ++ splitLines feed ret rest := by
  rcases List.eq_nil_or_concat' text with rfl | ⟨front, a, rfl⟩
  · rfl
  · obtain rfl : a = feed := h a (by simp)
    exact splitFrom_concat_append [] front rest

/-- What is neither a line feed nor a carriage return is in some line. -/
theorem exists_mem_splitLines {a : α} (h : a ∈ text) (hfeed : a ≠ feed) (hret : a ≠ ret) :
    ∃ line ∈ splitLines feed ret text, a ∈ line := by
  induction text using induction_on_lines feed with
  | last line hline =>
      rw [splitLines_of_notMem hline, if_neg (by simp [List.ne_nil_of_mem h])]
      exact ⟨line, List.mem_singleton_self line, h⟩
  | more line rest hline ih =>
      rw [splitLines_append_feed hline]
      rcases List.mem_append.mp h with h | h
      · refine ⟨_, List.mem_cons_self, ?_⟩
        rcases closeLine_cases ret line with hclose | hclose
        · rwa [hclose]
        · rw [hclose] at h
          rcases List.mem_append.mp h with h | h
          · exact h
          · exact absurd (List.mem_singleton.mp h) hret
      · rcases List.mem_cons.mp h with h | h
        · exact absurd h hfeed
        · obtain ⟨found, hfound, ha⟩ := ih h
          exact ⟨found, List.mem_cons_of_mem _ hfound, ha⟩

end

/-! ## Pieces between line feeds -/

/-- A line that a line feed ended, without the carriage return that is part of its end. -/
def withoutReturn (line : List Char) : List Char :=
  if line.getLast? = some '\r' then line.dropLast else line

/-- The lines of a text that are not blank, told without going through the text: they are what
stands between line feeds and holds a character that is no blank. -/
def solidPieces (text : List Char) : List (List Char) :=
  let pieces := text.splitOn '\n'
  (pieces.dropLast.map withoutReturn ++ pieces.getLast?.toList).filter fun piece =>
    piece.any fun c => !isBlank c

theorem closeLine_eq_withoutReturn (line : List Char) :
    closeLine '\r' line.reverse = withoutReturn line := by
  rw [withoutReturn]
  split
  case isTrue h =>
    obtain ⟨front, rfl⟩ := List.getLast?_eq_some_iff.mp h
    rw [closeLine_return, List.dropLast_concat]
  case isFalse h => exact closeLine_reverse h

theorem solidPieces_of_notMem {line : List Char} (h : '\n' ∉ line) :
    solidPieces line = [line].filter fun piece => piece.any fun c => !isBlank c := by
  rw [solidPieces, List.splitOn_eq_singleton h]
  rfl

theorem solidPieces_append_feed {line : List Char} (h : '\n' ∉ line) (rest : List Char) :
    solidPieces (line ++ '\n' :: rest) =
      ([withoutReturn line].filter fun piece => piece.any fun c => !isBlank c) ++
        solidPieces rest := by
  obtain ⟨piece, pieces, hpieces⟩ :=
    List.exists_cons_of_ne_nil (List.splitOn_ne_nil '\n' rest)
  rw [solidPieces, List.splitOn_append_cons_self_of_not_mem h, solidPieces, hpieces,
    List.dropLast_cons_cons, List.getLast?_cons_cons, List.map_cons, List.cons_append,
    ← List.filter_append]
  rfl

/-- The lines that are not blank are the pieces that are not. -/
theorem filter_lines_eq_solidPieces (text : List Char) :
    ((lines text).filter fun line => line.any fun c => !isBlank c) = solidPieces text := by
  induction text using induction_on_lines '\n' with
  | last line hline =>
      rw [lines, splitLines_of_notMem hline, solidPieces_of_notMem hline]
      cases line with
      | nil => rfl
      | cons c line => rfl
  | more line rest hline ih =>
      rw [lines, splitLines_append_feed hline, ← List.singleton_append, List.filter_append,
        ← lines, ih, solidPieces_append_feed hline, closeLine_eq_withoutReturn]

/-! ## Lines of bytes -/

theorem feed_notMem_encode {line : List Char} (h : '\n' ∉ line) : 10 ∉ Utf8.encode line :=
  fun hmem => h (Utf8.mem_of_mem_encode hmem (by decide))

theorem encode_append_feed (line rest : List Char) :
    Utf8.encode (line ++ '\n' :: rest) = Utf8.encode line ++ 10 :: Utf8.encode rest :=
  Utf8.encode_append line ('\n' :: rest)

theorem getLast?_encode_ne {line : List Char} (h : line.getLast? ≠ some '\r') :
    (Utf8.encode line).getLast? ≠ some 13 := by
  rcases List.eq_nil_or_concat' line with rfl | ⟨front, c, rfl⟩
  · simp
  · have hc : c ≠ '\r' := by
      rintro rfl
      simp at h
    intro hlast
    have hmem : (13 : UInt8) ∈ String.utf8EncodeChar c := by
      rw [Utf8.encode_append, List.getLast?_append] at hlast
      have hne : Utf8.encode [c] ≠ [] := by simp [Utf8.encode]
      rw [List.getLast?_eq_some_getLast hne, Option.some_or] at hlast
      have hlast := List.mem_of_getLast? ((List.getLast?_eq_some_getLast hne).trans hlast)
      simpa [Utf8.encode] using hlast
    have hnumber : c.toNat = 13 := Utf8.toNat_eq_of_mem hmem (by decide)
    exact hc (Char.toNat_inj.mp hnumber)

theorem closeLine_encode (line : List Char) :
    closeLine 13 (Utf8.encode line).reverse = Utf8.encode (closeLine '\r' line.reverse) := by
  rcases closeLine_cases '\r' line with h | h
  · by_cases hlast : line.getLast? = some '\r'
    · obtain ⟨front, rfl⟩ := List.getLast?_eq_some_iff.mp hlast
      rw [closeLine_return, Utf8.encode_append]
      exact closeLine_return _
    · rw [h, closeLine_reverse (getLast?_encode_ne hlast)]
  · rw [h, closeLine_return, Utf8.encode_append]
    exact closeLine_return _

/-- The bytes of a text are cut where the text is cut. -/
theorem splitLines_encode (text : List Char) :
    splitLines 10 13 (Utf8.encode text) = (lines text).map Utf8.encode := by
  induction text using induction_on_lines '\n' with
  | last line hline =>
      rw [lines, splitLines_of_notMem hline, splitLines_of_notMem (feed_notMem_encode hline)]
      cases line <;> simp [Utf8.encode]
  | more line rest hline ih =>
      rw [encode_append_feed, splitLines_append_feed (feed_notMem_encode hline), ih,
        closeLine_encode, lines, lines, splitLines_append_feed hline, List.map_cons]

/-! ## Records of bytes -/

section

variable {α : Type}

/-- What is read of the parts of some bytes, one before each line feed, and the bytes that are left
over. -/
def readRecords (read : List UInt8 → Option α) (bytes : List UInt8) :
    Option (List α) × List UInt8 :=
  let pieces := bytes.splitOn 10
  (pieces.dropLast.mapM read, pieces.getLast?.getD [])

/-- Records without line feeds fall apart at the line feeds that end them. -/
theorem splitOn_flatMap {line : α → List UInt8} (hfeed : ∀ a, 10 ∉ line a) (as : List α) :
    (as.flatMap fun a => line a ++ [10]).splitOn 10 = as.map line ++ [[]] := by
  induction as with
  | nil => rfl
  | cons a as ih =>
      rw [List.flatMap_cons, List.append_assoc, List.singleton_append,
        List.splitOn_append_cons_self_of_not_mem (hfeed a), ih]
      rfl

theorem mapM_map {read : List UInt8 → Option α} {line : α → List UInt8}
    (hread : ∀ a, read (line a) = some a) (as : List α) : (as.map line).mapM read = some as := by
  induction as with
  | nil => rfl
  | cons a as ih => simp [hread, ih]

/-- Records that are written one after the other, each ended by a line feed, are read as they were,
and nothing is left over. -/
theorem readRecords_flatMap {read : List UInt8 → Option α} {line : α → List UInt8}
    (hread : ∀ a, read (line a) = some a) (hfeed : ∀ a, 10 ∉ line a) (as : List α) :
    readRecords read (as.flatMap fun a => line a ++ [10]) = (some as, []) := by
  rw [readRecords, splitOn_flatMap hfeed, List.dropLast_concat, mapM_map hread]
  simp

end

end CheckWorker.Text

namespace String

open CheckWorker

/-- A text is put together from its lines where one ends. -/
theorem textLines_append {text : String} (h : ∀ c ∈ text.toList.getLast?, c = '\n')
    (rest : String) : (text ++ rest).textLines = text.textLines ++ rest.textLines := by
  simp only [textLines, Text.lines, toList_append]
  rw [Text.splitLines_append h, List.map_append]

theorem solidLines_append {text : String} (h : ∀ c ∈ text.toList.getLast?, c = '\n')
    (rest : String) : (text ++ rest).solidLines = text.solidLines ++ rest.solidLines := by
  rw [solidLines, textLines_append h, List.filter_append]
  rfl

/-- The lines of a text that are not blank, as pieces of it. -/
def solidPieces (s : String) : List String :=
  (Text.solidPieces s.toList).map ofList

theorem solidLines_eq_solidPieces (s : String) : s.solidLines = s.solidPieces := by
  have hsolid : (fun line => !isBlank line) ∘ ofList = fun line => line.any fun c =>
      !Text.isBlank c := by
    funext line
    rw [Function.comp_apply, isBlank, toList_ofList, List.not_all_eq_any_not]
  rw [solidPieces, ← Text.filter_lines_eq_solidPieces, solidLines, textLines, List.filter_map,
    hsolid]

theorem solidLines_of_notMem {line : List Char} (h : '\n' ∉ line) :
    (ofList line).solidLines = [ofList line].filter fun line => !line.isBlank := by
  rw [solidLines, textLines, Text.lines, toList_ofList, Text.splitLines_of_notMem h]
  cases line with
  | nil => rfl
  | cons c line => rfl

theorem solidLines_ne_nil {text : String} {c : Char} (h : c ∈ text.toList)
    (hsolid : Text.isBlank c = false) : text.solidLines ≠ [] := by
  have hfeed : c ≠ '\n' := by
    rintro rfl
    cases hsolid
  have hreturn : c ≠ '\r' := by
    rintro rfl
    cases hsolid
  obtain ⟨line, hline, hc⟩ := Text.exists_mem_splitLines h hfeed hreturn
  have hmem : ofList line ∈ text.solidLines := by
    apply List.mem_filter.mpr
    refine ⟨List.mem_map_of_mem hline, ?_⟩
    rw [Bool.not_eq_true', isBlank, toList_ofList]
    exact List.all_eq_false.mpr ⟨c, hc, by simp [hsolid]⟩
  exact List.ne_nil_of_mem hmem

end String
