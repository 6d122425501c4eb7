import CheckWorker.Proofs.Text.Lines
import CheckWorker.Transport
import Mathlib.Data.List.TakeWhile

/-!
# Reading line by line

The bytes of a text are read one line at a time, and the lines are those of the text. A line feed
among the bytes is a line feed of the text, since bytes of longer characters are all above it.
-/

namespace CheckWorker.Transport

open Text

theorem takeLine_of_notMem {bytes : List UInt8} (h : 10 ∉ bytes) :
    takeLine bytes = (bytes, []) := by
  have hall : ∀ b ∈ bytes, (b != 10) = true := fun b hb => bne_iff_ne.mpr fun hb' => h (hb' ▸ hb)
  rw [takeLine, List.takeWhile_eq_self_iff.mpr hall, List.dropWhile_eq_nil_iff.mpr hall]

theorem takeLine_append {line : List UInt8} (h : 10 ∉ line) (rest : List UInt8) :
    takeLine (line ++ 10 :: rest) = (line ++ [10], rest) := by
  have hall : ∀ b ∈ line, (b != 10) = true := fun b hb => bne_iff_ne.mpr fun hb' => h (hb' ▸ hb)
  rw [takeLine, List.takeWhile_append_of_pos hall, List.dropWhile_append_of_pos hall]
  simp

theorem withoutEnd_of_notMem {line : List Char} (h : '\n' ∉ line) : withoutEnd line = line := by
  unfold withoutEnd
  split
  · next before hrev =>
      have hmem : '\n' ∈ line.reverse := hrev ▸ List.mem_cons_self
      exact absurd (List.mem_reverse.mp hmem) h
  · exact List.reverse_reverse line

theorem withoutEnd_append (line : List Char) :
    withoutEnd (line ++ ['\n']) = closeLine '\r' line.reverse := by
  rw [withoutEnd, List.reverse_append]
  rfl

theorem takeLine_length_lt {bytes : List UInt8} (h : bytes ≠ []) :
    (takeLine bytes).2.length < bytes.length := by
  have hlen := congrArg List.length (List.takeWhile_append_dropWhile (p := (· != 10)) (l := bytes))
  rw [List.length_append] at hlen
  unfold takeLine
  split
  · exact List.length_pos_iff.mpr h
  · next feed rest hdrop =>
      rw [hdrop, List.length_cons] at hlen
      dsimp only
      omega

/-- What is read first of the bytes of a text is its first line. -/
theorem takeLine_encode {text : List Char} (h : text ≠ []) :
    ∃ line rest, takeLine (Utf8.encode text) = (Utf8.encode line, Utf8.encode rest) ∧
      lines text = withoutEnd line :: lines rest := by
  by_cases hfeed : '\n' ∈ text
  · obtain ⟨first, rest, rfl, hfirst⟩ := List.eq_append_cons_of_mem hfeed
    refine ⟨first ++ ['\n'], rest, ?_, ?_⟩
    · rw [encode_append_feed, takeLine_append (feed_notMem_encode hfirst), Utf8.encode_append]
      rfl
    · rw [withoutEnd_append, lines, splitLines_append_feed hfirst]
      rfl
  · refine ⟨text, [], ?_, ?_⟩
    · rw [takeLine_of_notMem (feed_notMem_encode hfeed), Utf8.encode_nil]
    · rw [withoutEnd_of_notMem hfeed, lines, splitLines_of_notMem hfeed]
      simp [h, lines]

/-- The lines of a text that are not blank, as items. -/
def solidItems (text : List Char) : List Inbound :=
  ((lines text).map String.ofList |>.filter fun line => !line.isBlank).map .line

theorem solidItems_toList (s : String) : solidItems s.toList = s.solidLines.map .line := rfl

theorem solidItems_cons {text line rest : List Char} (h : lines text = line :: lines rest) :
    solidItems text =
      (if (String.ofList line).isBlank then [] else [.line (String.ofList line)]) ++
        solidItems rest := by
  rw [solidItems, h, List.map_cons, List.filter_cons]
  split <;> simp_all [solidItems]

end CheckWorker.Transport
