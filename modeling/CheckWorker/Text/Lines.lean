import CheckWorker.Text.Blank

/-!
# Lines

A line ends at a line feed; one carriage return right before the line feed belongs to the line's
end and not to the line. What follows the last line feed is a line of its own unless it is empty,
and keeps a carriage return that it ends in. The rule is the same for characters and for bytes, so
it is stated for any type with two marks for the two controls.
-/

namespace CheckWorker.Text

section

variable {α : Type} [DecidableEq α]

/-- A finished line, held backwards, without the carriage return that ended it. -/
def closeLine (ret : α) : List α → List α
  | [] => []
  | a :: line => if a = ret then line.reverse else (a :: line).reverse

/-- The lines of `text`, after those held backwards in `done` and the unfinished one held backwards
in `line`. -/
def splitFrom (feed ret : α) (done : List (List α)) (line : List α) : List α → List (List α)
  | [] => (if line.isEmpty then done else line.reverse :: done).reverse
  | a :: text =>
      if a = feed then splitFrom feed ret (closeLine ret line :: done) [] text
      else splitFrom feed ret done (a :: line) text

def splitLines (feed ret : α) (text : List α) : List (List α) :=
  splitFrom feed ret [] [] text

theorem splitFrom_done (feed ret : α) (done : List (List α)) (line text : List α) :
    splitFrom feed ret done line text = done.reverse ++ splitFrom feed ret [] line text := by
  induction text generalizing done line with
  | nil => cases line <;> simp [splitFrom]
  | cons a text ih =>
      simp only [splitFrom]
      split
      · rw [ih, ih [closeLine ret line]]
        simp
      · exact ih done (a :: line)

@[simp] theorem splitLines_nil (feed ret : α) : splitLines feed ret [] = [] := rfl

/-- A text that holds no line feed is one line, carriage returns included. -/
theorem splitFrom_of_not_mem {feed ret : α} {text : List α} (h : feed ∉ text) (line : List α) :
    splitFrom feed ret [] line text =
      if (line.reverse ++ text).isEmpty then [] else [line.reverse ++ text] := by
  induction text generalizing line with
  | nil => cases line <;> simp [splitFrom]
  | cons a text ih =>
      have ha : a ≠ feed := fun e => h (e ▸ List.mem_cons_self)
      have ht : feed ∉ text := fun m => h (List.mem_cons_of_mem a m)
      rw [splitFrom, if_neg ha, ih ht]
      simp

theorem splitFrom_append_feed {feed ret : α} {first : List α} (h : feed ∉ first)
    (line rest : List α) :
    splitFrom feed ret [] line (first ++ feed :: rest) =
      closeLine ret (first.reverse ++ line) :: splitLines feed ret rest := by
  induction first generalizing line with
  | nil =>
      rw [List.nil_append, splitFrom, if_pos rfl, splitFrom_done]
      simp [splitLines]
  | cons a first ih =>
      have ha : a ≠ feed := fun e => h (e ▸ List.mem_cons_self)
      have hf : feed ∉ first := fun m => h (List.mem_cons_of_mem a m)
      rw [List.cons_append, splitFrom, if_neg ha, ih hf]
      simp

end

def lines (text : List Char) : List (List Char) :=
  splitLines '\n' '\r' text

end CheckWorker.Text

namespace String

def textLines (s : String) : List String :=
  (CheckWorker.Text.lines s.toList).map ofList

def solidLines (s : String) : List String :=
  s.textLines.filter fun line => !line.isBlank

end String
