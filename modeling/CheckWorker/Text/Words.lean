import CheckWorker.Text.Blank

/-!
# Words

The words of a text are its maximal runs of characters that are not blank.
-/

namespace CheckWorker.Text

/-- The words of `text`, in order, after the unfinished word held backwards in `word`. -/
def wordsFrom (word : List Char) : List Char → List (List Char)
  | [] => if word.isEmpty then [] else [word.reverse]
  | c :: text =>
      if isBlank c then
        if word.isEmpty then wordsFrom [] text else word.reverse :: wordsFrom [] text
      else wordsFrom (c :: word) text

def words (text : List Char) : List (List Char) :=
  wordsFrom [] text

end CheckWorker.Text
