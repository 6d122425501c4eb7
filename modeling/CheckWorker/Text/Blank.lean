/-!
# Blank characters

Blank means the Unicode property White_Space, everywhere in the library: around report messages, in
request lines that hold nothing, in versions that say nothing. Runs of blanks are taken off the two
ends of a text, and `splitAtBlanks` gives the words between them.
-/

namespace CheckWorker.Text

/-- The twenty-five characters with the property White_Space. -/
def isBlank (c : Char) : Bool :=
  let n := c.toNat
  (9 ≤ n && n ≤ 13) || n == 0x20 || n == 0x85 || n == 0xA0 || n == 0x1680 ||
    (0x2000 ≤ n && n ≤ 0x200A) || n == 0x2028 || n == 0x2029 || n == 0x202F || n == 0x205F ||
    n == 0x3000

def trimStart (text : List Char) : List Char :=
  text.dropWhile isBlank

def trimEnd (text : List Char) : List Char :=
  (text.reverse.dropWhile isBlank).reverse

def trim (text : List Char) : List Char :=
  trimEnd (trimStart text)

@[simp] theorem trimStart_nil : trimStart [] = [] := rfl

theorem trimStart_cons_blank {c : Char} (h : isBlank c = true) (text : List Char) :
    trimStart (c :: text) = trimStart text := by
  simp [trimStart, h]

theorem trimStart_cons_solid {c : Char} (h : isBlank c = false) (text : List Char) :
    trimStart (c :: text) = c :: text := by
  simp [trimStart, h]

theorem head?_trimStart (text : List Char) : ∀ c ∈ (trimStart text).head?, isBlank c = false := by
  induction text with
  | nil => simp
  | cons d text ih =>
      cases hd : isBlank d with
      | true => rwa [trimStart_cons_blank hd]
      | false => simp [trimStart_cons_solid hd, hd]

theorem trimStart_spec (text : List Char) :
    ∃ blanks, blanks.all isBlank = true ∧ text = blanks ++ trimStart text := by
  refine ⟨text.takeWhile isBlank, ?_, (List.takeWhile_append_dropWhile).symm⟩
  simp [List.all_takeWhile]

theorem trimStart_of_head? {text : List Char} (h : ∀ c ∈ text.head?, isBlank c = false) :
    trimStart text = text := by
  cases text with
  | nil => rfl
  | cons c text => exact trimStart_cons_solid (h c rfl) text

theorem getLast?_trimEnd (text : List Char) :
    ∀ c ∈ (trimEnd text).getLast?, isBlank c = false := by
  simpa [trimEnd, trimStart] using head?_trimStart text.reverse

theorem trimEnd_spec (text : List Char) :
    ∃ blanks, blanks.all isBlank = true ∧ text = trimEnd text ++ blanks := by
  obtain ⟨blanks, hblanks, htext⟩ := trimStart_spec text.reverse
  refine ⟨blanks.reverse, by simpa using hblanks, ?_⟩
  have hrev := congrArg List.reverse htext
  rwa [List.reverse_reverse, List.reverse_append] at hrev

theorem trimEnd_of_getLast? {text : List Char} (h : ∀ c ∈ text.getLast?, isBlank c = false) :
    trimEnd text = text := by
  have hrev : trimStart text.reverse = text.reverse := trimStart_of_head? (by simpa using h)
  have hend : (trimStart text.reverse).reverse = text := by rw [hrev, List.reverse_reverse]
  exact hend

end CheckWorker.Text

namespace String

def withoutBlankEnds (s : String) : String :=
  ofList (CheckWorker.Text.trim s.toList)

def withoutBlankEnd (s : String) : String :=
  ofList (CheckWorker.Text.trimEnd s.toList)

def isBlank (s : String) : Bool :=
  s.toList.all CheckWorker.Text.isBlank

end String
