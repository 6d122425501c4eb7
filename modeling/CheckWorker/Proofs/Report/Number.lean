import CheckWorker.Report.Reading

/-!
# Numbers in a report line

A number that a colon ends can be cut off the front of a text in one way only. A line number is found
where a number first stands between colons, and the numbers that this library writes are read back.
-/

namespace CheckWorker.Report

open Text

/-- A text is one or more decimal digits of whatever script. -/
structure IsNumber (digits : List Char) : Prop where
  ne_nil : digits ≠ []
  isDigit : ∀ c ∈ digits, isDigit c = true

theorem IsNumber.colon_notMem {digits : List Char} (h : IsNumber digits) : ':' ∉ digits :=
  fun hm => absurd (h.isDigit ':' hm) (by decide)

/-- Up to its first colon a text can be read in one way only. -/
theorem append_colon_inj {first first' rest rest' : List Char} (h : ':' ∉ first)
    (h' : ':' ∉ first') (heq : first ++ ':' :: rest = first' ++ ':' :: rest') :
    first = first' ∧ rest = rest' := by
  induction first generalizing first' with
  | nil =>
      cases first' with
      | nil => exact ⟨rfl, (List.cons.inj heq).2⟩
      | cons c first' =>
          obtain ⟨rfl, -⟩ := List.cons.inj heq
          exact absurd List.mem_cons_self h'
  | cons c first ih =>
      cases first' with
      | nil =>
          obtain ⟨rfl, -⟩ := List.cons.inj heq
          exact absurd List.mem_cons_self h
      | cons d first' =>
          obtain ⟨rfl, htail⟩ := List.cons.inj heq
          obtain ⟨rfl, hrest⟩ := ih (fun hm => h (List.mem_cons_of_mem c hm))
            (fun hm => h' (List.mem_cons_of_mem c hm)) htail
          exact ⟨rfl, hrest⟩

theorem number?_append {digits : List Char} (h : IsNumber digits) (rest : List Char) :
    number? (digits ++ ':' :: rest) = some (digits, rest) := by
  have htake : (digits ++ ':' :: rest).takeWhile isDigit = digits := by
    rw [List.takeWhile_append_of_pos h.isDigit, List.takeWhile_cons_of_neg (by decide),
      List.append_nil]
  have hdrop : (digits ++ ':' :: rest).dropWhile isDigit = ':' :: rest := by
    rw [List.dropWhile_append_of_pos h.isDigit, List.dropWhile_cons_of_neg (by decide)]
  unfold number?
  rw [htake, hdrop]
  obtain ⟨d, ds, rfl⟩ := List.exists_cons_of_ne_nil h.ne_nil
  rfl

/-- What is cut off is a number, and the colon after it is cut off too. -/
theorem eq_append_of_number? {text digits rest : List Char}
    (h : number? text = some (digits, rest)) : IsNumber digits ∧ text = digits ++ ':' :: rest := by
  unfold number? at h
  split at h
  case h_1 d ds rest' htake hdrop =>
    obtain ⟨rfl, rfl⟩ : d :: ds = digits ∧ rest' = rest := by simpa using h
    refine ⟨⟨by simp, fun c hc => ?_⟩, ?_⟩
    · exact List.all_eq_true.mp List.all_takeWhile c (htake ▸ hc)
    · rw [← htake, ← hdrop, List.takeWhile_append_dropWhile]
  case h_2 => cases h

theorem number?_cons_of_not_isDigit {c : Char} (h : isDigit c = false) (text : List Char) :
    number? (c :: text) = none := by
  unfold number?
  rw [List.takeWhile_cons_of_neg (by simp [h])]

/-! ## The value of a position -/

theorem position_ne_zero (digits : List Char) : position digits ≠ 0 := by
  unfold position
  split
  case h_1 n _ =>
    split
    · next h =>
      intro h0
      have hn : (UInt32.ofNat n).toNat = n := UInt32.toNat_ofNat_of_lt' h.2
      rw [h0] at hn
      exact absurd hn.symm (Nat.ne_of_gt h.1)
    · decide
  case h_2 => decide

theorem decimalFrom_of_isDigit {digits : List Char} (h : ∀ c ∈ digits, c.isDigit = true)
    (value : Nat) : decimalFrom value digits = some (Nat.ofDigitChars 10 digits value) := by
  induction digits generalizing value with
  | nil => rfl
  | cons c digits ih =>
      have hc : c.isDigit = true := h c List.mem_cons_self
      rw [decimalFrom, if_pos hc, ih fun d hd => h d (List.mem_cons_of_mem c hd),
        Nat.ofDigitChars_cons]
      rfl

theorem decimal?_toDigits (n : Nat) : decimal? (Nat.toDigits 10 n) = some n := by
  have hdigit (c : Char) (hc : c ∈ Nat.toDigits 10 n) : c.isDigit = true :=
    Nat.isDigit_of_mem_toDigits (by decide) (by decide) hc
  obtain ⟨c, cs, hcs⟩ := List.exists_cons_of_ne_nil (Nat.toDigits_ne_nil (n := n) (b := 10))
  rw [hcs, decimal?, ← hcs, decimalFrom_of_isDigit hdigit, Nat.ofDigitChars_ten_toDigits]

theorem isNumber_toDigits (n : Nat) : IsNumber (Nat.toDigits 10 n) where
  ne_nil := Nat.toDigits_ne_nil
  isDigit _ hc :=
    isDigit_of_isDigit (Nat.isDigit_of_mem_toDigits (by decide) (by decide) hc)

/-- A position is read as it is written. -/
theorem position_toDigits {n : UInt32} (h : n ≠ 0) : position (Nat.toDigits 10 n.toNat) = n := by
  have hpos : 0 < n.toNat := Nat.pos_of_ne_zero fun h0 => h (UInt32.toNat_inj.mp h0)
  unfold position
  rw [decimal?_toDigits]
  simp only
  rw [if_pos ⟨hpos, n.toNat_lt⟩]
  exact UInt32.ofNat_toNat

end CheckWorker.Report
