import CheckWorker.Proofs.Text.Utf8

/-!
# Bytes as characters

Each step of the decoder takes one piece off the front of the bytes, and a piece that is a character
takes just the bytes of that character. So bytes decode to a text just when they are the bytes of
that text, and the replacement character stands for a fault in any that do not decode.
-/

namespace CheckWorker.Utf8

/-! ## Numbers of bytes -/

section

variable {a b : UInt8} {n : Nat}

theorem toNat_of_width? (h : width? a = some n) :
    n = 1 ∧ a.toNat < 0x80 ∨ n = 2 ∧ 0xC2 ≤ a.toNat ∧ a.toNat ≤ 0xDF ∨
      n = 3 ∧ 0xE0 ≤ a.toNat ∧ a.toNat ≤ 0xEF ∨ n = 4 ∧ 0xF0 ≤ a.toNat ∧ a.toNat ≤ 0xF4 := by
  simp only [width?, UInt8.lt_iff_toNat_lt, UInt8.le_iff_toNat_le, Bool.and_eq_true,
    decide_eq_true_eq] at h
  split at h
  · next ha => exact Or.inl ⟨(Option.some.inj h).symm, ha⟩
  split at h
  · next ha => exact Or.inr (Or.inl ⟨(Option.some.inj h).symm, ha⟩)
  split at h
  · next ha => exact Or.inr (Or.inr (Or.inl ⟨(Option.some.inj h).symm, ha⟩))
  split at h
  · next ha => exact Or.inr (Or.inr (Or.inr ⟨(Option.some.inj h).symm, ha⟩))
  · cases h

theorem toNat_of_isTail (h : isTail b = true) : 0x80 ≤ b.toNat ∧ b.toNat ≤ 0xBF := by
  simp only [isTail, UInt8.le_iff_toNat_le, Bool.and_eq_true, decide_eq_true_eq] at h
  exact h

theorem toNat_of_isSecond (h : isSecond a b = true) :
    (0x80 ≤ b.toNat ∧ b.toNat ≤ 0xBF) ∧ (a.toNat = 0xE0 → 0xA0 ≤ b.toNat) ∧
      (a.toNat = 0xED → b.toNat ≤ 0x9F) ∧ (a.toNat = 0xF0 → 0x90 ≤ b.toNat) ∧
      (a.toNat = 0xF4 → b.toNat ≤ 0x8F) := by
  have hbyte : ∀ c : UInt8, a = c ↔ a.toNat = c.toNat := fun c => UInt8.toNat_inj.symm
  simp only [isSecond, isTail, hbyte, UInt8.le_iff_toNat_le] at h
  simp only [UInt8.reduceToNat] at h
  split at h
  · simp at h; omega
  split at h
  · simp at h; omega
  split at h
  · simp at h; omega
  split at h
  · simp at h; omega
  · simp at h; omega

/-! ## Characters with given bytes -/

theorem toNat_ofNat (h : n < 0xD800 ∨ 0xDFFF < n ∧ n < 0x110000) : (Char.ofNat n).val.toNat = n := by
  have hvalid : n.isValidChar := h
  rw [Char.ofNat, dif_pos hvalid]
  rfl

theorem ofNat_eq_byte (h : n = a.toNat) : UInt8.ofNat n = a := by
  rw [h, UInt8.ofNat_toNat]

variable {c d : UInt8}

theorem utf8EncodeChar_one (ha : width? a = some 1) :
    String.utf8EncodeChar (Char.ofNat a.toNat) = [a] := by
  have hwidth := toNat_of_width? ha
  have hn : a.toNat < 0x80 := by omega
  simp only [String.utf8EncodeChar, toNat_ofNat (n := a.toNat) (by omega)]
  rw [if_pos (by omega), ofNat_eq_byte rfl]

theorem utf8EncodeChar_two (ha : width? a = some 2) (hb : isSecond a b = true) :
    String.utf8EncodeChar (Char.ofNat ((a.toNat - 0xC0) * 0x40 + bits b)) = [a, b] := by
  have hwidth := toNat_of_width? ha
  have hsecond := toNat_of_isSecond hb
  generalize hn : (a.toNat - 0xC0) * 0x40 + bits b = n
  unfold bits at hn
  simp only [String.utf8EncodeChar, toNat_ofNat (n := n) (by omega)]
  rw [if_neg (by omega), if_pos (by omega), ofNat_eq_byte (a := a) (by omega),
    ofNat_eq_byte (a := b) (by omega)]

theorem utf8EncodeChar_three (ha : width? a = some 3) (hb : isSecond a b = true)
    (hc : isTail c = true) :
    String.utf8EncodeChar
      (Char.ofNat ((a.toNat - 0xE0) * 0x1000 + bits b * 0x40 + bits c)) = [a, b, c] := by
  have hwidth := toNat_of_width? ha
  have hsecond := toNat_of_isSecond hb
  have hthird := toNat_of_isTail hc
  generalize hn : (a.toNat - 0xE0) * 0x1000 + bits b * 0x40 + bits c = n
  unfold bits at hn
  simp only [String.utf8EncodeChar, toNat_ofNat (n := n) (by omega)]
  rw [if_neg (by omega), if_neg (by omega), if_pos (by omega), ofNat_eq_byte (a := a) (by omega),
    ofNat_eq_byte (a := b) (by omega), ofNat_eq_byte (a := c) (by omega)]

theorem utf8EncodeChar_four (ha : width? a = some 4) (hb : isSecond a b = true)
    (hc : isTail c = true) (hd : isTail d = true) :
    String.utf8EncodeChar (Char.ofNat
      ((a.toNat - 0xF0) * 0x40000 + bits b * 0x1000 + bits c * 0x40 + bits d)) = [a, b, c, d] := by
  have hwidth := toNat_of_width? ha
  have hsecond := toNat_of_isSecond hb
  have hthird := toNat_of_isTail hc
  have hfourth := toNat_of_isTail hd
  generalize hn : (a.toNat - 0xF0) * 0x40000 + bits b * 0x1000 + bits c * 0x40 + bits d = n
  unfold bits at hn
  simp only [String.utf8EncodeChar, toNat_ofNat (n := n) (by omega)]
  rw [if_neg (by omega), if_neg (by omega), if_neg (by omega), ofNat_eq_byte (a := a) (by omega),
    ofNat_eq_byte (a := b) (by omega), ofNat_eq_byte (a := c) (by omega),
    ofNat_eq_byte (a := d) (by omega)]

end

/-! ## One piece at a time -/

/-- What a step of the decoder does with bytes: it takes a piece off their front. -/
structure Step (bytes : List UInt8) (p : Piece) (rest : List UInt8) : Prop where
  piecesFrom_eq : ∀ done, piecesFrom done bytes = piecesFrom (p :: done) rest
  length_lt : rest.length < bytes.length
  bytes_eq : ∀ c, p = .char c → bytes = String.utf8EncodeChar c ++ rest

section

variable {a b c d : UInt8} {bytes rest : List UInt8} {n : Nat}

theorem exists_step_of_char {found : List UInt8}
    (h : ∀ done, piecesFrom done bytes = piecesFrom (.char (Char.ofNat n) :: done) rest)
    (hfound : String.utf8EncodeChar (Char.ofNat n) = found) (hbytes : bytes = found ++ rest)
    (hne : 0 < found.length) : ∃ p tail, Step bytes p tail := by
  refine ⟨.char (Char.ofNat n), rest, h, ?_, ?_⟩
  · rw [hbytes, List.length_append]
    omega
  · rintro c ⟨⟩
    rw [hfound, hbytes]

theorem exists_step_of_invalid
    (h : ∀ done, piecesFrom done bytes = piecesFrom (.invalid n :: done) rest)
    (hlength : rest.length < bytes.length) : ∃ p tail, Step bytes p tail :=
  ⟨.invalid n, rest, h, hlength, nofun⟩

/-- The end of the bytes cuts a character short. -/
theorem exists_step_of_incomplete
    (h : ∀ done, piecesFrom done bytes = (Piece.incomplete n :: done).reverse)
    (hne : 0 < bytes.length) : ∃ p tail, Step bytes p tail := by
  refine ⟨.incomplete n, [], ?_, hne, nofun⟩
  intro done
  rw [h, piecesFrom]

theorem exists_step_two (ha : width? a = some 2) (rest : List UInt8) :
    ∃ p tail, Step (a :: rest) p tail := by
  have h := fun done => piecesFrom.eq_def done (a :: rest)
  simp only [ha] at h
  rcases rest with _ | ⟨b, rest⟩
  · exact exists_step_of_incomplete h (by simp)
  cases hb : isSecond a b with
  | false =>
      simp only [hb, Bool.false_eq_true, if_false] at h
      exact exists_step_of_invalid h (by simp)
  | true =>
      simp only [hb, if_true] at h
      exact exists_step_of_char h (utf8EncodeChar_two ha hb) rfl (by simp)

theorem exists_step_three (ha : width? a = some 3) (rest : List UInt8) :
    ∃ p tail, Step (a :: rest) p tail := by
  have h := fun done => piecesFrom.eq_def done (a :: rest)
  simp only [ha] at h
  rcases rest with _ | ⟨b, rest⟩
  · exact exists_step_of_incomplete h (by simp)
  cases hb : isSecond a b with
  | false =>
      rcases rest with _ | ⟨c, rest⟩ <;> simp only [hb, Bool.false_eq_true, if_false] at h
      · exact exists_step_of_invalid h (by simp)
      · exact exists_step_of_invalid h (by simp)
  | true =>
      rcases rest with _ | ⟨c, rest⟩ <;> simp only [hb, if_true] at h
      · exact exists_step_of_incomplete h (by simp)
      cases hc : isTail c with
      | false =>
          simp only [hc, Bool.false_eq_true, if_false] at h
          exact exists_step_of_invalid h (by simp)
      | true =>
          simp only [hc, if_true] at h
          exact exists_step_of_char h (utf8EncodeChar_three ha hb hc) rfl (by simp)

theorem exists_step_four (ha : width? a = some 4) (rest : List UInt8) :
    ∃ p tail, Step (a :: rest) p tail := by
  have h := fun done => piecesFrom.eq_def done (a :: rest)
  simp only [ha] at h
  rcases rest with _ | ⟨b, rest⟩
  · exact exists_step_of_incomplete h (by simp)
  cases hb : isSecond a b with
  | false =>
      rcases rest with _ | ⟨c, _ | ⟨d, rest⟩⟩ <;>
        simp only [hb, Bool.false_eq_true, if_false] at h
      · exact exists_step_of_invalid h (by simp)
      · exact exists_step_of_invalid h (by simp)
      · exact exists_step_of_invalid h (by simp)
  | true =>
      rcases rest with _ | ⟨c, rest⟩
      · simp only [hb, if_true] at h
        exact exists_step_of_incomplete h (by simp)
      cases hc : isTail c with
      | false =>
          rcases rest with _ | ⟨d, rest⟩ <;>
            simp only [hb, hc, if_true, Bool.false_eq_true, if_false] at h
          · exact exists_step_of_invalid h (by simp)
          · exact exists_step_of_invalid h (by simp)
      | true =>
          rcases rest with _ | ⟨d, rest⟩ <;> simp only [hb, hc, if_true] at h
          · exact exists_step_of_incomplete h (by simp)
          cases hd : isTail d with
          | false =>
              simp only [hd, Bool.false_eq_true, if_false] at h
              exact exists_step_of_invalid h (by simp)
          | true =>
              simp only [hd, if_true] at h
              exact exists_step_of_char h (utf8EncodeChar_four ha hb hc hd) rfl (by simp)

end

/-- There is always a step. -/
theorem exists_step (a : UInt8) (rest : List UInt8) : ∃ p tail, Step (a :: rest) p tail := by
  have h := fun done => piecesFrom.eq_def done (a :: rest)
  rcases ha : width? a with _ | n <;> simp only [ha] at h
  case none => exact exists_step_of_invalid h (by simp)
  case some =>
    have hwidth := toNat_of_width? ha
    obtain rfl | rfl | rfl | rfl : n = 1 ∨ n = 2 ∨ n = 3 ∨ n = 4 := by omega
    · exact exists_step_of_char h (utf8EncodeChar_one ha) rfl (by simp)
    · exact exists_step_two ha rest
    · exact exists_step_three ha rest
    · exact exists_step_four ha rest

/-! ## All pieces -/

theorem piecesFrom_done (done : List Piece) (bytes : List UInt8) :
    piecesFrom done bytes = done.reverse ++ pieces bytes := by
  rcases bytes with _ | ⟨a, rest⟩
  · simp [pieces, piecesFrom]
  · obtain ⟨p, tail, h⟩ := exists_step a rest
    have hlength := h.length_lt
    rw [pieces, h.piecesFrom_eq, h.piecesFrom_eq, piecesFrom_done, piecesFrom_done [p]]
    simp
termination_by bytes.length
decreasing_by all_goals exact h.length_lt

theorem Step.pieces_eq {bytes rest : List UInt8} {p : Piece} (h : Step bytes p rest) :
    pieces bytes = p :: pieces rest := by
  rw [pieces, h.piecesFrom_eq, piecesFrom_done]
  rfl

theorem pieces_encode_append (text : List Char) (rest : List UInt8) :
    pieces (encode text ++ rest) = text.map .char ++ pieces rest := by
  induction text with
  | nil => rfl
  | cons c text ih =>
      have hbytes : encode (c :: text) ++ rest =
          String.utf8EncodeChar c ++ (encode text ++ rest) := by
        simp [encode]
      rw [hbytes, pieces, piecesFrom_utf8EncodeChar, piecesFrom_done, ih]
      rfl

/-- Bytes of which all pieces are characters are the bytes of those. -/
theorem eq_encode_of_pieces {bytes : List UInt8} {text : List Char}
    (h : pieces bytes = text.map .char) : bytes = encode text := by
  induction text generalizing bytes with
  | nil =>
      rcases bytes with _ | ⟨a, rest⟩
      · rfl
      · obtain ⟨p, tail, hstep⟩ := exists_step a rest
        rw [hstep.pieces_eq] at h
        cases h
  | cons c text ih =>
      rcases bytes with _ | ⟨a, rest⟩
      · rw [pieces_nil] at h
        cases h
      · obtain ⟨p, tail, hstep⟩ := exists_step a rest
        rw [hstep.pieces_eq, List.map_cons] at h
        obtain ⟨hp, htail⟩ := List.cons.inj h
        rw [hstep.bytes_eq c hp, ih htail]
        simp [encode]

/-! ## Texts of bytes -/

theorem map_char_of_textFrom {ps : List Piece} {index : Nat} {done text : List Char}
    (h : textFrom index done ps = .ok text) :
    ∃ added, ps = added.map .char ∧ text = done.reverse ++ added := by
  induction ps generalizing index done with
  | nil =>
      refine ⟨[], rfl, ?_⟩
      rw [List.append_nil]
      exact (Except.ok.inj h).symm
  | cons p ps ih =>
      cases p with
      | char c =>
          obtain ⟨added, rfl, htext⟩ := ih h
          refine ⟨c :: added, rfl, ?_⟩
          rw [htext, List.reverse_cons, List.append_assoc]
          rfl
      | invalid n => cases h
      | incomplete n => cases h

theorem replacement_mem_of_textFrom {ps : List Piece} {index : Nat} {done : List Char}
    {fault : Fault} (h : textFrom index done ps = .error fault) :
    '\uFFFD' ∈ ps.map Piece.lossy := by
  induction ps generalizing index done with
  | nil => cases h
  | cons p ps ih =>
      cases p with
      | char c => exact List.mem_cons_of_mem c (ih h)
      | invalid n => exact List.mem_cons_self
      | incomplete n => exact List.mem_cons_self

/-- Bytes decode to a text just when they are its bytes. -/
theorem decode_eq_ok_iff {bytes : List UInt8} {text : List Char} :
    decode bytes = .ok text ↔ bytes = encode text := by
  constructor
  · intro h
    obtain ⟨added, hpieces, rfl⟩ := map_char_of_textFrom h
    exact eq_encode_of_pieces hpieces
  · rintro rfl
    exact decode_encode text

theorem decodeLossy_encode_append (text : List Char) (rest : List UInt8) :
    decodeLossy (encode text ++ rest) = text ++ decodeLossy rest := by
  have hlossy : (text.map Piece.char).map Piece.lossy = text := by
    rw [List.map_map]
    exact List.map_id text
  rw [decodeLossy, pieces_encode_append, List.map_append, hlossy]
  rfl

/-- A fault leaves its mark. -/
theorem replacement_mem_decodeLossy {bytes : List UInt8}
    (h : ∀ text, decode bytes ≠ .ok text) : '\uFFFD' ∈ decodeLossy bytes := by
  cases hdecode : decode bytes with
  | ok text => exact absurd hdecode (h text)
  | error fault => exact replacement_mem_of_textFrom hdecode

end CheckWorker.Utf8
