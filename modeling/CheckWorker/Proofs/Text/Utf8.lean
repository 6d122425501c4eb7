import CheckWorker.Text.Utf8

/-!
# Characters as bytes

The bytes of a character are one piece again, whatever follows them, so decoding gives back the text
that was encoded. A byte below `0x80` is never part of a longer character: among the bytes of a text
a line feed stands just where the text has one.
-/

namespace CheckWorker.Utf8

/-! ## Bytes by their numbers -/

section

variable {a b : UInt8}

theorem width?_eq_one (h : a.toNat < 0x80) : width? a = some 1 := by
  simp [width?, UInt8.lt_iff_toNat_lt, h]

theorem width?_eq_two (hlow : 0xC2 ≤ a.toNat) (hhigh : a.toNat ≤ 0xDF) : width? a = some 2 := by
  have hone : ¬ a.toNat < 128 := by omega
  simp [width?, UInt8.lt_iff_toNat_lt, UInt8.le_iff_toNat_le, hone, hlow, hhigh]

theorem width?_eq_three (hlow : 0xE0 ≤ a.toNat) (hhigh : a.toNat ≤ 0xEF) : width? a = some 3 := by
  have hone : ¬ a.toNat < 128 := by omega
  have htwo : ¬ a.toNat ≤ 223 := by omega
  simp [width?, UInt8.lt_iff_toNat_lt, UInt8.le_iff_toNat_le, hone, htwo, hlow, hhigh]

theorem width?_eq_four (hlow : 0xF0 ≤ a.toNat) (hhigh : a.toNat ≤ 0xF4) : width? a = some 4 := by
  have hone : ¬ a.toNat < 128 := by omega
  have htwo : ¬ a.toNat ≤ 223 := by omega
  have hthree : ¬ a.toNat ≤ 239 := by omega
  simp [width?, UInt8.lt_iff_toNat_lt, UInt8.le_iff_toNat_le, hone, htwo, hthree, hlow, hhigh]

theorem isTail_of_toNat (hlow : 0x80 ≤ b.toNat) (hhigh : b.toNat ≤ 0xBF) : isTail b = true := by
  simp [isTail, UInt8.le_iff_toNat_le, hlow, hhigh]

/-- A second byte that may follow most first bytes may follow each, if it shuts out nothing after
the few that are stricter. -/
theorem isSecond_of_toNat (hlow : 0x80 ≤ b.toNat) (hhigh : b.toNat ≤ 0xBF)
    (he0 : a.toNat = 0xE0 → 0xA0 ≤ b.toNat) (hed : a.toNat = 0xED → b.toNat ≤ 0x9F)
    (hf0 : a.toNat = 0xF0 → 0x90 ≤ b.toNat) (hf4 : a.toNat = 0xF4 → b.toNat ≤ 0x8F) :
    isSecond a b = true := by
  unfold isSecond
  split
  · next h => simp [UInt8.le_iff_toNat_le, he0 (by rw [h]; rfl), hhigh]
  split
  · next h => simp [UInt8.le_iff_toNat_le, hlow, hed (by rw [h]; rfl)]
  split
  · next h => simp [UInt8.le_iff_toNat_le, hf0 (by rw [h]; rfl), hhigh]
  split
  · next h => simp [UInt8.le_iff_toNat_le, hlow, hf4 (by rw [h]; rfl)]
  · exact isTail_of_toNat hlow hhigh

end

/-! ## Pieces -/

section

variable {a b c d : UInt8} (done : List Piece) (rest : List UInt8)

theorem piecesFrom_one (ha : width? a = some 1) :
    piecesFrom done (a :: rest) = piecesFrom (.char (Char.ofNat a.toNat) :: done) rest := by
  rw [piecesFrom.eq_def]
  simp only [ha]

theorem piecesFrom_two (ha : width? a = some 2) (hb : isSecond a b = true) :
    piecesFrom done (a :: b :: rest) =
      piecesFrom (.char (Char.ofNat ((a.toNat - 0xC0) * 0x40 + bits b)) :: done) rest := by
  rw [piecesFrom.eq_def]
  simp only [ha, hb, if_true]

theorem piecesFrom_three (ha : width? a = some 3) (hb : isSecond a b = true)
    (hc : isTail c = true) :
    piecesFrom done (a :: b :: c :: rest) =
      piecesFrom (.char (Char.ofNat ((a.toNat - 0xE0) * 0x1000 + bits b * 0x40 + bits c)) :: done)
        rest := by
  rw [piecesFrom.eq_def]
  simp only [ha, hb, hc, if_true]

theorem piecesFrom_four (ha : width? a = some 4) (hb : isSecond a b = true) (hc : isTail c = true)
    (hd : isTail d = true) :
    piecesFrom done (a :: b :: c :: d :: rest) =
      piecesFrom (.char (Char.ofNat
        ((a.toNat - 0xF0) * 0x40000 + bits b * 0x1000 + bits c * 0x40 + bits d)) :: done) rest := by
  rw [piecesFrom.eq_def]
  simp only [ha, hb, hc, hd, if_true]

end

/-! ## Characters by their numbers -/

theorem toNat_byte {n : Nat} (h : n < 256) : (UInt8.ofNat n).toNat = n :=
  UInt8.toNat_ofNat_of_lt h

section

variable {n : Nat} (done : List Piece) (rest : List UInt8)

theorem piecesFrom_number_one (h : n < 0x80) :
    piecesFrom done (UInt8.ofNat n :: rest) = piecesFrom (.char (Char.ofNat n) :: done) rest := by
  have ha := toNat_byte (n := n) (by omega)
  have hwidth := width?_eq_one (a := UInt8.ofNat n) (by omega)
  rw [piecesFrom_one done rest hwidth, ha]

theorem piecesFrom_number_two (hlow : 0x80 ≤ n) (hhigh : n < 0x800) :
    piecesFrom done (UInt8.ofNat (n / 64 % 32 + 192) :: UInt8.ofNat (n % 64 + 128) :: rest) =
      piecesFrom (.char (Char.ofNat n) :: done) rest := by
  have ha := toNat_byte (n := n / 64 % 32 + 192) (by omega)
  have hb := toNat_byte (n := n % 64 + 128) (by omega)
  generalize UInt8.ofNat (n / 64 % 32 + 192) = a at ha
  generalize UInt8.ofNat (n % 64 + 128) = b at hb
  have hwidth := width?_eq_two (a := a) (by omega) (by omega)
  have hsecond := isSecond_of_toNat (a := a) (b := b) (by omega) (by omega) (by omega) (by omega)
    (by omega) (by omega)
  have hnumber : (a.toNat - 0xC0) * 0x40 + bits b = n := by
    unfold bits
    omega
  rw [piecesFrom_two done rest hwidth hsecond, hnumber]

theorem piecesFrom_number_three (hlow : 0x800 ≤ n) (hhigh : n < 0x10000)
    (hvalid : n < 0xD800 ∨ 0xDFFF < n) :
    piecesFrom done (UInt8.ofNat (n / 4096 % 16 + 224) :: UInt8.ofNat (n / 64 % 64 + 128) ::
        UInt8.ofNat (n % 64 + 128) :: rest) =
      piecesFrom (.char (Char.ofNat n) :: done) rest := by
  have ha := toNat_byte (n := n / 4096 % 16 + 224) (by omega)
  have hb := toNat_byte (n := n / 64 % 64 + 128) (by omega)
  have hc := toNat_byte (n := n % 64 + 128) (by omega)
  generalize UInt8.ofNat (n / 4096 % 16 + 224) = a at ha
  generalize UInt8.ofNat (n / 64 % 64 + 128) = b at hb
  generalize UInt8.ofNat (n % 64 + 128) = c at hc
  have hwidth := width?_eq_three (a := a) (by omega) (by omega)
  have hsecond := isSecond_of_toNat (a := a) (b := b) (by omega) (by omega) (by omega) (by omega)
    (by omega) (by omega)
  have hthird := isTail_of_toNat (b := c) (by omega) (by omega)
  have hnumber : (a.toNat - 0xE0) * 0x1000 + bits b * 0x40 + bits c = n := by
    unfold bits
    omega
  rw [piecesFrom_three done rest hwidth hsecond hthird, hnumber]

theorem piecesFrom_number_four (hlow : 0x10000 ≤ n) (hhigh : n < 0x110000) :
    piecesFrom done (UInt8.ofNat (n / 262144 % 8 + 240) :: UInt8.ofNat (n / 4096 % 64 + 128) ::
        UInt8.ofNat (n / 64 % 64 + 128) :: UInt8.ofNat (n % 64 + 128) :: rest) =
      piecesFrom (.char (Char.ofNat n) :: done) rest := by
  have ha := toNat_byte (n := n / 262144 % 8 + 240) (by omega)
  have hb := toNat_byte (n := n / 4096 % 64 + 128) (by omega)
  have hc := toNat_byte (n := n / 64 % 64 + 128) (by omega)
  have hd := toNat_byte (n := n % 64 + 128) (by omega)
  generalize UInt8.ofNat (n / 262144 % 8 + 240) = a at ha
  generalize UInt8.ofNat (n / 4096 % 64 + 128) = b at hb
  generalize UInt8.ofNat (n / 64 % 64 + 128) = c at hc
  generalize UInt8.ofNat (n % 64 + 128) = d at hd
  have hwidth := width?_eq_four (a := a) (by omega) (by omega)
  have hsecond := isSecond_of_toNat (a := a) (b := b) (by omega) (by omega) (by omega) (by omega)
    (by omega) (by omega)
  have hthird := isTail_of_toNat (b := c) (by omega) (by omega)
  have hfourth := isTail_of_toNat (b := d) (by omega) (by omega)
  have hnumber : (a.toNat - 0xF0) * 0x40000 + bits b * 0x1000 + bits c * 0x40 + bits d = n := by
    unfold bits
    omega
  rw [piecesFrom_four done rest hwidth hsecond hthird hfourth, hnumber]

end

/-- The bytes of a character are one piece, whatever follows them. -/
theorem piecesFrom_utf8EncodeChar (done : List Piece) (c : Char) (rest : List UInt8) :
    piecesFrom done (String.utf8EncodeChar c ++ rest) = piecesFrom (.char c :: done) rest := by
  have hrange : c.toNat < 0xD800 ∨ 0xDFFF < c.toNat ∧ c.toNat < 0x110000 := c.valid
  have hdef : c.val.toNat = c.toNat := rfl
  have hchar : Char.ofNat c.toNat = c := Char.ofNat_toNat c
  simp only [String.utf8EncodeChar, hdef]
  split
  · exact (piecesFrom_number_one done rest (by omega)).trans (by rw [hchar])
  split
  · exact (piecesFrom_number_two done rest (by omega) (by omega)).trans (by rw [hchar])
  split
  · exact (piecesFrom_number_three done rest (by omega) (by omega) (by omega)).trans
      (by rw [hchar])
  · exact (piecesFrom_number_four done rest (by omega) (by omega)).trans (by rw [hchar])

theorem piecesFrom_encode (done : List Piece) (text : List Char) :
    piecesFrom done (encode text) = done.reverse ++ text.map .char := by
  induction text generalizing done with
  | nil => simp [piecesFrom]
  | cons c text ih =>
      calc piecesFrom done (encode (c :: text))
          = piecesFrom (.char c :: done) (encode text) := piecesFrom_utf8EncodeChar done c _
        _ = (Piece.char c :: done).reverse ++ text.map .char := ih _
        _ = done.reverse ++ (c :: text).map .char := by simp

theorem textFrom_map_char (index : Nat) (done text : List Char) :
    textFrom index done (text.map .char) = .ok (done.reverse ++ text) := by
  induction text generalizing index done with
  | nil => simp [textFrom]
  | cons c text ih => simp [textFrom, ih]

/-- Decoding gives back what was encoded. -/
theorem decode_encode (text : List Char) : decode (encode text) = .ok text := by
  rw [decode, pieces, piecesFrom_encode]
  exact textFrom_map_char 0 [] text

theorem encode_toList (s : String) : encode s.toList = s.toUTF8.data.toList := by
  have h : s.toList.utf8Encode = s.toUTF8 := String.utf8Encode_toList
  rw [← h, encode, List.utf8Encode, List.data_toByteArray]

theorem toList_loop (bytes : ByteArray) (i : Nat) (done : List UInt8) :
    ByteArray.toList.loop bytes i done = done.reverse ++ bytes.data.toList.drop i := by
  rw [ByteArray.toList.loop]
  split
  case isTrue h =>
    have hi : i < bytes.data.toList.length := h
    have hget : bytes.get! i = bytes.data.toList[i] := getElem!_pos bytes.data i h
    rw [toList_loop, List.drop_eq_getElem_cons hi, List.reverse_cons, List.append_assoc, hget]
    rfl
  case isFalse h =>
    have hi : bytes.data.toList.length ≤ i := Nat.not_lt.mp h
    rw [List.drop_of_length_le hi, List.append_nil]
termination_by bytes.size - i

theorem toList_eq (bytes : ByteArray) : bytes.toList = bytes.data.toList :=
  toList_loop bytes 0 []

theorem decode?_toUTF8 (s : String) : s.toUTF8.decode? = some s := by
  rw [ByteArray.decode?, toList_eq, ← encode_toList, decode_encode]
  exact congrArg some String.ofList_toList

/-! ## Short characters among the bytes -/

/-- A byte below `0x80` is a character of its own. -/
theorem toNat_eq_of_mem {c : Char} {b : UInt8} (h : b ∈ String.utf8EncodeChar c)
    (hb : b.toNat < 0x80) : c.toNat = b.toNat := by
  have hrange : c.toNat < 0xD800 ∨ 0xDFFF < c.toNat ∧ c.toNat < 0x110000 := c.valid
  have hdef : c.val.toNat = c.toNat := rfl
  simp only [String.utf8EncodeChar, hdef] at h
  split at h
  · rw [List.mem_singleton] at h
    rw [h, toNat_byte (by omega)]
  -- The bytes of longer characters are all above.
  have hlong {n : Nat} (hlow : 0x80 ≤ n) (hhigh : n < 256) : b ≠ UInt8.ofNat n := by
    rintro rfl
    rw [toNat_byte hhigh] at hb
    omega
  split at h
  · simp only [List.mem_cons, List.not_mem_nil, or_false] at h
    rcases h with h | h
    · exact absurd h (hlong (by omega) (by omega))
    · exact absurd h (hlong (by omega) (by omega))
  split at h
  · simp only [List.mem_cons, List.not_mem_nil, or_false] at h
    rcases h with h | h | h
    · exact absurd h (hlong (by omega) (by omega))
    · exact absurd h (hlong (by omega) (by omega))
    · exact absurd h (hlong (by omega) (by omega))
  · simp only [List.mem_cons, List.not_mem_nil, or_false] at h
    rcases h with h | h | h | h
    · exact absurd h (hlong (by omega) (by omega))
    · exact absurd h (hlong (by omega) (by omega))
    · exact absurd h (hlong (by omega) (by omega))
    · exact absurd h (hlong (by omega) (by omega))

theorem mem_of_mem_encode {text : List Char} {b : UInt8} (h : b ∈ encode text)
    (hb : b.toNat < 0x80) : Char.ofNat b.toNat ∈ text := by
  obtain ⟨c, hc, hbc⟩ := List.mem_flatMap.mp h
  rwa [← toNat_eq_of_mem hbc hb, Char.ofNat_toNat]

end CheckWorker.Utf8
