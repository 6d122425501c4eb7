import CheckWorker.Json.Reading
import CheckWorker.Proofs.Json.WellFormed

/-!
# The form of what is taken

Whatever is taken off a text as a word, a text between quotes or a number has the form of one. What
is read could have been passed over as well, with the same text left, so the form of a number is
told from passing over it.
-/

namespace CheckWorker.Json

section

variable {ε α β : Type}

theorem exists_of_bind_ok {x : Except ε α} {f : α → Except ε β} {b : β}
    (h : x >>= f = .ok b) : ∃ a, x = .ok a ∧ f a = .ok b := by
  cases x with
  | error e => cases h
  | ok a => exact ⟨a, rfl, h⟩

theorem exists_of_map_ok {x : Except ε α} {f : α → β} {b : β} (h : x.map f = .ok b) :
    ∃ a, x = .ok a ∧ f a = b := by
  cases x with
  | error e => cases h
  | ok a => exact ⟨a, rfl, Except.ok.inj h⟩

end

variable {text more rest : List Char}

theorem gap_skipSpace (text : List Char) : Gap text (skipSpace text) :=
  ⟨text.takeWhile isSpace, List.all_eq_true.mp List.all_takeWhile,
    List.takeWhile_append_dropWhile.symm⟩

theorem Gap.trans (h : Gap text more) (h' : Gap more rest) : Gap text rest := by
  obtain ⟨blanks, hblanks, rfl⟩ := h
  obtain ⟨others, hothers, rfl⟩ := h'
  refine ⟨blanks ++ others, fun c hc => ?_, (List.append_assoc _ _ _).symm⟩
  rcases List.mem_append.mp hc with hc | hc
  · exact hblanks c hc
  · exact hothers c hc

theorem eq_append_of_takeWord {word : List Char} (h : takeWord word text = .ok rest) :
    text = word ++ rest := by
  induction word generalizing text with
  | nil =>
      cases h
      rfl
  | cons w word ih =>
      cases text with
      | nil => cases h
      | cons c text =>
          rw [takeWord] at h
          split at h
          case isTrue hc => rw [hc, ih h, List.cons_append]
          case isFalse => cases h

/-! ## Texts between quotes -/

theorem exists_of_takeHex {n : Nat} (h : takeHex text = .ok (n, rest)) :
    ∃ w x y z, text = w :: x :: y :: z :: rest ∧ hexValue4? w x y z = some n := by
  unfold takeHex at h
  split at h
  case h_1 w x y z behind =>
    split at h
    case h_1 m hm =>
      cases h
      exact ⟨w, x, y, z, rfl, hm⟩
    case h_2 => cases h
  case h_2 => cases h

theorem rawChar_of_takeHex {n : Nat} (h : takeHex text = .ok (n, rest)) :
    RawChar ('\\' :: 'u' :: text) rest := by
  obtain ⟨w, x, y, z, rfl, hn⟩ := exists_of_takeHex h
  exact .hex hn

theorem rawChar_of_skipEscape (h : skipEscape text = .ok rest) : RawChar ('\\' :: text) rest := by
  unfold skipEscape at h
  split at h
  case h_1 => cases h
  case h_2 text =>
    obtain ⟨⟨n, behind⟩, htake, rfl⟩ := exists_of_map_ok h
    exact rawChar_of_takeHex htake
  case h_3 c text _ =>
    split at h
    case isTrue hplain =>
      obtain ⟨d, hd⟩ := Option.isSome_iff_exists.mp hplain
      cases h
      exact .short hd
    case isFalse => cases h

theorem eq_cons_of_takePairMark {mark : Char} (h : takePairMark mark text = .ok rest) :
    text = mark :: rest := by
  unfold takePairMark at h
  split at h
  case h_1 => cases h
  case h_2 c text =>
    split at h
    case isTrue hc =>
      cases h
      rw [hc]
    case isFalse => cases h

theorem rawChar_of_takeLowSurrogate {high : Nat} {c : Char}
    (h : takeLowSurrogate high text = .ok (c, rest)) : RawChar text rest := by
  obtain ⟨marked, hslash, h⟩ := exists_of_bind_ok h
  obtain ⟨digits, hmark, h⟩ := exists_of_bind_ok h
  obtain ⟨⟨low, behind⟩, hlow, h⟩ := exists_of_bind_ok h
  rw [eq_cons_of_takePairMark hslash, eq_cons_of_takePairMark hmark]
  dsimp only at h
  split at h
  case isTrue =>
    obtain ⟨-, rfl⟩ := Prod.mk.inj (Except.ok.inj h)
    exact rawChar_of_takeHex hlow
  case isFalse => cases h

/-- An escape that is read is one character, or two halves of a pair. -/
theorem rawChars_of_takeEscape {c : Char} (h : takeEscape text = .ok (c, more))
    (hmore : RawChars more rest) : RawChars ('\\' :: text) rest := by
  unfold takeEscape at h
  split at h
  case h_1 => cases h
  case h_2 text =>
    obtain ⟨⟨n, behind⟩, hhex, h⟩ := exists_of_bind_ok h
    have hfirst := rawChar_of_takeHex hhex
    dsimp only at h
    split at h
    case isTrue => cases h
    case isFalse =>
      split at h
      case isTrue => exact .char hfirst (.char (rawChar_of_takeLowSurrogate h) hmore)
      case isFalse =>
        cases h
        exact .char hfirst hmore
  case h_3 d text _ =>
    split at h
    case h_1 hd =>
      cases h
      exact .char (.short hd) hmore
    case h_2 => cases h

theorem rawChars_of_skipText (h : skipText text = .ok rest) : RawChars text rest := by
  fun_induction skipText text with
  | case1 => cases h
  | case2 =>
      cases h
      exact .close
  | case3 text behind hescape ih => exact .char (rawChar_of_skipEscape hescape) (ih h)
  | case4 => cases h
  | case5 => cases h
  | case6 c text hquote hslash hcontrol ih =>
      have hplain : 0x20 ≤ c.toNat := Nat.le_of_not_lt hcontrol
      exact .char (.plain hplain hquote hslash) (ih h)

theorem rawChars_of_takeTextFrom {done cs : List Char}
    (h : takeTextFrom done text = .ok (cs, rest)) : RawChars text rest := by
  fun_induction takeTextFrom done text with
  | case1 => cases h
  | case2 =>
      cases h
      exact .close
  | case3 done text c behind hescape ih => exact rawChars_of_takeEscape hescape (ih h)
  | case4 => cases h
  | case5 => cases h
  | case6 done c text hquote hslash hcontrol ih =>
      have hplain : 0x20 ≤ c.toNat := Nat.le_of_not_lt hcontrol
      exact .char (.plain hplain hquote hslash) (ih h)

theorem rawChars_of_takeText {s : String} (h : takeText text = .ok (s, rest)) :
    RawChars text rest := by
  obtain ⟨⟨cs, behind⟩, htake, h⟩ := exists_of_bind_ok h
  cases h
  exact rawChars_of_takeTextFrom htake

/-! ## Numbers -/

/-- The whole digits of a number, as it may be written. -/
structure IsWhole (whole : List Char) : Prop where
  ne_nil : whole ≠ []
  isDigit : ∀ c ∈ whole, c.isDigit = true
  eq_zero : whole.head? = some '0' → whole = ['0']

theorem isDigit_takeWhile (text : List Char) :
    ∀ c ∈ text.takeWhile Char.isDigit, c.isDigit = true :=
  List.all_eq_true.mp List.all_takeWhile

theorem isWhole_of_takeInteger {whole : List Char} (h : takeInteger text = .ok (whole, rest)) :
    IsWhole whole ∧ text = whole ++ rest := by
  have hzero : IsWhole ['0'] := ⟨by simp, by simp, fun _ => rfl⟩
  cases text with
  | nil => cases h
  | cons c text =>
      by_cases hc : c = '0'
      · subst hc
        cases text with
        | nil =>
            cases h
            exact ⟨hzero, rfl⟩
        | cons d text =>
            simp only [takeInteger, if_true] at h
            split at h
            case isTrue => cases h
            case isFalse =>
              cases h
              exact ⟨hzero, rfl⟩
      · simp only [takeInteger, hc, if_false] at h
        split at h
        case isTrue hdigit =>
          cases h
          refine ⟨⟨List.cons_ne_nil _ _, ?_, fun hhead => ?_⟩, ?_⟩
          · exact List.forall_mem_cons.mpr ⟨hdigit, isDigit_takeWhile text⟩
          · exact absurd (Option.some.inj hhead) hc
          · rw [List.cons_append, List.takeWhile_append_dropWhile]
        case isFalse => cases h

/-- A text begins with a sign or not. -/
theorem exists_sign (text : List Char) : ∃ (sign : Option Char) (behind : List Char),
    (∀ c ∈ sign, c = '+' ∨ c = '-') ∧ text = sign.toList ++ behind ∧
      (sign = none → ∀ c ∈ behind.head?, c ≠ '+' ∧ c ≠ '-') := by
  cases text with
  | nil => exact ⟨none, [], by simp, rfl, by simp⟩
  | cons c text =>
      by_cases hc : c = '+' ∨ c = '-'
      · exact ⟨some c, text, by simpa using hc, rfl, by simp⟩
      · exact ⟨none, c :: text, by simp, rfl, by simpa using hc⟩

theorem skipExponent_eq {sign : Option Char} (hsign : ∀ c ∈ sign, c = '+' ∨ c = '-') {c : Char}
    (hc : c.isDigit = true) (digits : List Char) :
    skipExponent (sign.toList ++ c :: digits) = .ok (digits.dropWhile Char.isDigit) := by
  cases sign with
  | none => simp [skipExponent, hc, ne_sign hc]
  | some sign => rcases hsign sign rfl with rfl | rfl <;> simp [skipExponent, hc]

/-- What is passed over as an exponent is digits behind a sign, if there is one. -/
theorem exists_of_skipExponent (h : skipExponent text = .ok rest) :
    ∃ (sign : Option Char) (c : Char) (digits : List Char), (∀ c ∈ sign, c = '+' ∨ c = '-') ∧
      c.isDigit = true ∧ text = sign.toList ++ c :: digits ∧
        digits.dropWhile Char.isDigit = rest := by
  obtain ⟨sign, behind, hsign, rfl, hnone⟩ := exists_sign text
  cases behind with
  | nil =>
      cases sign with
      | none => cases h
      | some sign => rcases hsign sign rfl with rfl | rfl <;> cases h
  | cons c digits =>
      cases hc : c.isDigit with
      | true =>
          rw [skipExponent_eq hsign hc] at h
          exact ⟨sign, c, digits, hsign, hc, rfl, Except.ok.inj h⟩
      | false =>
          cases sign with
          | none => simp [skipExponent, hc, hnone rfl c rfl] at h
          | some sign => rcases hsign sign rfl with rfl | rfl <;> simp [skipExponent, hc] at h

theorem exists_scale_of_skipExponent {mark : Char} (hmark : mark = 'e' ∨ mark = 'E')
    (h : skipExponent text = .ok rest) : ∃ s : Scale, mark :: text = s.text ++ rest := by
  obtain ⟨sign, c, digits, hsign, hc, rfl, rfl⟩ := exists_of_skipExponent h
  refine ⟨⟨mark, sign, c :: digits.takeWhile Char.isDigit, hmark, hsign,
    List.cons_ne_nil _ _, List.forall_mem_cons.mpr ⟨hc, isDigit_takeWhile digits⟩⟩, ?_⟩
  simp [Scale.text]

theorem exists_scale_of_skipScale (h : skipScale text = .ok rest) :
    ∃ scale : Option Scale, text = (scale.map Scale.text).getD [] ++ rest := by
  unfold skipScale at h
  split at h
  case h_1 =>
    obtain ⟨s, hs⟩ := exists_scale_of_skipExponent (.inl rfl) h
    exact ⟨some s, hs⟩
  case h_2 =>
    obtain ⟨s, hs⟩ := exists_scale_of_skipExponent (.inr rfl) h
    exact ⟨some s, hs⟩
  case h_3 =>
    cases h
    exact ⟨none, rfl⟩

/-- What is passed over as a number has the form of one, behind its sign. -/
theorem exists_numeral_of_skipNumber (negative : Bool) (h : skipNumber text = .ok rest) :
    ∃ m : Numeral, m.negative = negative ∧ text = m.unsigned ++ rest := by
  unfold skipNumber at h
  split at h
  case h_1 => cases h
  case h_2 whole behind htake =>
    obtain ⟨hwhole, rfl⟩ := isWhole_of_takeInteger htake
    split at h
    case h_1 d digits =>
      split at h
      case isTrue hd =>
        obtain ⟨scale, hscale⟩ := exists_scale_of_skipScale h
        refine ⟨⟨negative, whole, (d :: digits).takeWhile Char.isDigit, scale, hwhole.ne_nil,
          hwhole.isDigit, hwhole.eq_zero, isDigit_takeWhile _⟩, rfl, ?_⟩
        have hne : (d :: digits).takeWhile Char.isDigit ≠ [] := by simp [hd]
        have hdecimals := List.takeWhile_append_dropWhile (p := Char.isDigit) (l := d :: digits)
        rw [hscale] at hdecimals
        simp only [Numeral.unsigned, if_neg hne, List.append_assoc, List.cons_append]
        rw [hdecimals]
      case isFalse => cases h
    case h_2 => cases h
  case h_3 whole behind _ htake =>
    obtain ⟨hwhole, rfl⟩ := isWhole_of_takeInteger htake
    obtain ⟨scale, rfl⟩ := exists_scale_of_skipScale h
    refine ⟨⟨negative, whole, [], scale, hwhole.ne_nil, hwhole.isDigit, hwhole.eq_zero, by simp⟩,
      rfl, ?_⟩
    simp [Numeral.unsigned]

theorem rawScalar_of_skipNumber_minus (h : skipNumber text = .ok rest) :
    RawScalar ('-' :: text) rest := by
  obtain ⟨m, hnegative, rfl⟩ := exists_numeral_of_skipNumber true h
  have htext : '-' :: (m.unsigned ++ rest) = m.text ++ rest := by
    rw [Numeral.text, if_pos hnegative, List.cons_append]
  rw [htext]
  exact .number

theorem rawScalar_of_skipNumber (h : skipNumber text = .ok rest) : RawScalar text rest := by
  obtain ⟨m, hnegative, rfl⟩ := exists_numeral_of_skipNumber false h
  have htext : m.unsigned = m.text := by
    rw [Numeral.text, hnegative]
    rfl
  rw [htext]
  exact .number

/-! ## Numbers that are read -/

theorem eq_of_doubleOf {negative : Bool} {significand : Nat} {exponent : Int} {n : Number}
    (h : doubleOf negative significand exponent text = .ok (n, rest)) : text = rest := by
  unfold doubleOf at h
  split at h
  case h_1 =>
    cases h
    rfl
  case h_2 => cases h

/-- The digits of an exponent are taken up to the last, or are left behind in part. -/
theorem dropWhile_of_exponentFrom {value : Nat} :
    (∀ n rest, exponentFrom value text = .ok (n, rest) → text.dropWhile Char.isDigit = rest) ∧
      ∀ left, exponentFrom value text = .error left →
        left.dropWhile Char.isDigit = text.dropWhile Char.isDigit := by
  induction text generalizing value with
  | nil =>
      refine ⟨fun n rest h => ?_, fun left h => ?_⟩
      · cases h
        rfl
      · cases h
  | cons c text ih =>
      cases hc : c.isDigit with
      | false =>
          refine ⟨fun n rest h => ?_, fun left h => ?_⟩
          · simp only [exponentFrom, hc, Bool.false_eq_true, if_false, Except.ok.injEq,
              Prod.mk.injEq] at h
            rw [List.dropWhile_cons_of_neg (by simp [hc]), h.2]
          · simp [exponentFrom, hc] at h
      | true =>
          rw [List.dropWhile_cons_of_pos hc, exponentFrom, if_pos hc]
          by_cases hle : value * 10 + digitValue c ≤ maxExponent
          · rw [if_pos hle]
            exact ih
          · rw [if_neg hle]
            refine ⟨fun n rest h => ?_, fun left h => ?_⟩
            · cases h
            · rw [Except.error.inj h]

variable {negative : Bool} {significand : Nat} {exponent : Int} {n : Number}

theorem skipExponent_of_takeExponent
    (h : takeExponent negative significand exponent text = .ok (n, rest)) :
    skipExponent text = .ok rest := by
  obtain ⟨sign, behind, hsign, rfl, hnone⟩ := exists_sign text
  cases behind with
  | nil =>
      cases sign with
      | none => cases h
      | some sign => rcases hsign sign rfl with rfl | rfl <;> cases h
  | cons c digits =>
      cases hc : c.isDigit with
      | true =>
          rw [skipExponent_eq hsign hc]
          cases hexponent : exponentFrom (digitValue c) digits with
          | ok taken =>
              rw [takeExponent_of_ok hsign hc hexponent] at h
              rw [dropWhile_of_exponentFrom.1 _ _ hexponent, eq_of_doubleOf h]
          | error left =>
              rw [takeExponent_of_error hsign hc hexponent] at h
              split at h
              case isTrue => cases h
              case isFalse =>
                cases h
                rw [dropWhile_of_exponentFrom.2 _ hexponent]
      | false =>
          cases sign with
          | none => simp [takeExponent, hc, hnone rfl c rfl] at h
          | some sign => rcases hsign sign rfl with rfl | rfl <;> simp [takeExponent, hc] at h

theorem skipScale_of_takeScale
    (h : takeScale negative significand exponent text = .ok (n, rest)) :
    skipScale text = .ok rest := by
  unfold takeScale at h
  split at h
  case h_1 => exact skipExponent_of_takeExponent h
  case h_2 => exact skipExponent_of_takeExponent h
  case h_3 hlower hupper =>
    rw [skipScale, eq_of_doubleOf h]
    · exact hlower
    · exact hupper

/-- Decimals that are read are not empty, and their scale could have been passed over. -/
theorem exists_of_takeDecimals
    (h : takeDecimals negative significand exponent text = .ok (n, rest)) :
    ∃ d digits, text = d :: digits ∧ d.isDigit = true ∧
      skipScale (text.dropWhile Char.isDigit) = .ok rest := by
  unfold takeDecimals at h
  dsimp only at h
  split at h
  case isTrue => cases h
  case isFalse hne =>
    cases text with
    | nil => simp at hne
    | cons d digits =>
        cases hd : d.isDigit with
        | true => exact ⟨d, digits, rfl, hd, skipScale_of_takeScale h⟩
        | false => simp [hd] at hne

/-- A number that is read could have been passed over. -/
theorem skipNumber_of_takeNumber (h : takeNumber negative text = .ok (n, rest)) :
    skipNumber text = .ok rest := by
  obtain ⟨⟨whole, behind⟩, htake, h⟩ := exists_of_bind_ok h
  dsimp only at h
  split at h
  case h_1 decimals =>
    obtain ⟨d, digits, rfl, hd, hscale⟩ := exists_of_takeDecimals h
    simp only [skipNumber, htake, hd, if_true]
    exact hscale
  case h_2 =>
    simp only [skipNumber, htake]
    exact skipScale_of_takeScale h
  case h_3 =>
    simp only [skipNumber, htake]
    exact skipScale_of_takeScale h
  case h_4 hdot hlower hupper =>
    have hend : behind = rest := by
      split at h
      case isTrue => exact eq_of_doubleOf h
      case isFalse =>
        split at h
        case isTrue =>
          cases h
          rfl
        case isFalse =>
          split at h
          case isTrue =>
            cases h
            rfl
          case isFalse => exact eq_of_doubleOf h
    subst hend
    unfold skipNumber
    rw [htake]
    split
    case h_1 hnone => cases hnone
    case h_2 hsome =>
      cases hsome
      exact absurd rfl (hdot _)
    case h_3 hsome =>
      cases hsome
      rw [skipScale]
      · exact hlower
      · exact hupper

/-! ## Scalars -/

theorem rawScalar_of_skipScalar {c : Char} (h : skipScalar c text = .ok rest) :
    RawScalar (c :: text) rest := by
  simp only [skipScalar] at h
  split at h
  case isTrue hc =>
    rw [hc, eq_append_of_takeWord h]
    exact .null
  split at h
  case isTrue hc =>
    rw [hc, eq_append_of_takeWord h]
    exact .yes
  split at h
  case isTrue hc =>
    rw [hc, eq_append_of_takeWord h]
    exact .no
  split at h
  case isTrue hc =>
    rw [hc]
    exact rawScalar_of_skipNumber_minus h
  split at h
  case isTrue => exact rawScalar_of_skipNumber h
  split at h
  case isTrue hc =>
    rw [hc]
    exact .text (rawChars_of_skipText h)
  case isFalse => cases h

theorem rawScalar_of_readScalar {v : Value} (h : readScalar text = .ok (v, rest)) :
    RawScalar text rest := by
  cases text with
  | nil => cases h
  | cons c text =>
      simp only [readScalar] at h
      split at h
      case isTrue hc =>
        obtain ⟨_, htake, hread⟩ := exists_of_map_ok h
        cases hread
        rw [hc, eq_append_of_takeWord htake]
        exact .null
      split at h
      case isTrue hc =>
        obtain ⟨_, htake, hread⟩ := exists_of_map_ok h
        cases hread
        rw [hc, eq_append_of_takeWord htake]
        exact .yes
      split at h
      case isTrue hc =>
        obtain ⟨_, htake, hread⟩ := exists_of_map_ok h
        cases hread
        rw [hc, eq_append_of_takeWord htake]
        exact .no
      split at h
      case isTrue hc =>
        obtain ⟨_, htake, hread⟩ := exists_of_map_ok h
        cases hread
        rw [hc]
        exact rawScalar_of_skipNumber_minus (skipNumber_of_takeNumber htake)
      split at h
      case isTrue =>
        obtain ⟨_, htake, hread⟩ := exists_of_map_ok h
        cases hread
        exact rawScalar_of_skipNumber (skipNumber_of_takeNumber htake)
      split at h
      case isTrue hc =>
        obtain ⟨_, htake, hread⟩ := exists_of_map_ok h
        cases hread
        rw [hc]
        exact .text (rawChars_of_takeText htake)
      case isFalse => cases h

end CheckWorker.Json
