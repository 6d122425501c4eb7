import CheckWorker.Json.Skip
import CheckWorker.Proofs.Json.Tokens

/-!
# The form of what is passed over

What is passed over has the form of a value. What a passage still demands of a text is told by the
brackets that are open: the rest of each, one after the other. A step of the passage gives what it
took back to that demand, so a passage that comes to its end has passed over a value.
-/

namespace CheckWorker.Json

/-! ## Forms of any depth -/

theorem RawEntry.mono {R R' : List Char → List Char → Prop} {text rest : List Char}
    (hR : ∀ {text rest}, R text rest → R' text rest) (h : RawEntry R text rest) :
    RawEntry R' text rest := by
  obtain ⟨hchars, hcolon, hgap, hvalue⟩ := h
  exact .mk hchars hcolon hgap (hR hvalue)

theorem Items.mono {α : Type} {close : Char} {P Q : α → List Char → List Char → Prop}
    (hP : ∀ {a text rest}, P a text rest → Q a text rest) {first : Bool} {as : List α}
    {text rest : List Char} (h : Items close P first as text rest) :
    Items close Q first as text rest := by
  have hmap := h.map id hP
  rwa [List.map_id] at hmap

theorem WellFormed.succ {depth : Nat} {text rest : List Char} (h : WellFormed depth text rest) :
    WellFormed (depth + 1) text rest := by
  induction depth generalizing text rest with
  | zero => exact .scalar h
  | succ depth ih =>
      cases h with
      | scalar hs => exact .scalar hs
      | array hitems => exact .array (hitems.mono ih)
      | object hentries => exact .object (hentries.mono fun he => he.mono ih)

theorem WellFormed.le {depth depth' : Nat} (hle : depth ≤ depth') {text rest : List Char}
    (h : WellFormed depth text rest) : WellFormed depth' text rest := by
  induction hle with
  | refl => exact h
  | step _ ih => exact ih.succ

/-- A text begins with something in the form of a value, however deep it is nested. -/
def Formed (text rest : List Char) : Prop :=
  ∃ depth, WellFormed depth text rest

/-- The form of what stands between commas in a bracket. -/
def Bracket.Inside : Bracket → List Char → List Char → Prop
  | .array => Formed
  | .object => RawEntry Formed

/-- The form of what is left of a bracket, up to and with its end. -/
def Bracket.Within (b : Bracket) (first : Bool) (text rest : List Char) : Prop :=
  ∃ items : List Unit, Items b.close (fun _ => b.Inside) first items text rest

/-- One depth is enough for all that stands in a bracket. -/
theorem exists_depth_of_items {close : Char} {P : Nat → List Char → List Char → Prop}
    (hP : ∀ {depth depth' text rest}, depth ≤ depth' → P depth text rest → P depth' text rest)
    {first : Bool} {items : List Unit} {text rest : List Char}
    (h : Items close (fun _ text rest => ∃ depth, P depth text rest) first items text rest) :
    ∃ depth, Items close (fun _ => P depth) first items text rest := by
  induction h with
  | done hgap => exact ⟨0, .done hgap⟩
  | first hgap hitem _ ih =>
      obtain ⟨depth, hitem⟩ := hitem
      obtain ⟨depth', hmore⟩ := ih
      exact ⟨max depth depth', .first hgap (hP (Nat.le_max_left _ _) hitem)
        (hmore.mono (hP (Nat.le_max_right _ _)))⟩
  | next hcomma hgap hitem _ ih =>
      obtain ⟨depth, hitem⟩ := hitem
      obtain ⟨depth', hmore⟩ := ih
      exact ⟨max depth depth', .next hcomma hgap (hP (Nat.le_max_left _ _) hitem)
        (hmore.mono (hP (Nat.le_max_right _ _)))⟩

theorem RawScalar.formed {text rest : List Char} (h : RawScalar text rest) : Formed text rest :=
  ⟨0, h⟩

theorem formed_array {text rest : List Char} (h : Bracket.array.Within true text rest) :
    Formed ('[' :: text) rest := by
  obtain ⟨items, hitems⟩ := h
  obtain ⟨depth, hitems⟩ := exists_depth_of_items (fun hle hv => hv.le hle) hitems
  exact ⟨depth + 1, .array hitems⟩

theorem formed_object {text rest : List Char} (h : Bracket.object.Within true text rest) :
    Formed ('{' :: text) rest := by
  obtain ⟨entries, hentries⟩ := h
  have hdepth : Items '}' (fun _ text rest => ∃ depth, RawEntry (WellFormed depth) text rest) true
      entries text rest := by
    apply hentries.mono
    rintro _ text rest ⟨hchars, hcolon, hgap, depth, hvalue⟩
    exact ⟨depth, .mk hchars hcolon hgap hvalue⟩
  obtain ⟨depth, hentries⟩ := exists_depth_of_items
    (P := fun depth => RawEntry (WellFormed depth)) (fun hle he => he.mono (WellFormed.le hle))
    hdepth
  exact ⟨depth + 1, .object hentries⟩

theorem Bracket.Within.done {b : Bracket} {first : Bool} {text rest : List Char}
    (h : Gap text (b.close :: rest)) : b.Within first text rest :=
  ⟨[], .done h⟩

/-- What may stand before an item: blanks, and a comma if it is not the first. -/
def Parted : (first : Bool) → List Char → List Char → Prop
  | true, text, core => Gap text core
  | false, text, core => ∃ behind, Gap text (',' :: behind) ∧ Gap behind core

theorem Parted.trans {first : Bool} {text core inner : List Char} (h : Parted first text core)
    (hgap : Gap core inner) : Parted first text inner := by
  cases first with
  | true => exact Gap.trans h hgap
  | false =>
      obtain ⟨behind, hcomma, hbehind⟩ := h
      exact ⟨behind, hcomma, hbehind.trans hgap⟩

theorem Bracket.Within.cons {b : Bracket} {first : Bool} {text core more rest : List Char}
    (hparted : Parted first text core) (hitem : b.Inside core more)
    (hmore : b.Within false more rest) : b.Within first text rest := by
  obtain ⟨items, hitems⟩ := hmore
  cases first with
  | true => exact ⟨() :: items, .first hparted hitem hitems⟩
  | false =>
      obtain ⟨behind, hcomma, hgap⟩ := hparted
      exact ⟨() :: items, .next hcomma hgap hitem hitems⟩

/-- A text begins, behind blanks, with something in the form of a value. -/
def Begins (text rest : List Char) : Prop :=
  ∃ core, Gap text core ∧ Formed core rest

theorem Gap.begins {text more rest : List Char} (hgap : Gap text more) (h : Begins more rest) :
    Begins text rest := by
  obtain ⟨core, hcore, hform⟩ := h
  exact ⟨core, hgap.trans hcore, hform⟩

theorem gap_of_skipSpace {text more : List Char} (h : skipSpace text = more) : Gap text more :=
  h ▸ gap_skipSpace text

theorem gap_of_takeColon {text rest : List Char} (h : takeColon text = .ok rest) :
    Gap text (':' :: rest) := by
  unfold takeColon at h
  split at h
  case h_1 => cases h
  case h_2 c behind hskip =>
    split at h
    case isTrue hc =>
      cases h
      exact gap_of_skipSpace (hc ▸ hskip)
    case isFalse => cases h

/-- A text begins, behind blanks, with a colon and something in the form of a value. -/
def BeginsKeyed (text rest : List Char) : Prop :=
  ∃ behind, Gap text (':' :: behind) ∧ Begins behind rest

theorem BeginsKeyed.entry {chars text rest : List Char} (hchars : RawChars chars text)
    (h : BeginsKeyed text rest) : Bracket.object.Inside ('"' :: chars) rest := by
  obtain ⟨behind, hcolon, core, hgap, hform⟩ := h
  exact .mk hchars hcolon hgap hform

/-! ## Passing over -/

section

variable {b : Bracket} {p p' : Passage} {opened opened' : List Bracket}
  {text more rest : List Char}

theorem exists_of_skipLead (h : skipLead b text = .ok more) (hmore : Begins more rest) :
    ∃ core, Gap text core ∧ b.Inside core rest := by
  cases b with
  | array =>
      cases h
      exact hmore
  | object =>
      unfold skipLead at h
      dsimp only at h
      split at h
      case h_1 => cases h
      case h_2 c behind hskip =>
        split at h
        case isTrue hc =>
          obtain ⟨colon, hkey, hcolon⟩ := exists_of_bind_ok h
          refine ⟨'"' :: behind, gap_of_skipSpace (hc ▸ hskip), ?_⟩
          apply BeginsKeyed.entry (rawChars_of_skipText hkey)
          exact ⟨more, gap_of_takeColon hcolon, hmore⟩
        case isFalse => cases h

/-- A text begins with the rest of each open bracket, the innermost first. -/
def Enclosed : List Bracket → List Char → List Char → Prop
  | [], text, rest => text = rest
  | b :: opened, text, rest => ∃ more, b.Within false text more ∧ Enclosed opened more rest

/-- What a passage still demands of a text. -/
def Passage.Demands : Passage → List Bracket → List Char → List Char → Prop
  | .value, opened, text, rest => ∃ more, Begins text more ∧ Enclosed opened more rest
  | .after, opened, text, rest => Enclosed opened text rest

theorem within_of_skipOpening (h : skipOpening b text = .ok (.after, more)) :
    b.Within true text more := by
  unfold skipOpening at h
  split at h
  case h_1 => cases h
  case h_2 c behind hskip =>
    split at h
    case isTrue hc =>
      cases h
      exact .done (gap_of_skipSpace (hc ▸ hskip))
    case isFalse =>
      obtain ⟨_, -, hvalue⟩ := exists_of_map_ok h
      cases hvalue

/-- A bracket is all there when it has been opened and what is demanded then is. -/
theorem exists_within_of_skipOpening (h : skipOpening b text = .ok (.value, more))
    (hmore : Passage.value.Demands (b :: opened) more rest) :
    ∃ behind, b.Within true text behind ∧ Enclosed opened behind rest := by
  unfold skipOpening at h
  split at h
  case h_1 => cases h
  case h_2 c body hskip =>
    split at h
    case isTrue => cases h
    case isFalse =>
      obtain ⟨_, hlead, hvalue⟩ := exists_of_map_ok h
      cases hvalue
      obtain ⟨left, hbegins, behind, hwithin, henclosed⟩ := hmore
      obtain ⟨core, hgap, hinside⟩ := exists_of_skipLead hlead hbegins
      have hparted : Parted true text core := (gap_of_skipSpace hskip).trans hgap
      exact ⟨behind, .cons hparted hinside hwithin, henclosed⟩

/-- A bracket is a value, whether it is closed at once or entered. -/
theorem demands_of_skipOpening {mark : Char} {body : List Char}
    (hskip : skipSpace text = mark :: body)
    (hform : ∀ {rest}, b.Within true body rest → Formed (mark :: body) rest)
    (h : skipOpening b body = .ok (p, more))
    (hentered : p = .value → Passage.value.Demands (b :: opened) more rest)
    (hclosed : p = .after → Passage.after.Demands opened more rest) :
    Passage.value.Demands opened text rest := by
  cases p with
  | value =>
      obtain ⟨behind, hwithin, henclosed⟩ := exists_within_of_skipOpening h (hentered rfl)
      exact ⟨behind, ⟨_, gap_of_skipSpace hskip, hform hwithin⟩, henclosed⟩
  | after =>
      have hwithin := within_of_skipOpening h
      exact ⟨more, ⟨_, gap_of_skipSpace hskip, hform hwithin⟩, hclosed rfl⟩

theorem demands_of_skipStep_value (h : skipStep .value opened text = .ok (p', opened', more))
    (hmore : p'.Demands opened' more rest) : Passage.value.Demands opened text rest := by
  cases hskip : skipSpace text with
  | nil =>
      simp only [skipStep, hskip] at h
      cases h
  | cons c body =>
      simp only [skipStep, hskip] at h
      split at h
      case isTrue hc =>
        obtain ⟨⟨q, left⟩, hopening, hstep⟩ := exists_of_bind_ok h
        have hform {rest : List Char} (hwithin : Bracket.array.Within true body rest) :
            Formed (c :: body) rest := hc ▸ formed_array hwithin
        apply demands_of_skipOpening hskip hform hopening
        all_goals
          rintro rfl
          cases hstep
          exact hmore
      case isFalse =>
        split at h
        case isTrue hc =>
          obtain ⟨⟨q, left⟩, hopening, hstep⟩ := exists_of_bind_ok h
          have hform {rest : List Char} (hwithin : Bracket.object.Within true body rest) :
              Formed (c :: body) rest := hc ▸ formed_object hwithin
          apply demands_of_skipOpening hskip hform hopening
          all_goals
            rintro rfl
            cases hstep
            exact hmore
        case isFalse =>
          obtain ⟨_, hscalar, hstep⟩ := exists_of_map_ok h
          cases hstep
          have hform := (rawScalar_of_skipScalar hscalar).formed
          exact ⟨more, ⟨_, gap_of_skipSpace hskip, hform⟩, hmore⟩

theorem demands_of_skipStep_after
    (h : skipStep .after (b :: opened) text = .ok (p', opened', more))
    (hmore : p'.Demands opened' more rest) : Passage.after.Demands (b :: opened) text rest := by
  cases hskip : skipSpace text with
  | nil =>
      simp only [skipStep, hskip] at h
      cases h
  | cons c body =>
      have hgap := gap_of_skipSpace hskip
      simp only [skipStep, hskip] at h
      split at h
      case isTrue hc =>
        obtain ⟨_, hlead, hstep⟩ := exists_of_map_ok h
        cases hstep
        obtain ⟨left, hbegins, behind, hwithin, henclosed⟩ := hmore
        obtain ⟨core, hcore, hinside⟩ := exists_of_skipLead hlead hbegins
        have hparted : Parted false text core := ⟨body, hc ▸ hgap, hcore⟩
        exact ⟨behind, .cons hparted hinside hwithin, henclosed⟩
      case isFalse =>
        split at h
        case isTrue hc =>
          cases h
          exact ⟨more, .done (hc ▸ hgap), hmore⟩
        case isFalse => cases h

/-- A passage that comes to its end has passed over what it demanded. -/
theorem demands_of_skipFrom {steps : List Char} (h : skipFrom p opened steps text = .ok rest) :
    p.Demands opened text rest := by
  induction steps generalizing p opened text with
  | nil =>
      cases p with
      | value => cases h
      | after =>
          cases opened with
          | nil => exact Except.ok.inj h
          | cons b opened => cases h
  | cons c steps ih =>
      cases p with
      | value =>
          obtain ⟨⟨p', opened', more⟩, hstep, hrun⟩ := exists_of_bind_ok h
          exact demands_of_skipStep_value hstep (ih hrun)
      | after =>
          cases opened with
          | nil => exact Except.ok.inj h
          | cons b opened =>
              obtain ⟨⟨p', opened', more⟩, hstep, hrun⟩ := exists_of_bind_ok h
              exact demands_of_skipStep_after hstep (ih hrun)

theorem begins_of_skipValue (h : skipValue text = .ok rest) : Begins text rest := by
  obtain ⟨more, hbegins, rfl⟩ := demands_of_skipFrom h
  exact hbegins

end

end CheckWorker.Json
