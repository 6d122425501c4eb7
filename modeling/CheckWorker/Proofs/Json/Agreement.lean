import CheckWorker.Proofs.Json.Plain

/-!
# One shape, read from text and from a value

A shape is read from a text directly, and from a value that was read before. On documents both ways
agree: they succeed on the same ones, with the same data, and all of the value is taken. The proof
goes over the shapes; each reader of a shape comes down to the readers of its parts, so the steps
are stated of any readers that agree.

Choices are left out. From a value a word is also taken when it is the only key of an object over an
empty object, and there the two ways differ.
-/

namespace CheckWorker.Json

mutual

/-- There is no choice among words in the shape. -/
def Shape.Wordless : Shape → Prop
  | .text => True
  | .flag => True
  | .whole _ => True
  | .maybe shape => shape.Wordless
  | .many shape => shape.Wordless
  | .anything => True
  | .oneOf _ => False
  | .record _ fields => fields.Wordless

def Fields.Wordless : Fields → Prop
  | .nil => True
  | .required _ _ shape rest => shape.Wordless ∧ rest.Wordless
  | .optional _ _ shape rest => shape.Wordless ∧ rest.Wordless

end

/-! ## Shapes of shapes -/

section

variable {α : Type} {depth : Nat}

def readMaybe (reader : Reader α) : Reader (Option α) := fun text =>
  match skipSpace text with
  | 'n' :: rest => (takeWord ['u', 'l', 'l'] rest).map fun rest => (none, rest)
  | text => (reader text).map fun (d, rest) => (some d, rest)

def maybeOfValue (ofValue : Value → Except Cause α) : Value → Except Cause (Option α)
  | .null => .ok none
  | v => (ofValue v).map some

theorem agree_maybe {reader : Reader α} {ofValue : Value → Except Cause α}
    (ih : Agree depth reader ofValue) : Agree depth (readMaybe reader) (maybeOfValue ofValue) := by
  intro v text core rest hgap h hrest
  obtain ⟨c, chars, rfl, hskip, hc⟩ := h.exists_cons hgap
  by_cases hnull : v = .null
  · subst hnull
    have hcore := h.scalar_of_ne (by simp) (by simp)
    cases hcore
    simp [readMaybe, hskip, takeWord, Except.map, maybeOfValue]
  · have hne : c ≠ 'n' := by
      rintro rfl
      cases v <;> simp [Value.OpensWith] at hc hnull
    have hopen : readMaybe reader text =
        (reader (c :: chars)).map fun (d, rest) => (some d, rest) := by
      simp [readMaybe, hskip, hne]
    have hvalue : maybeOfValue ofValue v = (ofValue v).map some := by
      simp [maybeOfValue]
    rw [hopen, hvalue, toOption_map, toOption_map, ih (Gap.refl _) h hrest]
    cases (ofValue v).toOption <;> rfl

def readMany (depth : Nat) (reader : Nat → Reader α) : Reader (List α) := fun text =>
  match skipSpace text with
  | '[' :: rest =>
      openBracket depth '[' rest fun depth => do
        let step (done : List α) : Reader (List α) := fun text => do
          let (d, text) ← reader depth text
          return (d :: done, text)
        let (done, rest) ← foldItems step rest true [] rest
        return (done.reverse, rest)
  | text => .error (mismatch "a sequence" text)

def manyOfValue (ofValue : Value → Except Cause α) : Value → Except Cause (List α)
  | .array items => readEach ofValue items
  | v => .error (.wrongKind v.found "a sequence")

theorem foldlM_readEach (ofValue : Value → Except Cause α) (items : List Value) (done : List α) :
    items.foldlM (fun done v => (ofValue v).toOption.map (· :: done)) done =
      (readEach ofValue items).toOption.map fun as => as.reverse ++ done := by
  induction items generalizing done with
  | nil => rfl
  | cons v items ih =>
      rw [List.foldlM_cons, readEach, toOption_bind]
      cases (ofValue v).toOption with
      | none => rfl
      | some a =>
          simp only [Option.map_some, Option.bind_some, toOption_bind]
          rw [Option.bind_eq_bind, Option.bind_some, ih]
          cases (readEach ofValue items).toOption <;> simp [pure, Except.pure]

theorem agree_many {reader : Nat → Reader α} {ofValue : Value → Except Cause α}
    (ih : ∀ depth, Agree depth (reader depth) ofValue) :
    Agree depth (readMany depth reader) (manyOfValue ofValue) := by
  intro v text core rest hgap h hrest
  obtain ⟨c, chars, hcore, hskip, hc⟩ := h.exists_cons hgap
  cases v with
  | array items =>
      obtain ⟨inner, body, rfl, hbody, hitems⟩ := h.exists_items
      obtain ⟨rfl, rfl⟩ := List.cons.inj (hcore.symm.trans hbody)
      have hlt := hitems.length_lt (takes_spells inner)
      simp only [readMany, hskip, openBracket]
      rw [toOption_bind, toOption_foldItems (P := Spells inner)
        (fun done v => (ofValue v).toOption.map (· :: done)) (fun hv => hv.starts) _ hitems
        (by omega), foldlM_readEach, manyOfValue]
      · cases (readEach ofValue items).toOption <;> simp [pure, Except.pure]
      · intro v text rest hv hends done
        rw [toOption_bind, ih inner (Gap.refl text) hv hends]
        cases (ofValue v).toOption <;> rfl
  | _ =>
      have hne : c ≠ '[' := by
        rintro rfl
        simp [Value.OpensWith] at hc
      simp [readMany, hskip, hne, manyOfValue]

end

/-! ## Fields -/

section

variable {α β γ σ : Type} {depth : Nat}

/-- Two readers of the value behind a key agree: both leave the key to others, or both read it. -/
def SlotsAgree (depth : Nat) (read : σ → List Char → Option (Except Failure (σ × List Char)))
    (ofValue : σ → Value → Option (Except Cause σ)) : Prop :=
  ∀ {slots v colon rest}, Keyed (Spells depth) v colon rest → Ends rest →
    (read slots colon).map Except.toOption =
      (ofValue slots v).map fun result => result.toOption.map fun slots => (slots, rest)

/-- Two readers of the fields that an array holds agree on the items after the first `taken`. -/
def ItemsAgree (depth : Nat) (read : Nat → Reader α)
    (ofItems : Nat → List Value → Except Cause α) : Prop :=
  ∀ {taken items text rest}, Items ']' (Spells depth) (taken == 0) items text rest →
    (read taken text).toOption = (ofItems taken items).toOption.map fun ds => (ds, rest)

def readField (named : Prop) [Decidable named] (name : String) (reader : Reader α)
    (others : σ → List Char → Option (Except Failure (σ × List Char))) :
    Option α × σ → List Char → Option (Except Failure ((Option α × σ) × List Char))
  | (slot, slots), text =>
      if named then
        some (if slot.isSome then .error (.before (.duplicate name) (afterObject text))
          else do
            let (d, text) ← reader (← takeColon text)
            return ((some d, slots), text))
      else (others slots text).map fun result =>
        result.map fun (slots, text) => ((slot, slots), text)

def fieldOfValue (named : Prop) [Decidable named] (name : String)
    (ofValue : Value → Except Cause α) (others : σ → Value → Option (Except Cause σ)) :
    Option α × σ → Value → Option (Except Cause (Option α × σ))
  | (slot, slots), v =>
      if named then
        some (if slot.isSome then .error (.duplicate name)
          else (ofValue v).map fun d => (some d, slots))
      else (others slots v).map fun result => result.map fun slots => (slot, slots)

theorem slotsAgree_field {named : Prop} [Decidable named] {name : String} {reader : Reader α}
    {ofValue : Value → Except Cause α}
    {others : σ → List Char → Option (Except Failure (σ × List Char))}
    {othersOfValue : σ → Value → Option (Except Cause σ)} (ih : Agree depth reader ofValue)
    (hothers : SlotsAgree depth others othersOfValue) :
    SlotsAgree depth (readField named name reader others)
      (fieldOfValue named name ofValue othersOfValue) := by
  rintro ⟨slot, slots⟩ v colon rest hv hrest
  by_cases hnamed : named
  · cases slot with
    | some d => simp [readField, fieldOfValue, hnamed]
    | none =>
        obtain ⟨behind, core, hcolon, hgap, hcore⟩ := hv.takeColon_eq
        have hopen : readField named name reader others (none, slots) colon =
            some (reader behind >>= fun (d, text) => .ok ((some d, slots), text)) := by
          simp only [readField, hnamed, if_true, hcolon]
          rfl
        have hvalue : fieldOfValue named name ofValue othersOfValue (none, slots) v =
            some ((ofValue v).map fun d => (some d, slots)) := by
          simp only [fieldOfValue, hnamed, if_true]
          rfl
        rw [hopen, hvalue, Option.map_some, Option.map_some, toOption_bind,
          ih hgap hcore hrest, toOption_map]
        cases (ofValue v).toOption <;> rfl
  · have hslots := @hothers slots v colon rest hv hrest
    simp only [readField, fieldOfValue, hnamed, if_false, Option.map_map]
    cases hread : others slots colon with
    | none =>
        rw [hread] at hslots
        cases hvalue : othersOfValue slots v with
        | none => rfl
        | some _ => simp [hvalue] at hslots
    | some result =>
        rw [hread] at hslots
        cases hvalue : othersOfValue slots v with
        | none => simp [hvalue] at hslots
        | some result' =>
            simp only [hvalue, Option.map_some, Option.some.injEq] at hslots
            simp only [Option.map_some, Function.comp_apply, toOption_map, hslots]
            cases result'.toOption <;> rfl

/-- Reads the item of a field and the others after it; `absent` is what there is without it. -/
def readItem (reader : Reader α) (others : Nat → Reader β) (pair : α → β → γ)
    (absent : Nat → List Char → Except Failure (γ × List Char)) (taken : Nat) : Reader γ :=
  fun text => do
    let (more, text) ← nextItem (taken == 0) text
    if more then
      let (d, text) ← reader text
      let (ds, text) ← others (taken + 1) text
      return (pair d ds, text)
    else absent taken text

def itemOfValues (ofValue : Value → Except Cause α) (others : Nat → List Value → Except Cause β)
    (pair : α → β → γ) (absent : Nat → Except Cause γ) : Nat → List Value → Except Cause γ
  | taken, v :: items => do
      let d ← ofValue v
      let ds ← others (taken + 1) items
      return pair d ds
  | taken, [] => absent taken

theorem itemsAgree_item {reader : Reader α} {ofValue : Value → Except Cause α}
    {others : Nat → Reader β} {othersOfItems : Nat → List Value → Except Cause β}
    {pair : α → β → γ} {absent : Nat → List Char → Except Failure (γ × List Char)}
    {absentOfItems : Nat → Except Cause γ} (ih : Agree depth reader ofValue)
    (hothers : ItemsAgree depth others othersOfItems)
    (habsent : ∀ taken rest, (absent taken rest).toOption =
      (absentOfItems taken).toOption.map fun ds => (ds, rest)) :
    ItemsAgree depth (readItem reader others pair absent)
      (itemOfValues ofValue othersOfItems pair absentOfItems) := by
  intro taken items text rest h
  cases items with
  | nil =>
      have hopen : readItem reader others pair absent taken text = absent taken rest := by
        simp only [readItem, nextItem_of_nil h]
        rfl
      rw [hopen]
      exact habsent taken rest
  | cons v items =>
      obtain ⟨core, more, hnext, hv, hmore⟩ := nextItem_of_cons (fun hv => hv.starts) h
      have hopen : readItem reader others pair absent taken text =
          reader core >>= fun (d, text) => others (taken + 1) text >>= fun (ds, text) =>
            .ok (pair d ds, text) := by
        simp only [readItem, hnext]
        rfl
      have hothers' := @hothers (taken + 1) items more rest hmore
      rw [hopen, toOption_bind, ih (Gap.refl core) hv (hmore.ends (.inl rfl)), itemOfValues,
        toOption_bind]
      cases (ofValue v).toOption with
      | none => rfl
      | some d =>
          simp only [Option.map_some, Option.bind_some, toOption_bind, hothers']
          cases (othersOfItems (taken + 1) items).toOption <;> rfl

/-- After the last field nothing but the closing bracket may follow. -/
theorem toOption_closeArray {first : Bool} {items : List Value} {text rest : List Char}
    (h : Items ']' (Spells depth) first items text rest) :
    (closeArray text).toOption = if items.isEmpty then some rest else none := by
  cases h with
  | done hgap =>
      have hskip := hgap.skipSpace_cons (by decide)
      simp [closeArray, hskip]
  | first hgap hv _ =>
      have hskip := hgap.skipSpace_of_starts hv.starts
      obtain ⟨c, chars, rfl, -, hcomma, hclose, -⟩ := hv.starts
      simp [closeArray, hskip, hcomma, hclose]
  | next hcomma _ _ _ =>
      have hskip := hcomma.skipSpace_cons (by decide)
      simp only [closeArray, hskip, Char.reduceEq, if_false, if_true]
      split <;> rfl

end

section

variable (origin : Origin) (name : String) (aliases : List String) (shape : Shape) (rest : Fields)
  (depth : Nat) (key expected : String)

theorem Fields.readItems_required :
    Fields.readItems (.required name aliases shape rest) depth expected =
      readItem (shape.read depth) (rest.readItems depth expected) Prod.mk
        fun taken text => .error (.before (.wrongLength taken expected) text) := rfl

theorem Fields.readItems_optional :
    Fields.readItems (.optional name aliases shape rest) depth expected =
      readItem (shape.read depth) (rest.readItems depth expected) (fun d ds => (some d, ds))
        fun taken text => do
          let ds ← (rest.withoutItems taken expected).mapError fun cause => .before cause text
          return ((none, ds), text) := rfl

theorem Fields.ofItems_required (length : Nat) :
    Fields.ofItems origin (.required name aliases shape rest) expected length =
      itemOfValues (shape.ofValue origin) (rest.ofItems origin expected length) Prod.mk
        fun taken => .error (.wrongLength taken expected) := by
  funext taken items
  cases items <;> rfl

theorem Fields.ofItems_optional (length : Nat) :
    Fields.ofItems origin (.optional name aliases shape rest) expected length =
      itemOfValues (shape.ofValue origin) (rest.ofItems origin expected length)
        (fun d ds => (some d, ds)) fun taken => do
          let ds ← rest.ofItems origin expected length taken []
          return (none, ds) := by
  funext taken items
  cases items <;> rfl

end

/-! ## Records -/

theorem toOption_readEntries {σ : Type} (step : String → Value → σ → Except Cause σ)
    (entries : List (String × Value)) (s : σ) :
    (readEntries step entries s).toOption =
      entries.foldlM (fun s e => (step e.1 e.2 s).toOption) s := by
  induction entries generalizing s with
  | nil => rfl
  | cons e entries ih =>
      rw [readEntries, toOption_bind, List.foldlM_cons]
      cases (step e.1 e.2 s).toOption with
      | none => rfl
      | some s => exact ih s

theorem toOption_mapError {ε ε' α : Type} (f : ε → ε') (x : Except ε α) :
    (x.mapError f).toOption = x.toOption := by
  cases x <;> rfl

section

variable {origin : Origin} {fields : Fields} {depth : Nat} {name : String}

/-- Reads an entry of a record from behind its key, and passes over one that names no field. -/
def readEntry (fields : Fields) (depth : Nat) (key : String) (slots : fields.Slots) :
    Reader fields.Slots := fun text =>
  match fields.readSlot depth key slots text with
  | some result => result
  | none => do return (slots, ← skipValue (← takeColon text))

theorem toOption_readEntry (h : ∀ key, SlotsAgree depth (fields.readSlot depth key)
      (fields.slotOfValue origin key))
    {k : String} {v : Value} {slots : fields.Slots} {colon rest : List Char}
    (hv : Keyed (Spells depth) v colon rest) (hrest : Ends rest) :
    (readEntry fields depth k slots colon).toOption =
      ((fields.slotOfValue origin k slots v).getD (.ok slots)).toOption.map
        fun slots => (slots, rest) := by
  have hslots := @h k slots v colon rest hv hrest
  rw [readEntry]
  cases hread : fields.readSlot depth k slots colon with
  | none =>
      rw [hread] at hslots
      cases hvalue : fields.slotOfValue origin k slots v with
      | some _ => simp [hvalue] at hslots
      | none =>
          obtain ⟨behind, core, hcolon, hgap, hcore⟩ := hv.takeColon_eq
          simp [hcolon, skipValue_of_wellFormed hcore.wellFormed hgap hrest, bind, Except.bind,
            pure, Except.pure]
  | some result =>
      rw [hread] at hslots
      cases hvalue : fields.slotOfValue origin k slots v with
      | none => simp [hvalue] at hslots
      | some result' => simpa [hvalue] using hslots

theorem toOption_readObject (h : ∀ key, SlotsAgree depth (fields.readSlot depth key)
      (fields.slotOfValue origin key))
    {entries : List (String × Value)} {text rest rounds : List Char}
    (hentries : Items '}' (Entry (Spells depth)) true entries text rest)
    (hrounds : entries.length < rounds.length) :
    (foldEntries (readEntry fields depth) rounds true fields.noSlots text >>=
        fun (slots, rest) => place rest (fields.ofSlots slots)).toOption =
      (readEntries (fun k v slots => (fields.slotOfValue origin k slots v).getD (.ok slots))
        entries fields.noSlots >>= fields.ofSlots).toOption.map fun ds => (ds, rest) := by
  rw [toOption_bind, toOption_bind, toOption_readEntries,
    toOption_foldEntries
      (fun slots e => ((fields.slotOfValue origin e.1 slots e.2).getD (.ok slots)).toOption)
      (fun _ hv hends slots => toOption_readEntry h hv hends) hentries hrounds]
  cases entries.foldlM
      (fun slots e => ((fields.slotOfValue origin e.1 slots e.2).getD (.ok slots)).toOption)
      fields.noSlots with
  | none => rfl
  | some slots => exact toOption_place rest (fields.ofSlots slots)

theorem agree_record
    (hslots : ∀ depth key, SlotsAgree depth (fields.readSlot depth key)
      (fields.slotOfValue origin key))
    (hitems : ∀ depth expected length, ItemsAgree depth (fields.readItems depth expected)
      (fields.ofItems origin expected length)) :
    Agree depth (Shape.read (.record name fields) depth)
      (Shape.ofValue origin (.record name fields)) := by
  intro v text core rest hgap h hrest
  obtain ⟨c, chars, hcore, hskip, hc⟩ := h.exists_cons hgap
  cases v with
  | array items =>
      obtain ⟨inner, body, rfl, hbody, hbodyItems⟩ := h.exists_items
      obtain ⟨rfl, rfl⟩ := List.cons.inj (hcore.symm.trans hbody)
      have hread : Shape.read (.record name fields) (inner + 1) text =
          fields.readItems inner (recordOf name fields) 0 chars := by
        simp only [Shape.read, hskip]
        rfl
      rw [hread]
      exact hitems inner (recordOf name fields) items.length hbodyItems
  | object entries =>
      obtain ⟨inner, body, rfl, hbody, hentries⟩ := h.exists_entries
      obtain ⟨rfl, rfl⟩ := List.cons.inj (hcore.symm.trans hbody)
      have hlt := hentries.length_lt (Takes.entry (takes_spells inner))
      have hread : Shape.read (.record name fields) (inner + 1) text =
          foldEntries (readEntry fields inner) chars true fields.noSlots chars >>=
            fun (slots, rest) => place rest (fields.ofSlots slots) := by
        simp only [Shape.read, hskip]
        rfl
      rw [hread]
      exact toOption_readObject (hslots inner) hentries (by omega)
  | _ =>
      have hne : c ≠ '[' ∧ c ≠ '{' := by
        constructor <;>
          · rintro rfl
            simp [Value.OpensWith] at hc
      have hread : (Shape.read (.record name fields) depth text).toOption = none := by
        simp [Shape.read, hskip, hne]
      rw [hread]
      rfl

end

theorem itemsAgree_nil (origin : Origin) (depth : Nat) (expected : String) (length : Nat) :
    ItemsAgree depth (Fields.readItems .nil depth expected)
      (Fields.ofItems origin .nil expected length) := by
  intro taken items text rest h
  have hread : ((closeArray text).map fun rest => ((), rest)).toOption =
      if items.isEmpty then some ((), rest) else none := by
    rw [toOption_map, toOption_closeArray h]
    cases items <;> rfl
  refine hread.trans ?_
  cases items <;> rfl

theorem Fields.toOption_withoutItems (origin : Origin) (expected : String) (length taken : Nat) :
    (fields : Fields) → (fields.withoutItems taken expected).toOption =
      (fields.ofItems origin expected length taken []).toOption
  | .nil => rfl
  | .required _ _ _ _ => rfl
  | .optional name aliases shape rest => by
      have ih := toOption_withoutItems origin expected length taken rest
      have hgoal : ((rest.withoutItems taken expected).map
            fun ds => ((none : Option shape.Data), ds)).toOption =
          (rest.ofItems origin expected length taken [] >>=
            fun ds => .ok ((none : Option shape.Data), ds)).toOption := by
        rw [toOption_map, toOption_bind, ih]
        cases (rest.ofItems origin expected length taken []).toOption <;> rfl
      exact hgoal

mutual

/-- Of a shape without choices both readers agree, however deep the text may be nested. -/
theorem Shape.agree (origin : Origin) : (shape : Shape) → shape.Wordless → ∀ depth,
    Agree depth (shape.read depth) (shape.ofValue origin)
  | .text, _, depth => agree_text depth origin
  | .flag, _, depth => agree_flag depth origin
  | .whole width, _, depth => agree_whole depth origin width
  | .maybe shape, h, depth => agree_maybe (shape.agree origin h depth)
  | .many shape, h, _ => agree_many (shape.agree origin h)
  | .anything, _, depth => agree_anything depth origin
  | .oneOf _, h, _ => h.elim
  | .record _ fields, h, _ =>
      agree_record (fields.slotsAgree origin h) (fields.itemsAgree origin h)

theorem Fields.slotsAgree (origin : Origin) : (fields : Fields) → fields.Wordless →
    ∀ depth key, SlotsAgree depth (fields.readSlot depth key) (fields.slotOfValue origin key)
  | .nil, _, _, _ => fun _ _ => rfl
  | .required _ _ shape rest, h, depth, key =>
      slotsAgree_field (shape.agree origin h.1 depth) (rest.slotsAgree origin h.2 depth key)
  | .optional _ _ shape rest, h, depth, key =>
      slotsAgree_field (shape.agree origin h.1 depth) (rest.slotsAgree origin h.2 depth key)

theorem Fields.itemsAgree (origin : Origin) : (fields : Fields) → fields.Wordless →
    ∀ depth expected length, ItemsAgree depth (fields.readItems depth expected)
      (fields.ofItems origin expected length)
  | .nil, _, depth, expected, length => itemsAgree_nil origin depth expected length
  | .required name aliases shape rest, h, depth, expected, length => by
      rw [Fields.readItems_required, Fields.ofItems_required]
      exact itemsAgree_item (shape.agree origin h.1 depth)
        (rest.itemsAgree origin h.2 depth expected length) fun _ _ => rfl
  | .optional name aliases shape rest, h, depth, expected, length => by
      rw [Fields.readItems_optional, Fields.ofItems_optional]
      refine itemsAgree_item (shape.agree origin h.1 depth)
        (rest.itemsAgree origin h.2 depth expected length) fun taken left => ?_
      rw [toOption_bind, toOption_bind, toOption_mapError,
        rest.toOption_withoutItems origin expected length taken]
      cases (rest.ofItems origin expected length taken []).toOption <;> rfl

end

/-! ## Whole documents -/

theorem Gap.ends_nil {text : List Char} (h : Gap text []) : Ends text := by
  obtain ⟨blanks, hblanks, rfl⟩ := h
  intro c hc
  rw [List.append_nil] at hc
  exact .inl (hblanks c (List.mem_of_mem_head? hc))

/-- A shape is read from a document as it is read from the value that the document spells. -/
theorem Shape.toOption_ofText {shape : Shape} (hshape : shape.Wordless) {v : Value} {text : String}
    (h : Document v text.toList) (origin : Origin) :
    (shape.ofText text).toOption = (shape.ofValue origin v).toOption := by
  obtain ⟨core, behind, hgap, hcore, hbehind⟩ := h
  have hread := shape.agree origin hshape depthLimit hgap hcore hbehind.ends_nil
  have hclose : closeText behind = .ok () := by
    have hskip : skipSpace behind = [] := hbehind.skipSpace_eq
    simp [closeText, hskip]
  rw [Shape.ofText, readWhole, toOption_bind, hread]
  cases (shape.ofValue origin v).toOption with
  | none => rfl
  | some d => simp [hclose, bind, Except.bind, pure, Except.pure]

/-- A text is a document of one value at most. -/
theorem Document.eq {v w : Value} {text : String} (hv : Document v text.toList)
    (hw : Document w text.toList) : v = w := by
  have hshape : Shape.anything.Wordless := trivial
  have hread := (Shape.toOption_ofText hshape hv .settled).symm.trans
    (Shape.toOption_ofText hshape hw .settled)
  exact Option.some.inj hread

end CheckWorker.Json
