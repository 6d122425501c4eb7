import CheckWorker.World

/-!
# The life of an engine

Notes tell which engine is alive: one that was launched and has not been ended. `Life.Step` says what
may be noted next, depending on the engine that is alive and on whether it has been imported: nothing
is installed or launched while an engine is alive, an engine is imported once, and it is run only
after that. Notes that follow these rules from the beginning have all the properties of an orderly
life, which are proved here without looking at who made the notes.
-/

namespace CheckWorker

namespace Call

/-- The calls that lead to a new engine. -/
def isInstalling : Call → Bool
  | .ensureReady => true
  | .install _ => true
  | .installedVersion _ => true
  | .launch _ _ => true
  | _ => false

def asksVersion : Call → Bool
  | .hostVersion => true
  | .runtimeVersion => true
  | _ => false

end Call

namespace Note

def launched? : Note → Option Handle
  | .answered (.launch _ handle) (.ok ()) => some handle
  | _ => none

def dropped? : Note → Option Handle
  | .dropped handle => some handle
  | _ => none

theorem eq_dropped {n : Note} {handle : Handle} (h : n.dropped? = some handle) :
    n = .dropped handle := by
  cases n with
  | dropped other => exact congrArg dropped (Option.some.inj h)
  | answered call outcome => cases h
  | started => cases h

def tally (alive : List Handle) (n : Note) : List Handle :=
  match n.launched?, n.dropped? with
  | some handle, _ => handle :: alive
  | none, some handle => alive.erase handle
  | none, none => alive

/-- The engines that are alive after some notes: those launched and not ended. -/
def alive (notes : List Note) : List Handle :=
  notes.foldl tally []

abbrev imported (handle : Handle) : Note :=
  .answered (.importEntry handle) (.ok ())

end Note

def EngineState.handle? : EngineState → Option Handle
  | .uninitialized => none
  | .ready handle _ => some handle

/-- What the notes made so far leave behind. -/
structure Life where
  launches : Nat
  /-- The engine that is alive, if there is one; it is warm when it has been imported. -/
  engine : EngineState

namespace Life

def start : Life :=
  ⟨0, .uninitialized⟩

/-- What may be noted next. -/
inductive Step : Life → Note → Life → Prop
  | prepare (n : Nat) (call : Call) (outcome : Outcome call.Result)
      (hc : call.isInstalling = true) (hl : ∀ spec handle, call ≠ .launch spec handle) :
      Step ⟨n, .uninitialized⟩ (.answered call outcome) ⟨n, .uninitialized⟩
  | launch (n : Nat) (spec : EngineSpec) :
      Step ⟨n, .uninitialized⟩ (.answered (.launch spec n) (.ok ())) ⟨n + 1, .ready n false⟩
  | failLaunch (n : Nat) (spec : EngineSpec) (outcome : Outcome Unit) (ho : outcome ≠ .ok ()) :
      Step ⟨n, .uninitialized⟩ (.answered (.launch spec n) outcome) ⟨n + 1, .uninitialized⟩
  | query (n : Nat) (handle : Handle) (call : Call) (outcome : Outcome call.Result)
      (hc : call.asksVersion = true) :
      Step ⟨n, .ready handle false⟩ (.answered call outcome) ⟨n, .ready handle false⟩
  | importEntry (n : Nat) (handle : Handle) :
      Step ⟨n, .ready handle false⟩ (.imported handle) ⟨n, .ready handle true⟩
  | failImport (n : Nat) (handle : Handle) (outcome : Outcome Unit) (ho : outcome ≠ .ok ()) :
      Step ⟨n, .ready handle false⟩ (.answered (.importEntry handle) outcome)
        ⟨n, .ready handle false⟩
  | run (n : Nat) (handle : Handle) (args : List String) (outcome : Outcome EngineOutput) :
      Step ⟨n, .ready handle true⟩ (.answered (.run handle args) outcome) ⟨n, .ready handle true⟩
  | drop (n : Nat) (handle : Handle) (warm : Bool) :
      Step ⟨n, .ready handle warm⟩ (.dropped handle) ⟨n, .uninitialized⟩
  | started (l : Life) : Step l .started l

namespace Step

variable {l l' : Life} {n : Note}

theorem engine_of_isInstalling {call : Call} {outcome : Outcome call.Result}
    (h : Step l (.answered call outcome) l') (hc : call.isInstalling = true) :
    l.engine = .uninitialized := by
  cases h with
  | prepare => rfl
  | launch => rfl
  | failLaunch => rfl
  | query _ handle _ _ ha => cases call <;> simp_all [Call.isInstalling, Call.asksVersion]
  | importEntry => simp [Call.isInstalling] at hc
  | failImport => simp [Call.isInstalling] at hc
  | run => simp [Call.isInstalling] at hc

theorem engine_of_import {handle : Handle} {outcome : Outcome Unit}
    (h : Step l (.answered (.importEntry handle) outcome) l') : l.engine = .ready handle false := by
  cases h with
  | prepare _ _ _ hc => simp [Call.isInstalling] at hc
  | query _ _ _ _ hc => simp [Call.asksVersion] at hc
  | importEntry => rfl
  | failImport => rfl

theorem engine_of_run {handle : Handle} {args : List String} {outcome : Outcome EngineOutput}
    (h : Step l (.answered (.run handle args) outcome) l') : l.engine = .ready handle true := by
  cases h with
  | prepare _ _ _ hc => simp [Call.isInstalling] at hc
  | query _ _ _ _ hc => simp [Call.asksVersion] at hc
  | run => rfl

/-- An engine is launched while none is alive, or ended while it is, or neither happens. -/
theorem launch_or_drop_or_keep (h : Step l n l') :
    (n.launched? = some l.launches ∧ n.dropped? = none ∧ l.engine = .uninitialized ∧
      l' = ⟨l.launches + 1, .ready l.launches false⟩) ∨
    (∃ handle warm, n.launched? = none ∧ n.dropped? = some handle ∧
      l.engine = .ready handle warm ∧ l' = ⟨l.launches, .uninitialized⟩) ∨
    (n.launched? = none ∧ n.dropped? = none ∧ l'.engine.handle? = l.engine.handle? ∧
      l.launches ≤ l'.launches) := by
  cases h with
  | prepare n call outcome hc hl =>
      refine .inr (.inr ⟨?_, rfl, rfl, Nat.le_refl _⟩)
      cases call <;> first | rfl | exact absurd rfl (hl _ _)
  | launch n spec => exact .inl ⟨rfl, rfl, rfl, rfl⟩
  | failLaunch n spec outcome ho =>
      refine .inr (.inr ⟨?_, rfl, rfl, Nat.le_succ n⟩)
      cases outcome with
      | ok => exact absurd rfl ho
      | failed => rfl
      | panicked => rfl
  | query n handle call outcome hc =>
      refine .inr (.inr ⟨?_, rfl, rfl, Nat.le_refl _⟩)
      cases call <;> first | rfl | cases hc
  | importEntry n handle => exact .inr (.inr ⟨rfl, rfl, rfl, Nat.le_refl _⟩)
  | failImport n handle outcome ho => exact .inr (.inr ⟨rfl, rfl, rfl, Nat.le_refl _⟩)
  | run n handle args outcome => exact .inr (.inr ⟨rfl, rfl, rfl, Nat.le_refl _⟩)
  | drop n handle warm => exact .inr (.inl ⟨handle, warm, rfl, rfl, rfl, rfl⟩)
  | started => exact .inr (.inr ⟨rfl, rfl, rfl, Nat.le_refl _⟩)

theorem tally_eq (h : Step l n l') :
    n.tally l.engine.handle?.toList = l'.engine.handle?.toList := by
  rcases h.launch_or_drop_or_keep with
    ⟨hl, hd, he, rfl⟩ | ⟨handle, warm, hl, hd, he, rfl⟩ | ⟨hl, hd, he, -⟩
  · simp [Note.tally, hl, he, EngineState.handle?]
  · simp [Note.tally, hl, hd, he, EngineState.handle?]
  · simp [Note.tally, hl, hd, he]

theorem launches_le (h : Step l n l') : l.launches ≤ l'.launches := by
  rcases h.launch_or_drop_or_keep with ⟨-, -, -, rfl⟩ | ⟨handle, warm, -, -, -, rfl⟩ | ⟨-, -, -, hl⟩
  · exact Nat.le_succ _
  · exact Nat.le_refl _
  · exact hl

/-- An engine becomes warm by an import that goes well, and by nothing else. -/
theorem import_or_keep (h : Step l n l') :
    (∃ handle, n = .imported handle ∧ l.engine = .ready handle false ∧
      l' = ⟨l.launches, .ready handle true⟩) ∨
    ((∀ handle, n ≠ .imported handle) ∧
      (l' = ⟨l.launches + 1, .ready l.launches false⟩ ∨ l'.engine = .uninitialized ∨
        l'.engine = l.engine)) := by
  cases h with
  | prepare n call outcome hc hl =>
      refine .inr ⟨fun handle he => ?_, .inr (.inl rfl)⟩
      cases he
      cases hc
  | launch n spec => exact .inr ⟨fun handle he => (by cases he), .inl rfl⟩
  | failLaunch n spec outcome ho => exact .inr ⟨fun handle he => (by cases he), .inr (.inl rfl)⟩
  | query n handle call outcome hc =>
      refine .inr ⟨fun handle he => ?_, .inr (.inr rfl)⟩
      cases he
      cases hc
  | importEntry n handle => exact .inl ⟨handle, rfl, rfl, rfl⟩
  | failImport n handle outcome ho =>
      refine .inr ⟨fun other he => ?_, .inr (.inr rfl)⟩
      cases he
      exact ho rfl
  | run n handle args outcome => exact .inr ⟨fun handle he => (by cases he), .inr (.inr rfl)⟩
  | drop n handle warm => exact .inr ⟨fun handle he => (by cases he), .inr (.inl rfl)⟩
  | started => exact .inr ⟨fun handle he => (by cases he), .inr (.inr rfl)⟩

theorem length_add_length (h : Step l n l') :
    n.launched?.toList.length + l.engine.handle?.toList.length =
      n.dropped?.toList.length + l'.engine.handle?.toList.length := by
  rcases h.launch_or_drop_or_keep with
    ⟨hl, hd, he, rfl⟩ | ⟨handle, warm, hl, hd, he, rfl⟩ | ⟨hl, hd, he, -⟩
  · simp [hl, hd, he, EngineState.handle?]
  · simp [hl, hd, he, EngineState.handle?]
  · simp [hl, hd, he]

end Step

/-- Notes that may be made one after the other. -/
def Path : Life → List Note → Life → Prop
  | l, [], l' => l = l'
  | l, n :: notes, l' => ∃ m, Step l n m ∧ Path m notes l'

theorem path_append {l l' : Life} {xs ys : List Note} :
    Path l (xs ++ ys) l' ↔ ∃ m, Path l xs m ∧ Path m ys l' := by
  induction xs generalizing l with
  | nil => simp [Path]
  | cons n xs ih =>
      simp only [List.cons_append, Path, ih]
      constructor
      · rintro ⟨k, hs, m, hx, hy⟩
        exact ⟨m, ⟨k, hs, hx⟩, hy⟩
      · rintro ⟨m, ⟨k, hs, hx⟩, hy⟩
        exact ⟨k, hs, m, hx, hy⟩

namespace Path

variable {l l' : Life} {notes : List Note}

theorem of_prefix (h : Path l notes l') {past : List Note} (hp : past <+: notes) :
    ∃ m, Path l past m := by
  obtain ⟨rest, rfl⟩ := hp
  obtain ⟨m, hm, -⟩ := path_append.mp h
  exact ⟨m, hm⟩

theorem step_of_prefix (h : Path l notes l') {past : List Note} {n : Note}
    (hp : past ++ [n] <+: notes) : ∃ m m', Path l past m ∧ Step m n m' := by
  obtain ⟨m', hm'⟩ := h.of_prefix hp
  obtain ⟨m, hm, k, hs, -⟩ := path_append.mp hm'
  exact ⟨m, k, hm, hs⟩

theorem foldl_tally (h : Path l notes l') :
    notes.foldl Note.tally l.engine.handle?.toList = l'.engine.handle?.toList := by
  induction notes generalizing l with
  | nil =>
      cases h
      rfl
  | cons n notes ih =>
      obtain ⟨m, hs, hm⟩ := h
      rw [List.foldl_cons, hs.tally_eq, ih hm]

theorem alive_eq (h : Path start notes l) : Note.alive notes = l.engine.handle?.toList :=
  h.foldl_tally

theorem launched_add (h : Path l notes l') :
    (notes.filterMap Note.launched?).length + l.engine.handle?.toList.length =
      (notes.filterMap Note.dropped?).length + l'.engine.handle?.toList.length := by
  induction notes generalizing l with
  | nil =>
      cases h
      rfl
  | cons n notes ih =>
      obtain ⟨m, hs, hm⟩ := h
      have hcons (f : Note → Option Handle) : ((n :: notes).filterMap f).length =
          (f n).toList.length + (notes.filterMap f).length := by
        cases hf : f n with
        | none => simp [hf]
        | some handle => simp [hf, Nat.add_comm]
      have hn := hs.length_add_length
      have hi := ih hm
      rw [hcons, hcons]
      omega

/-- An engine that is alive stays so or is ended. -/
theorem dropped_or_kept (h : Path l notes l') {handle : Handle}
    (he : l.engine.handle? = some handle) :
    .dropped handle ∈ notes ∨ l'.engine.handle? = some handle := by
  induction notes generalizing l with
  | nil =>
      cases h
      exact .inr he
  | cons n notes ih =>
      obtain ⟨m, hs, hm⟩ := h
      rcases hs.launch_or_drop_or_keep with
        ⟨-, -, hu, -⟩ | ⟨other, warm, -, hd, hr, -⟩ | ⟨-, -, hk, -⟩
      · simp [hu, EngineState.handle?] at he
      · have hother : other = handle := by simpa [hr, EngineState.handle?] using he
        have hn : n = .dropped handle := Note.eq_dropped (hother ▸ hd)
        exact .inl (hn ▸ List.mem_cons_self)
      · rcases ih hm (hk.trans he) with hn | hn
        · exact .inl (List.mem_cons_of_mem n hn)
        · exact .inr hn

end Path

/-- What the notes made so far say of the engine that is alive: it is the last that was launched,
and it is warm when its import has been noted. -/
structure Remembers (past : List Note) (l : Life) : Prop where
  launched_lt : ∀ handle ∈ past.filterMap Note.launched?, handle < l.launches
  launched_nodup : (past.filterMap Note.launched?).Nodup
  imported_lt : ∀ handle, .imported handle ∈ past → handle < l.launches
  alive_lt : ∀ handle, l.engine.handle? = some handle → handle < l.launches
  warm_iff : ∀ handle, l.engine.handle? = some handle →
    (l.engine.isWarm = true ↔ .imported handle ∈ past)

namespace Remembers

theorem start : Remembers [] start where
  launched_lt := by simp
  launched_nodup := by simp
  imported_lt := by simp
  alive_lt := by simp [Life.start, EngineState.handle?]
  warm_iff := by simp [Life.start, EngineState.handle?]

variable {past : List Note} {l l' : Life} {n : Note}

theorem launched_snoc (h : Remembers past l) (hs : Step l n l') :
    (∀ handle ∈ (past ++ [n]).filterMap Note.launched?, handle < l'.launches) ∧
      ((past ++ [n]).filterMap Note.launched?).Nodup := by
  have hlt (handle : Handle) (hm : handle ∈ past.filterMap Note.launched?) : handle < l'.launches :=
    Nat.lt_of_lt_of_le (h.launched_lt handle hm) hs.launches_le
  rw [List.filterMap_append]
  rcases hs.launch_or_drop_or_keep with
    ⟨hl, -, -, rfl⟩ | ⟨other, warm, hl, -, -, -⟩ | ⟨hl, -, -, -⟩
  · have hnew : l.launches ∉ past.filterMap Note.launched? := fun hm =>
      Nat.lt_irrefl _ (h.launched_lt _ hm)
    simp only [List.filterMap_cons, hl, List.filterMap_nil]
    constructor
    · intro handle hm
      rcases List.mem_append.mp hm with hm | hm
      · exact hlt handle hm
      · rw [List.mem_singleton.mp hm]
        exact Nat.lt_succ_self _
    · refine List.nodup_append.mpr ⟨h.launched_nodup, by simp, fun a ha b hb hab => ?_⟩
      rw [hab, List.mem_singleton.mp hb] at ha
      exact hnew ha
  · rw [List.filterMap_cons_none hl, List.filterMap_nil, List.append_nil]
    exact ⟨hlt, h.launched_nodup⟩
  · rw [List.filterMap_cons_none hl, List.filterMap_nil, List.append_nil]
    exact ⟨hlt, h.launched_nodup⟩

theorem snoc (h : Remembers past l) (hs : Step l n l') : Remembers (past ++ [n]) l' := by
  obtain ⟨hlt, hnodup⟩ := h.launched_snoc hs
  rcases hs.import_or_keep with ⟨handle, rfl, he, rfl⟩ | ⟨hn, hl⟩
  · have halive : l.engine.handle? = some handle := by rw [he]; rfl
    refine ⟨hlt, hnodup, fun other hm => ?_, fun other ho => ?_, fun other ho => ?_⟩
    · rcases List.mem_append.mp hm with hm | hm
      · exact h.imported_lt other hm
      · cases List.mem_singleton.mp hm
        exact h.alive_lt _ halive
    · cases ho
      exact h.alive_lt _ halive
    · cases ho
      simp [EngineState.isWarm]
  · have himported (handle : Handle) :
        Note.imported handle ∈ past ++ [n] ↔ Note.imported handle ∈ past := by
      have hne : Note.imported handle ≠ n := fun e => hn handle e.symm
      simp [hne]
    have hpast (handle : Handle) (hm : Note.imported handle ∈ past ++ [n]) : handle < l'.launches :=
      Nat.lt_of_lt_of_le (h.imported_lt handle ((himported handle).mp hm)) hs.launches_le
    refine ⟨hlt, hnodup, hpast, fun handle ho => ?_, fun handle ho => ?_⟩
    · rcases hl with rfl | hl | hl
      · cases ho
        exact Nat.lt_succ_self _
      · simp [hl, EngineState.handle?] at ho
      · exact Nat.lt_of_lt_of_le (h.alive_lt handle (hl ▸ ho)) hs.launches_le
    · rw [himported]
      rcases hl with rfl | hl | hl
      · cases ho
        simp only [EngineState.isWarm, Bool.false_eq_true, false_iff]
        exact fun hm => Nat.lt_irrefl _ (h.imported_lt _ hm)
      · simp [hl, EngineState.handle?] at ho
      · rw [hl]
        exact h.warm_iff handle (hl ▸ ho)

theorem append {notes : List Note} (h : Remembers past l) (hp : Path l notes l') :
    Remembers (past ++ notes) l' := by
  induction notes generalizing past l with
  | nil =>
      cases hp
      simpa using h
  | cons n notes ih =>
      obtain ⟨m, hs, hm⟩ := hp
      simpa using ih (h.snoc hs) hm

end Remembers

theorem Path.remembers {l : Life} {notes : List Note} (h : Path start notes l) :
    Remembers notes l := by
  simpa using Remembers.start.append h

end Life

end CheckWorker
