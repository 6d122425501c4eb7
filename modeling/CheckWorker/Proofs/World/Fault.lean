import CheckWorker.Proofs.World.Triple

/-!
# Faults

A fault is what keeps a call or an act from ending well. An act reports its faults when the calls
that it makes all end well unless it ends badly itself, and then in the very way in which a call
did. Nothing that a session does hides a fault or goes on after one.
-/

namespace CheckWorker

/-- What ends a call badly: an error of its own, or a panic. -/
inductive Fault
  | error (e : EngineError)
  | panic (p : Panic)
  deriving DecidableEq

def Outcome.fault? {α : Type} : Outcome α → Option Fault
  | .ok _ => none
  | .failed e => some (.error e)
  | .panicked p => some (.panic p)

def Note.fault? : Note → Option Fault
  | .answered _ outcome => outcome.fault?
  | .dropped _ => none
  | .started => none

variable {σ α β : Type}

/-- The fault of what comes first ends the whole. -/
theorem Act.bind_of_fault {x : Act σ α} {w : World σ} {fault : Fault}
    (h : (x w).1.fault? = some fault) (f : α → Act σ β) :
    ((x >>= f) w).1.fault? = some fault ∧ ((x >>= f) w).2 = (x w).2 := by
  rcases hx : x w with ⟨a | e | p, w₁⟩ <;> rw [hx] at h
  case ok => cases h
  case failed =>
    rw [bind_failed hx]
    exact ⟨h, rfl⟩
  case panicked =>
    rw [bind_panicked hx]
    exact ⟨h, rfl⟩

/-- What comes second is done if what comes first has ended well. -/
theorem Act.bind_cases (x : Act σ α) (f : α → Act σ β) (w : World σ) :
    (∃ a, (x w).1 = .ok a ∧ (x >>= f) w = f a (x w).2) ∨
      ∃ fault, (x w).1.fault? = some fault ∧ ((x >>= f) w).1.fault? = some fault ∧
        ((x >>= f) w).2 = (x w).2 := by
  cases hfault : (x w).1.fault? with
  | none =>
      rcases hx : x w with ⟨a | e | p, w₁⟩ <;> rw [hx] at hfault
      case ok => exact .inl ⟨a, rfl, bind_ok hx⟩
      case failed => cases hfault
      case panicked => cases hfault
  | some fault => exact .inr ⟨fault, rfl, bind_of_fault hfault f⟩

/-- Since there were certain notes, no call has had a fault other than a given one. -/
def World.FaultsSince (past : List Note) (fault? : Option Fault) (w : World σ) : Prop :=
  ∃ notes, w.notes.toList = past ++ notes ∧
    ∀ n ∈ notes, ∀ f, n.fault? = some f → fault? = some f

namespace World.FaultsSince

variable {past : List Note} {fault? : Option Fault} {w w' : World σ}

theorem refl (w : World σ) : w.FaultsSince w.notes.toList none :=
  ⟨[], by simp, by simp⟩

theorem weaken (h : w.FaultsSince past none) : w.FaultsSince past fault? := by
  obtain ⟨notes, hn, hf⟩ := h
  refine ⟨notes, hn, fun n hm f hs => ?_⟩
  cases hf n hm f hs

theorem of_notes_eq (h : w.FaultsSince past fault?) (hn : w'.notes = w.notes) :
    w'.FaultsSince past fault? := by
  simpa [World.FaultsSince, hn] using h

theorem snoc (h : w.FaultsSince past fault?) (n : Note)
    (hn : w'.notes.toList = w.notes.toList ++ [n]) (hf : ∀ f, n.fault? = some f → fault? = some f) :
    w'.FaultsSince past fault? := by
  obtain ⟨notes, hp, hs⟩ := h
  refine ⟨notes ++ [n], by simp [hn, hp], fun m hm f hmf => ?_⟩
  rcases List.mem_append.mp hm with hm | hm
  · exact hs m hm f hmf
  · rw [List.mem_singleton.mp hm] at hmf
    exact hf f hmf

theorem drop (h : w.FaultsSince past fault?) (host : Host σ) (handle : Handle) :
    (w.drop host handle).FaultsSince past fault? :=
  h.snoc (.dropped handle) (World.drop_notes ..) (by simp [Note.fault?])

end World.FaultsSince

namespace Act

/-- Every fault of a call that an act makes is the fault that the act ends with. -/
def ReportsFaults (x : Act σ α) : Prop :=
  ∀ past, Triple (World.FaultsSince past none) x (fun _ => World.FaultsSince past none)
    (fun e => World.FaultsSince past (some (.error e)))
    (fun p => World.FaultsSince past (some (.panic p)))

namespace ReportsFaults

theorem pure (a : α) : (Pure.pure a : Act σ α).ReportsFaults :=
  fun _ => Triple.pure a fun _ h => h

theorem fail (e : EngineError) : (Act.fail e : Act σ α).ReportsFaults :=
  fun _ => Triple.fail e fun _ h => h.weaken

theorem bind {x : Act σ α} {f : α → Act σ β} (hx : x.ReportsFaults)
    (hf : ∀ a, (f a).ReportsFaults) : (x >>= f).ReportsFaults :=
  fun past => (hx past).bind fun a => hf a past

theorem look (f : World σ → α) : (Act.look f).ReportsFaults :=
  fun _ => Triple.look f fun _ h => h

theorem alter (f : World σ → World σ) (h : ∀ w, (f w).notes = w.notes) :
    (Act.alter f).ReportsFaults :=
  fun _ => Triple.alter f fun w hw => hw.of_notes_eq (h w)

theorem ask (host : Host σ) (call : Call) : (Act.ask host call).ReportsFaults := by
  intro past
  apply Triple.ask
  intro w hw
  have hn := ask_notes host call w
  cases ho : (Act.ask host call w).1 with
  | ok a => exact hw.snoc _ hn (by simp [ho, Note.fault?, Outcome.fault?])
  | failed e => exact hw.weaken.snoc _ hn (by simp [ho, Note.fault?, Outcome.fault?])
  | panicked p => exact hw.weaken.snoc _ hn (by simp [ho, Note.fault?, Outcome.fault?])

theorem launch (host : Host σ) (spec : EngineSpec) : (Act.launch host spec).ReportsFaults :=
  fun past => Triple.launch (fun _ hw => hw.of_notes_eq rfl) fun _ => ask host _ past

theorem guarding {x : Act σ α} (h : x.ReportsFaults) (host : Host σ) (handle : Handle) :
    (Act.guarding host handle x).ReportsFaults :=
  fun past => Triple.guarding ((h past).afterFault (fun _ _ hw => hw.drop host handle)
    (fun _ _ hw => hw.drop host handle))

theorem faultsSince {x : Act σ α} (h : x.ReportsFaults) (w : World σ) :
    (x w).2.FaultsSince w.notes.toList (x w).1.fault? := by
  have hw := World.FaultsSince.refl w
  rcases hr : x w with ⟨_ | _ | _, w'⟩
  case ok a => exact (h _).ok w a w' hw hr
  case failed e => exact (h _).failed w e w' hw hr
  case panicked p => exact (h _).panicked w p w' hw hr

end ReportsFaults

end Act

end CheckWorker
