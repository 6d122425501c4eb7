import CheckWorker.World

/-!
# What acts lead to

A triple says what holds when an act has ended, for each of the three ways in which it can end,
provided that something held before. Acts are put together from a few, and so are their triples.
-/

namespace CheckWorker.Act

variable {σ α β : Type}

theorem bind_assoc {γ : Type} (x : Act σ α) (f : α → Act σ β) (g : β → Act σ γ) :
    x >>= f >>= g = x >>= fun a => f a >>= g := by
  funext w
  rcases hx : x w with ⟨_ | _ | _, w₁⟩
  case ok a => simp only [bind, andThen, hx]
  case failed e => simp only [bind, andThen, hx]
  case panicked p => simp only [bind, andThen, hx]

theorem exists_of_bind_eq_ok {x : Act σ α} {f : α → Act σ β} {w w' : World σ} {b : β}
    (h : (x >>= f) w = (.ok b, w')) : ∃ a w₁, x w = (.ok a, w₁) ∧ f a w₁ = (.ok b, w') := by
  rcases hx : x w with ⟨_ | _ | _, w₁⟩
  case ok a => exact ⟨a, w₁, rfl, by rwa [bind_ok hx] at h⟩
  case failed e =>
    rw [bind_failed hx] at h
    cases h
  case panicked p =>
    rw [bind_panicked hx] at h
    cases h

/-- From a world of which `P` holds, an act leads to one of which `Q` holds when it ends well, `E`
when it ends with an error, and `F` when it ends in a panic. -/
structure Triple (P : World σ → Prop) (x : Act σ α) (Q : α → World σ → Prop)
    (E : EngineError → World σ → Prop) (F : Panic → World σ → Prop) : Prop where
  ok : ∀ w a w', P w → x w = (.ok a, w') → Q a w'
  failed : ∀ w e w', P w → x w = (.failed e, w') → E e w'
  panicked : ∀ w p w', P w → x w = (.panicked p, w') → F p w'

/-- An act leads from worlds with a property to worlds with that property, however it ends. -/
abbrev Keeps (P : World σ → Prop) (x : Act σ α) : Prop :=
  Triple P x (fun _ => P) (fun _ => P) (fun _ => P)

namespace Triple

variable {P P' : World σ → Prop} {x : Act σ α} {f : α → Act σ β}
  {Q Q' : α → World σ → Prop} {S : β → World σ → Prop}
  {E E' : EngineError → World σ → Prop} {F F' : Panic → World σ → Prop}

theorem before (h : Triple P x Q E F) (hP : ∀ w, P' w → P w) : Triple P' x Q E F where
  ok w a w' hw ho := h.ok w a w' (hP w hw) ho
  failed w e w' hw ho := h.failed w e w' (hP w hw) ho
  panicked w p w' hw ho := h.panicked w p w' (hP w hw) ho

theorem after (h : Triple P x Q E F) (hQ : ∀ a w, Q a w → Q' a w)
    (hE : ∀ e w, E e w → E' e w) (hF : ∀ p w, F p w → F' p w) : Triple P x Q' E' F' where
  ok w a w' hw ho := hQ a w' (h.ok w a w' hw ho)
  failed w e w' hw ho := hE e w' (h.failed w e w' hw ho)
  panicked w p w' hw ho := hF p w' (h.panicked w p w' hw ho)

/-- What holds after a good end stays, and something else is said of the bad ends. -/
theorem afterFault (h : Triple P x Q E F) (hE : ∀ e w, E e w → E' e w)
    (hF : ∀ p w, F p w → F' p w) : Triple P x Q E' F' :=
  h.after (fun _ _ hw => hw) hE hF

theorem pure (a : α) (h : ∀ w, P w → Q a w) : Triple P (Pure.pure a) Q E F where
  ok w b w' hw ho := by
    cases ho
    exact h w hw
  failed w e w' _ ho := by cases ho
  panicked w p w' _ ho := by cases ho

/-- What comes second starts where what comes first has ended well; the other ends of the first are
ends of the whole. -/
theorem bind (hx : Triple P x Q E F) (hf : ∀ a, Triple (Q a) (f a) S E F) :
    Triple P (x >>= f) S E F where
  ok w b w' hw h := by
    rcases hr : x w with ⟨_ | _ | _, w₁⟩
    case ok a =>
      rw [bind_ok hr] at h
      exact (hf a).ok w₁ b w' (hx.ok w a w₁ hw hr) h
    case failed e =>
      rw [bind_failed hr] at h
      cases h
    case panicked p =>
      rw [bind_panicked hr] at h
      cases h
  failed w e w' hw h := by
    rcases hr : x w with ⟨_ | _ | _, w₁⟩
    case ok a =>
      rw [bind_ok hr] at h
      exact (hf a).failed w₁ e w' (hx.ok w a w₁ hw hr) h
    case failed e' =>
      rw [bind_failed hr] at h
      cases h
      exact hx.failed w e _ hw hr
    case panicked p =>
      rw [bind_panicked hr] at h
      cases h
  panicked w p w' hw h := by
    rcases hr : x w with ⟨_ | _ | _, w₁⟩
    case ok a =>
      rw [bind_ok hr] at h
      exact (hf a).panicked w₁ p w' (hx.ok w a w₁ hw hr) h
    case failed e =>
      rw [bind_failed hr] at h
      cases h
    case panicked p' =>
      rw [bind_panicked hr] at h
      cases h
      exact hx.panicked w p _ hw hr

theorem of_exists {ι : Type} {R : ι → World σ → Prop} (h : ∀ i, Triple (R i) x Q E F) :
    Triple (fun w => ∃ i, R i w) x Q E F where
  ok w a w' := fun ⟨i, hw⟩ ho => (h i).ok w a w' hw ho
  failed w e w' := fun ⟨i, hw⟩ ho => (h i).failed w e w' hw ho
  panicked w p w' := fun ⟨i, hw⟩ ho => (h i).panicked w p w' hw ho

theorem of_and {φ : Prop} (h : φ → Triple P x Q E F) : Triple (fun w => φ ∧ P w) x Q E F where
  ok w a w' := fun ⟨hφ, hw⟩ ho => (h hφ).ok w a w' hw ho
  failed w e w' := fun ⟨hφ, hw⟩ ho => (h hφ).failed w e w' hw ho
  panicked w p w' := fun ⟨hφ, hw⟩ ho => (h hφ).panicked w p w' hw ho

theorem fail (e : EngineError) (h : ∀ w, P w → E e w) : Triple P (Act.fail e) Q E F where
  ok w a w' _ ho := by cases ho
  failed w e' w' hw ho := by
    cases ho
    exact h w hw
  panicked w p w' _ ho := by cases ho

theorem alter (f : World σ → World σ) {Q : Unit → World σ → Prop} (h : ∀ w, P w → Q () (f w)) :
    Triple P (Act.alter f) Q E F where
  ok w a w' hw ho := by
    cases ho
    exact h w hw
  failed w e w' _ ho := by cases ho
  panicked w p w' _ ho := by cases ho

theorem look (f : World σ → α) (h : ∀ w, P w → Q (f w) w) : Triple P (Act.look f) Q E F where
  ok w a w' hw ho := by
    cases ho
    exact h w hw
  failed w e w' _ ho := by cases ho
  panicked w p w' _ ho := by cases ho

theorem ask {host : Host σ} {call : Call} {Q : call.Result → World σ → Prop}
    (h : ∀ w, P w → match (Act.ask host call w).1 with
      | .ok a => Q a (Act.ask host call w).2
      | .failed e => E e (Act.ask host call w).2
      | .panicked p => F p (Act.ask host call w).2) :
    Triple P (Act.ask host call) Q E F where
  ok w a w' hw ho := by simpa [ho] using h w hw
  failed w e w' hw ho := by simpa [ho] using h w hw
  panicked w p w' hw ho := by simpa [ho] using h w hw

theorem launch {host : Host σ} {spec : EngineSpec} {Q : Handle → World σ → Prop}
    {R : Handle → World σ → Prop}
    (hP : ∀ w, P w → R w.launches { w with launches := w.launches + 1 })
    (h : ∀ handle, Triple (R handle) (Act.ask host (.launch spec handle)) (fun _ => Q handle) E F) :
    Triple P (Act.launch host spec) Q E F := by
  have hnumber (handle : Handle) :
      Triple (R handle) (Act.ask host (.launch spec handle) >>= fun () => Pure.pure handle) Q E F :=
    (h handle).bind fun () => Triple.pure handle fun _ hw => hw
  exact {
    ok := fun w a w' hw ho => (hnumber w.launches).ok _ a w' (hP w hw) ho
    failed := fun w e w' hw ho => (hnumber w.launches).failed _ e w' (hP w hw) ho
    panicked := fun w p w' hw ho => (hnumber w.launches).panicked _ p w' (hP w hw) ho }

theorem guarding {host : Host σ} {handle : Handle}
    (hx : Triple P x Q (fun e w => E e (w.drop host handle)) (fun p w => F p (w.drop host handle))) :
    Triple P (Act.guarding host handle x) Q E F where
  ok w a w' hw ho := by
    unfold Act.guarding at ho
    rcases hr : x w with ⟨_ | _ | _, w₁⟩ <;> simp only [hr] at ho <;> cases ho
    exact hx.ok w a _ hw hr
  failed w e w' hw ho := by
    unfold Act.guarding at ho
    rcases hr : x w with ⟨_ | _ | _, w₁⟩ <;> simp only [hr] at ho <;> cases ho
    exact hx.failed w e _ hw hr
  panicked w p w' hw ho := by
    unfold Act.guarding at ho
    rcases hr : x w with ⟨_ | _ | _, w₁⟩ <;> simp only [hr] at ho <;> cases ho
    exact hx.panicked w p _ hw hr

theorem apply {R : World σ → Prop} (h : Triple P x (fun _ => R) (fun _ => R) (fun _ => R))
    {w : World σ} (hw : P w) : R (x w).2 := by
  rcases hr : x w with ⟨_ | _ | _, w'⟩
  case ok a => exact h.ok w a w' hw hr
  case failed e => exact h.failed w e w' hw hr
  case panicked p => exact h.panicked w p w' hw hr

end Triple

namespace Keeps

variable {P : World σ → Prop} {x : Act σ α}

theorem of_forall (h : ∀ w, P w → P (x w).2) : Keeps P x where
  ok w a w' hw ho := by simpa [ho] using h w hw
  failed w e w' hw ho := by simpa [ho] using h w hw
  panicked w p w' hw ho := by simpa [ho] using h w hw

theorem pure (a : α) : Keeps P (Pure.pure a) :=
  Triple.pure a fun _ hw => hw

theorem fail (e : EngineError) : Keeps P (Act.fail e : Act σ α) :=
  Triple.fail e fun _ hw => hw

theorem look (f : World σ → α) : Keeps P (Act.look f) :=
  Triple.look f fun _ hw => hw

theorem alter {f : World σ → World σ} (h : ∀ w, P w → P (f w)) : Keeps P (Act.alter f) :=
  Triple.alter f h

theorem guarding {host : Host σ} {handle : Handle} (hx : Keeps P x)
    (hd : ∀ w, P w → P (w.drop host handle)) : Keeps P (Act.guarding host handle x) :=
  Triple.guarding (hx.afterFault (fun _ => hd) (fun _ => hd))

end Keeps

end CheckWorker.Act
