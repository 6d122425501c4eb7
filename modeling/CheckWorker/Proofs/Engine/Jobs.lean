import CheckWorker.Engine.Job

/-!
# Jobs one after the other

What comes first decides whether what comes second is done. If it is, the second finds the state and
the files as the first has left them.
-/

namespace CheckWorker.Job

variable {σ α β : Type} {x : Job σ α} {f : α → Job σ β} {s : σ} {files : FileTree}

theorem bind_of_ok {a : α} (h : (x s files).outcome = .ok a) :
    (x >>= f) s files =
      { f a (x s files).state (x s files).files with
        logs := (x s files).logs ++ (f a (x s files).state (x s files).files).logs
        millis := (x s files).millis + (f a (x s files).state (x s files).files).millis } := by
  have hbind : (x >>= f) s files = goOn (x s files) f := rfl
  rw [hbind, goOn, h]

theorem bind_of_failed {e : EngineError} (h : (x s files).outcome = .failed e) :
    (x >>= f) s files = { x s files with outcome := .failed e } := by
  have hbind : (x >>= f) s files = goOn (x s files) f := rfl
  rw [hbind, goOn, h]

/-- What comes first passes nothing on and takes no time, so nothing of it is seen in the end. -/
theorem bind_of_silent {a : α} {s' : σ} {files' : FileTree}
    (h : x s files = { outcome := .ok a, state := s', files := files' }) :
    (x >>= f) s files = f a s' files' := by
  have hok : (x s files).outcome = .ok a := by rw [h]
  rw [bind_of_ok hok, h]
  simp only [List.nil_append, UInt64.zero_add]

theorem pure_bind (a : α) (f : α → Job σ β) : pure a >>= f = f a := by
  funext s files
  have hpure : (pure a : Job σ α) s files = { outcome := .ok a, state := s, files } := rfl
  exact bind_of_silent hpure

theorem bind_assoc {γ : Type} (x : Job σ α) (f : α → Job σ β) (g : β → Job σ γ) :
    x >>= f >>= g = x >>= fun a => f a >>= g := by
  have hbind {δ ε : Type} (y : Job σ δ) (k : δ → Job σ ε) (s : σ) (files : FileTree) :
      (y >>= k) s files = goOn (y s files) k := rfl
  funext s files
  simp only [hbind, goOn]
  cases (x s files).outcome with
  | ok a =>
      simp only
      cases (f a (x s files).state (x s files).files).outcome with
      | ok b => simp only [List.append_assoc, UInt64.add_assoc]
      | failed e => rfl
      | panicked p => rfl
  | failed e => rfl
  | panicked p => rfl

theorem passOn_bind (logs : List String) (f : Unit → Job σ β) (s : σ) (files : FileTree) :
    (passOn logs >>= f) s files = { f () s files with logs := logs ++ (f () s files).logs } := by
  have hok : (passOn logs s files).outcome = .ok () := rfl
  rw [bind_of_ok hok]
  have hmillis : (passOn logs s files).millis = 0 := rfl
  rw [hmillis, UInt64.zero_add]
  rfl

theorem ite_fail (c : Bool) (e : EngineError) (s : σ) (files : FileTree) :
    (if c then return () else fail e : Job σ Unit) s files =
      close (if c then .ok () else .failed e) s files := by
  cases c <;> rfl

theorem exists_of_bind_ok {b : β} (h : ((x >>= f) s files).outcome = .ok b) :
    ∃ a, (x s files).outcome = .ok a ∧
      (f a (x s files).state (x s files).files).outcome = .ok b ∧
      ((x >>= f) s files).state = (f a (x s files).state (x s files).files).state := by
  have hbind : (x >>= f) s files = goOn (x s files) f := rfl
  cases hx : (x s files).outcome with
  | ok a =>
      rw [bind_of_ok hx] at h ⊢
      exact ⟨a, rfl, h, rfl⟩
  | failed e =>
      rw [bind_of_failed hx] at h
      cases h
  | panicked p =>
      rw [hbind, goOn, hx] at h
      cases h

end CheckWorker.Job
