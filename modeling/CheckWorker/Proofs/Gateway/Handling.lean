import CheckWorker.Proofs.Session.Kind

/-!
# The handling of an item

An item is a request or it is refused. A request is done by a session, and the fault of that, if
there was one, is told. So a gateway keeps what its session and the sending of events keep.
-/

namespace CheckWorker

open Act

variable {σ : Type}

def Inbound.read : Inbound → Except Request.Fault Request
  | .line text => Request.decode text
  | .request r => .ok r

namespace Gateway

/-- What is told of a fault in the handling of a request. -/
def faultText (r : Request) : Fault → String
  | .error e => e.message
  | .panic p =>
      match r with
      | .init _ => "internal error while handling 'init': " ++ p.message
      | .warmup => "internal error while handling 'warmup': " ++ p.message
      | .check _ => "internal error while handling 'check': " ++ p.message

theorem panicText_kind (r : Request) (p : Panic) :
    panicText r.kind p = faultText r (.panic p) := by
  cases r <;> exact congrArg (· ++ p.message) rfl

variable (host : Host σ) (g : Gateway)

theorem handleInbound_eq (item : Inbound) (w : World σ) :
    g.handleInbound host item w =
      match item.read with
      | .ok r => g.handle host r w
      | .error fault => w.emit (.error fault.message) := by
  cases item <;> rfl

theorem handle_eq (r : Request) (w : World σ) :
    g.handle host r w =
      match (g.dispatch host r w).1.fault? with
      | none => (g.dispatch host r w).2
      | some fault => (g.dispatch host r w).2.emit (.error (faultText r fault)) := by
  unfold handle
  rcases g.dispatch host r w with ⟨_ | _ | p, w'⟩
  case ok => rfl
  case failed => rfl
  case panicked => simp only [panicText_kind, Outcome.fault?]

theorem handle_notes (r : Request) (w : World σ) :
    (g.handle host r w).notes = (g.dispatch host r w).2.notes := by
  rw [handle_eq]
  cases (g.dispatch host r w).1.fault? <;> rfl

theorem handle_engine (r : Request) (w : World σ) :
    (g.handle host r w).engine = (g.dispatch host r w).2.engine := by
  rw [handle_eq]
  cases (g.dispatch host r w).1.fault? <;> rfl

theorem faultsSince_handle (r : Request) (w : World σ) :
    (g.handle host r w).FaultsSince w.notes.toList (g.dispatch host r w).1.fault? :=
  (((reportsFaults host).dispatch g (fun _ => ReportsFaults.alter _ fun _ => rfl) r).faultsSince
    w).of_notes_eq (handle_notes host g r w)

section

variable {host g} {P : World σ → Prop} (hr : ∀ r, Keeps P (g.dispatch host r))
  (he : ∀ e w, P w → P (w.emit e))

include hr he

theorem keeps_handle (r : Request) {w : World σ} (hw : P w) : P (g.handle host r w) := by
  rw [handle_eq]
  cases (g.dispatch host r w).1.fault? with
  | none => exact (hr r).apply hw
  | some fault => exact he _ _ ((hr r).apply hw)

theorem keeps_handleInbound (item : Inbound) {w : World σ} (hw : P w) :
    P (g.handleInbound host item w) := by
  rw [handleInbound_eq]
  cases item.read with
  | error fault => exact he _ w hw
  | ok r => exact keeps_handle hr he r hw

/-- What the requests and the sending of events keep holds after every run. -/
theorem keeps_handleAll (items : List Inbound) {w : World σ} (hw : P w) :
    P (g.handleAll host items w) := by
  induction items generalizing w with
  | nil => exact hw
  | cons item items ih => exact ih (keeps_handleInbound hr he item hw)

end

end Gateway

end CheckWorker
