import CheckWorker.Engine.Host
import CheckWorker.Message.Event

/-!
# The world of a worker

Everything that a worker changes: the host and the files, the events that it sent and those that
were taken from it, the engine that it holds, and notes of all that was asked of the host. An `Act`
goes from one world to another and ends like a call: well, with an error, or in a panic; what comes
after an act that did not end well is not done.
-/

namespace CheckWorker

/-- The way from a worker to whoever listens. The listener may go away; from then on events are lost
and nothing else changes. -/
structure Channel where
  /-- How many more events are taken; none means all. -/
  patience : Option Nat
  taken : Array Event

namespace Channel

def listened : Channel :=
  ⟨none, #[]⟩

def deaf : Channel :=
  ⟨some 0, #[]⟩

def send (c : Channel) (e : Event) : Channel :=
  match c.patience with
  | none => ⟨none, c.taken.push e⟩
  | some 0 => c
  | some (n + 1) => ⟨some n, c.taken.push e⟩

def sendAll (c : Channel) (es : List Event) : Channel :=
  es.foldl send c

@[simp] theorem sendAll_nil (c : Channel) : c.sendAll [] = c := rfl

@[simp] theorem sendAll_cons (c : Channel) (e : Event) (es : List Event) :
    c.sendAll (e :: es) = (c.send e).sendAll es := rfl

theorem sendAll_append (c : Channel) (xs ys : List Event) :
    c.sendAll (xs ++ ys) = (c.sendAll xs).sendAll ys :=
  List.foldl_append

theorem taken_sendAll_listened (c : Channel) (h : c.patience = none) (es : List Event) :
    (c.sendAll es).taken.toList = c.taken.toList ++ es := by
  induction es generalizing c with
  | nil => simp
  | cons e es ih =>
      have hs : c.send e = ⟨none, c.taken.push e⟩ := by simp [send, h]
      rw [sendAll_cons, ih _ (by simp [hs]), hs]
      simp

@[simp] theorem send_deaf (e : Event) : deaf.send e = deaf := rfl

end Channel

inductive Origin
  | gateway
  /-- A tool or an engine whose text is passed on. -/
  | engine
  deriving DecidableEq

/-- What happened to the host and its engines, in order. -/
inductive Note
  | answered (call : Call) (outcome : Outcome call.Result)
  | dropped (handle : Handle)
  /-- A check was about to use the engine. -/
  | started

inductive EngineState
  | uninitialized
  /-- A launched engine; it is warm when it has been imported. -/
  | ready (handle : Handle) (warm : Bool)
  deriving DecidableEq

namespace EngineState

def isInitialized : EngineState → Bool
  | .uninitialized => false
  | .ready _ _ => true

def isWarm : EngineState → Bool
  | .uninitialized => false
  | .ready _ warm => warm

end EngineState

structure World (σ : Type) where
  host : σ
  files : FileTree
  channel : Channel
  sent : Array (Origin × Event)
  engine : EngineState
  notes : Array Note
  /-- How many launches were tried. -/
  launches : Nat
  /-- The milliseconds that calls have taken. -/
  clock : UInt64

namespace World

variable {σ : Type}

def start (host : σ) (files : FileTree) (channel : Channel) : World σ :=
  ⟨host, files, channel, #[], .uninitialized, #[], 0, 0⟩

def emit (w : World σ) (e : Event) : World σ :=
  { w with channel := w.channel.send e, sent := w.sent.push (.gateway, e) }

def passOn (w : World σ) (logs : List String) : World σ :=
  { w with
    channel := w.channel.sendAll (logs.map .log)
    sent := w.sent ++ (logs.map fun line => (Origin.engine, Event.log line)).toArray }

/-- The events of the gateway itself, in the order in which it sent them. -/
def told (w : World σ) : List Event :=
  (w.sent.toList.filter (·.1 == .gateway)).map Prod.snd

def note (w : World σ) (n : Note) : World σ :=
  { w with notes := w.notes.push n }

def drop (host : Host σ) (handle : Handle) (w : World σ) : World σ :=
  let (state, logs) := host.drop handle w.host
  ({ w with host := state }.note (.dropped handle)).passOn logs

def release (host : Host σ) (w : World σ) : World σ :=
  match w.engine with
  | .uninitialized => w
  | .ready handle _ => { w with engine := .uninitialized }.drop host handle

theorem release_of_uninitialized (host : Host σ) {w : World σ} (h : w.engine = .uninitialized) :
    w.release host = w := by
  simp [release, h]

theorem release_of_ready (host : Host σ) {w : World σ} {handle : Handle} {warm : Bool}
    (h : w.engine = .ready handle warm) :
    w.release host = { w with engine := .uninitialized }.drop host handle := by
  simp [release, h]

@[simp] theorem emit_engine (w : World σ) (e : Event) : (w.emit e).engine = w.engine := rfl

@[simp] theorem emit_notes (w : World σ) (e : Event) : (w.emit e).notes = w.notes := rfl

@[simp] theorem emit_launches (w : World σ) (e : Event) : (w.emit e).launches = w.launches := rfl

@[simp] theorem told_emit (w : World σ) (e : Event) : (w.emit e).told = w.told ++ [e] := by
  simp [told, emit]

@[simp] theorem told_passOn (w : World σ) (logs : List String) : (w.passOn logs).told = w.told := by
  simp [told, passOn]

@[simp] theorem drop_engine (host : Host σ) (handle : Handle) (w : World σ) :
    (w.drop host handle).engine = w.engine := rfl

@[simp] theorem drop_notes (host : Host σ) (handle : Handle) (w : World σ) :
    (w.drop host handle).notes.toList = w.notes.toList ++ [.dropped handle] := by
  simp [drop, note, passOn]

@[simp] theorem drop_launches (host : Host σ) (handle : Handle) (w : World σ) :
    (w.drop host handle).launches = w.launches := rfl

@[simp] theorem told_drop (host : Host σ) (handle : Handle) (w : World σ) :
    (w.drop host handle).told = w.told :=
  told_passOn _ _

end World

def Act (σ α : Type) : Type :=
  World σ → Outcome α × World σ

namespace Act

variable {σ α β : Type}

def andThen (x : Act σ α) (f : α → Act σ β) : Act σ β := fun w =>
  match x w with
  | (.ok a, w) => f a w
  | (.failed e, w) => (.failed e, w)
  | (.panicked p, w) => (.panicked p, w)

instance : Monad (Act σ) where
  pure a := fun w => (.ok a, w)
  bind := andThen

def fail (e : EngineError) : Act σ α := fun w =>
  (.failed e, w)

def alter (f : World σ → World σ) : Act σ Unit := fun w =>
  (.ok (), f w)

def look (f : World σ → α) : Act σ α := fun w =>
  (.ok (f w), w)

/-- Ends an engine if what is done with it does not end well. -/
def guarding (host : Host σ) (handle : Handle) (x : Act σ α) : Act σ α := fun w =>
  match x w with
  | (.ok a, w) => (.ok a, w)
  | (outcome, w) => (outcome, w.drop host handle)

def ask (host : Host σ) (call : Call) : Act σ call.Result := fun w =>
  let reply := host.answer call w.host w.files
  let w := { w with host := reply.state, files := reply.files, clock := w.clock + reply.millis }
  (reply.outcome, (w.note (.answered call reply.outcome)).passOn reply.logs)

/-- Launches an engine under a number of its own. -/
def launch (host : Host σ) (spec : EngineSpec) : Act σ Handle := fun w =>
  let handle := w.launches
  (ask host (.launch spec handle) >>= fun () => pure handle) { w with launches := handle + 1 }

@[simp] theorem ask_engine (host : Host σ) (call : Call) (w : World σ) :
    (ask host call w).2.engine = w.engine := rfl

@[simp] theorem ask_notes (host : Host σ) (call : Call) (w : World σ) :
    (ask host call w).2.notes.toList = w.notes.toList ++ [.answered call (ask host call w).1] := by
  simp [ask, World.note, World.passOn]

@[simp] theorem ask_launches (host : Host σ) (call : Call) (w : World σ) :
    (ask host call w).2.launches = w.launches := rfl

@[simp] theorem told_ask (host : Host σ) (call : Call) (w : World σ) :
    (ask host call w).2.told = w.told :=
  World.told_passOn _ _

theorem bind_ok {x : Act σ α} {f : α → Act σ β} {w w' : World σ} {a : α} (h : x w = (.ok a, w')) :
    (x >>= f) w = f a w' := by
  simp [bind, andThen, h]

theorem bind_failed {x : Act σ α} {f : α → Act σ β} {w w' : World σ} {e : EngineError}
    (h : x w = (.failed e, w')) : (x >>= f) w = (.failed e, w') := by
  simp [bind, andThen, h]

theorem bind_panicked {x : Act σ α} {f : α → Act σ β} {w w' : World σ} {p : Panic}
    (h : x w = (.panicked p, w')) : (x >>= f) w = (.panicked p, w') := by
  simp [bind, andThen, h]

end Act

end CheckWorker
