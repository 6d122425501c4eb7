import CheckWorker.Gateway

/-!
# The queue

A gateway may work beside whoever sends to it. Then items wait in a queue while others are handled,
events wait in a channel until they are taken, and the text of the engine's error stream gets into
the channel at any time. `Queue.Step` says what can happen next; nothing is said about when it does.

When the queue is closed and empty the gateway stops. It gives up its engine then, and with the
engine goes its error stream.
-/

namespace CheckWorker

structure Queue (σ : Type) where
  sent : List Inbound
  waiting : List Inbound
  handled : List Inbound
  world : World σ
  channel : List (Origin × Event)
  taken : List (Origin × Event)
  isClosed : Bool
  isStopped : Bool

namespace Queue

variable {σ : Type}

def start (w : World σ) : Queue σ :=
  ⟨[], [], [], w, [], [], false, false⟩

def eventsBetween (before after : World σ) : List (Origin × Event) :=
  after.sent.toList.drop before.sent.size

/-- Lines of the error stream, each of which `noise` allows, get in between some events. -/
inductive Mixed (noise : String → Prop) : List (Origin × Event) → List (Origin × Event) → Prop
  | nil : Mixed noise [] []
  | event (e : Origin × Event) {own mixed : List (Origin × Event)} (h : Mixed noise own mixed) :
      Mixed noise (e :: own) (e :: mixed)
  | line (text : String) {own mixed : List (Origin × Event)} (ht : noise text)
      (h : Mixed noise own mixed) : Mixed noise own ((.engine, .log text) :: mixed)

def events (q : Queue σ) : List (Origin × Event) :=
  q.taken ++ q.channel

def gatewayEvents (q : Queue σ) : List Event :=
  (q.events.filter (·.1 == .gateway)).map Prod.snd

def send (q : Queue σ) (item : Inbound) : Queue σ :=
  { q with sent := q.sent ++ [item], waiting := q.waiting ++ [item] }

def take (q : Queue σ) (e : Origin × Event) (rest : List (Origin × Event)) : Queue σ :=
  { q with channel := rest, taken := q.taken ++ [e] }

def close (q : Queue σ) : Queue σ :=
  { q with isClosed := true }

def handle (host : Host σ) (g : Gateway) (q : Queue σ) (item : Inbound) (rest : List Inbound)
    (mixed : List (Origin × Event)) : Queue σ :=
  { q with
    waiting := rest
    handled := q.handled ++ [item]
    world := g.handleInbound host item q.world
    channel := q.channel ++ mixed }

def tell (q : Queue σ) (line : String) : Queue σ :=
  { q with channel := q.channel ++ [(.engine, .log line)] }

def stop (host : Host σ) (q : Queue σ) (mixed : List (Origin × Event)) : Queue σ :=
  { q with
    world := q.world.release host
    channel := q.channel ++ mixed
    isStopped := true }

variable (host : Host σ) (g : Gateway) (noise : String → Prop)

/-- What the gateway and the error stream of its engine can do next. -/
inductive Work : Queue σ → Queue σ → Prop
  | handle (q : Queue σ) (item : Inbound) (rest : List Inbound) (mixed : List (Origin × Event))
      (h : q.waiting = item :: rest) (hs : q.isStopped = false)
      (hm : Mixed noise (eventsBetween q.world (g.handleInbound host item q.world)) mixed) :
      Work q (q.handle host g item rest mixed)
  | tell (q : Queue σ) (line : String) (hl : noise line) (hs : q.isStopped = false) :
      Work q (q.tell line)
  | stop (q : Queue σ) (mixed : List (Origin × Event)) (h : q.waiting = [])
      (hc : q.isClosed = true) (hs : q.isStopped = false)
      (hm : Mixed noise (eventsBetween q.world (q.world.release host)) mixed) :
      Work q (q.stop host mixed)

/-- What can happen next: something is sent or taken, or the queue is closed, or there is work. -/
inductive Step : Queue σ → Queue σ → Prop
  | send (q : Queue σ) (item : Inbound) (h : q.isClosed = false) : Step q (q.send item)
  | take (q : Queue σ) (e : Origin × Event) (rest : List (Origin × Event))
      (h : q.channel = e :: rest) : Step q (q.take e rest)
  | close (q : Queue σ) : Step q q.close
  | work (q r : Queue σ) (h : Work host g noise q r) : Step q r

/-- What can come after any number of steps. -/
inductive Steps (p : Queue σ) : Queue σ → Prop
  | none : Steps p p
  | more (q r : Queue σ) (h : Steps p q) (hs : Step host g noise q r) : Steps p r

end Queue

end CheckWorker
