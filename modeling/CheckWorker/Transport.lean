import CheckWorker.Queue
import CheckWorker.Serving

/-!
# The transport

A reader takes lines from a stream of bytes and queues those that are not blank, a gateway works
beside it, and a writer puts the events of the gateway on a stream as bytes. At the end of the
input the queue is closed; when the gateway has stopped and its events are written, the writer is
done, and then serving ends. Bytes that are no text end it at once, and what was queued before
them is handled all the same.
-/

namespace CheckWorker

/-- The bytes that are written for an event. -/
def Event.wire (e : Event) : List UInt8 :=
  Utf8.encode e.wireLine.toList

/-- The bytes that are written for events, one after another. -/
def writeEvents (events : List Event) : List UInt8 :=
  events.flatMap Event.wire

structure Transport (σ : Type) where
  unread : List UInt8
  queue : Queue σ
  written : List UInt8
  isFlushed : Bool
  ending? : Option (Except Trouble Unit)

namespace Transport

variable {σ : Type}

def start (input : List UInt8) (w : World σ) : Transport σ :=
  ⟨input, Queue.start w, [], false, none⟩

/-- The first line of some bytes, with the line feed that ends it, and the bytes behind it. -/
def takeLine (bytes : List UInt8) : List UInt8 × List UInt8 :=
  let line := bytes.takeWhile (· != 10)
  match bytes.dropWhile (· != 10) with
  | [] => (line, [])
  | feed :: rest => (line ++ [feed], rest)

/-- A line without the line feed that ends it, and without one carriage return before that. -/
def withoutEnd (line : List Char) : List Char :=
  match line.reverse with
  | '\n' :: before => Text.closeLine '\r' before
  | before => before.reverse

def queueLine (q : Queue σ) (line : String) : Queue σ :=
  if line.isBlank then q else q.send (.line line)

/-- Reads a line. -/
def read (t : Transport σ) : Transport σ :=
  let (bytes, rest) := takeLine t.unread
  match Utf8.decode bytes with
  | .ok line =>
      { t with unread := rest, queue := queueLine t.queue (String.ofList (withoutEnd line)) }
  | .error fault =>
      let trouble := (Trouble.plain fault.message).within "Failed to read request"
      { t with unread := rest, queue := t.queue.close, ending? := some (.error trouble) }

def write (t : Transport σ) (e : Origin × Event) (rest : List (Origin × Event)) : Transport σ :=
  { t with queue := t.queue.take e rest, written := t.written ++ e.2.wire }

variable (host : Host σ) (g : Gateway) (noise : String → Prop)

/-- What can happen next: to the reader, to the gateway, to the writer, to all of it. -/
inductive Step : Transport σ → Transport σ → Prop
  | read (t : Transport σ) (h : t.unread ≠ []) (hc : t.queue.isClosed = false) : Step t t.read
  | close (t : Transport σ) (h : t.unread = []) (hc : t.queue.isClosed = false) :
      Step t { t with queue := t.queue.close }
  | work (t : Transport σ) (q : Queue σ) (h : Queue.Work host g noise t.queue q) :
      Step t { t with queue := q }
  | write (t : Transport σ) (e : Origin × Event) (rest : List (Origin × Event))
      (h : t.queue.channel = e :: rest) (hf : t.isFlushed = false) : Step t (t.write e rest)
  | flush (t : Transport σ) (h : t.queue.channel = []) (hs : t.queue.isStopped = true)
      (hf : t.isFlushed = false) : Step t { t with isFlushed := true }
  | finish (t : Transport σ) (hf : t.isFlushed = true) (he : t.ending? = none) :
      Step t { t with ending? := some (.ok ()) }

/-- What can come after any number of steps. -/
inductive Steps (s : Transport σ) : Transport σ → Prop
  | none : Steps s s
  | more (t u : Transport σ) (h : Steps s t) (hs : Step host g noise t u) : Steps s u

end Transport

end CheckWorker
