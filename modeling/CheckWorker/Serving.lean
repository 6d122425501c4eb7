import CheckWorker.Gateway

/-!
# Serving a stream

Requests come in as lines of bytes and events go out as lines of text. Blank lines are passed over.
A line that is not UTF-8 ends the reading; the place of the fault is counted from the beginning of
its line.
-/

namespace CheckWorker

/-- What a stream of bytes asks for: the lines that are not blank, and the fault that ended the
reading, if there was one. -/
structure Incoming where
  lines : List String
  fault? : Option Utf8.Fault

namespace Incoming

def wholeLines (bytes : List UInt8) : List UInt8 :=
  (bytes.reverse.dropWhile (· != 10)).reverse

def ofBytes (bytes : List UInt8) : Incoming :=
  match Utf8.decode bytes with
  | .ok text => ⟨(String.ofList text).solidLines, none⟩
  | .error fault =>
      let before := wholeLines (bytes.take fault.index)
      ⟨(String.ofList (Utf8.decodeLossy before)).solidLines,
        some { fault with index := fault.index - before.length }⟩

end Incoming

def Event.wireLine (e : Event) : String :=
  e.encode ++ "\n"

def wireText (events : List Event) : String :=
  String.join (events.map Event.wireLine)

namespace Gateway

variable {σ : Type} (host : Host σ) (g : Gateway)

/-- Serves a stream to its end. The world's events are what was written. -/
def serve (input : List UInt8) (w : World σ) : Except Trouble Unit × World σ :=
  let incoming := Incoming.ofBytes input
  let w := g.drain host (incoming.lines.map .line) w
  match incoming.fault? with
  | none => (.ok (), w)
  | some fault => (.error ((Trouble.plain fault.message).within "Failed to read request"), w)

end Gateway

end CheckWorker
