import CheckWorker.Engine.Spec
import CheckWorker.Programs
import CheckWorker.Shim.Protocol
import CheckWorker.Text.Lines

/-!
# The running shim

The worker sees the shim through three streams. What the shim has written to its output and nobody
has read yet waits its turn; every line that it finishes on its error stream is passed on, until one
is not UTF-8; and its input takes requests until the shim closes it. A shim that falls silent in the
middle of a line counts as having closed its output.
-/

namespace CheckWorker

/-- The error stream of a program, passed on line by line. -/
structure Forwarder where
  pending : List UInt8
  readable : Bool

namespace Forwarder

def start : Forwarder :=
  ⟨[], true⟩

/-- The text of lines, up to the first that is not UTF-8, and whether there is none. -/
def textOf : List (List UInt8) → List String × Bool
  | [] => ([], true)
  | line :: lines =>
      match Utf8.decode line with
      | .error _ => ([], false)
      | .ok text =>
          let (rest, readable) := textOf lines
          ((String.ofList text).solidLines ++ rest, readable)

def unfinished (bytes : List UInt8) : List UInt8 :=
  (bytes.reverse.takeWhile (· != 10)).reverse

/-- Takes what was written and passes on the lines that it finishes. -/
def feed (f : Forwarder) (bytes : List UInt8) : Forwarder × List String :=
  if !f.readable then (f, [])
  else
    let all := f.pending ++ bytes
    let pending := unfinished all
    let (logs, readable) :=
      textOf (Text.splitLines 10 13 (all.take (all.length - pending.length)))
    (⟨pending, readable⟩, logs)

def close (f : Forwarder) : List String :=
  if f.readable then (textOf (Text.splitLines 10 13 f.pending)).1 else []

end Forwarder

structure ShimEngine where
  handle : Handle
  unread : List UInt8
  takesInput : Bool
  ended : Option ExitStatus
  errors : Forwarder

namespace ShimEngine

def start (handle : Handle) : ShimEngine :=
  ⟨handle, [], true, none, .start⟩

def absorb (e : ShimEngine) (frame : Frame) : ShimEngine × List String :=
  let (errors, logs) := e.errors.feed frame.stderr.toList
  ({ e with
      unread := e.unread ++ frame.stdout.toList
      takesInput := e.takesInput && !frame.closesInput
      ended := e.ended.or frame.exit?
      errors }, logs)

/-- The first line of some bytes, with its end, and the bytes after it. -/
def firstLine (bytes : List UInt8) : List UInt8 × List UInt8 :=
  let line := bytes.takeWhile (· != 10)
  match bytes.drop line.length with
  | [] => (line, [])
  | feed :: rest => (line ++ [feed], rest)

def statusText : Option ExitStatus → String
  | none => "None"
  | some status => "Some(ExitStatus(unix_wait_status(" ++ toString status.number ++ ")))"

def exited (status : Option ExitStatus) : Trouble :=
  .plain ("Engine shim exited unexpectedly (status: " ++ statusText status ++ ")")

def readReply (e : ShimEngine) : Except Trouble Shim.Reply × ShimEngine :=
  let (line, unread) := firstLine e.unread
  let e := { e with unread }
  if line.isEmpty then
    (.error (exited e.ended), e)
  else
    match Utf8.decode line with
    | .ok text => (Shim.Reply.decode (String.ofList text), e)
    | .error _ =>
        (.error ((Trouble.plain FileError.notUtf8.message).within
          "Failed to read from engine shim"), e)

def protocolText : Option String → String
  | none => "None"
  | some version => "Some(" ++ version.inQuotes ++ ")"

/-- Reads the first line of a shim, which has to name the version of the language. -/
def greet (e : ShimEngine) : Except Trouble Unit × ShimEngine :=
  match e.readReply with
  | (.error t, e) => (.error (t.within "Engine shim did not start"), e)
  | (.ok hello, e) =>
      if hello.protocol = some Shim.protocol then (.ok (), e)
      else
        (.error (.plain ("Engine shim protocol mismatch: expected " ++ Shim.protocol ++ ", got " ++
          protocolText hello.protocol)), e)

def closedInput : Trouble :=
  (Trouble.plain FileError.brokenPipe.message).within "Failed to write to engine shim"

/-- Sends a request and reads the reply; the text passed on comes last. -/
def exchange {π : Type} (programs : Programs π) (request : Shim.Request) (e : ShimEngine) (p : π) :
    Except Trouble Shim.Reply × ShimEngine × π × List String :=
  if !e.takesInput then (.error closedInput, e, p, [])
  else
    let (frame, p) := programs.feed e.handle request.encode p
    let (e, logs) := e.absorb frame
    let (reply, e) := e.readReply
    (reply, e, p, logs)

def importOutcome : Except Trouble Shim.Reply → Outcome Unit
  | .error t => .failed (.importing t.line)
  | .ok reply => if reply.ok then .ok () else .failed (.importing reply.failure)

def runOutcome : Except Trouble Shim.Reply → Outcome EngineOutput
  | .error t => .failed (.invocation t.line)
  | .ok reply =>
      if reply.ok then
        .ok ⟨reply.stdout.getD "", reply.stderr.getD "", reply.status.getD 0⟩
      else .failed (.invocation reply.failure)

end ShimEngine

end CheckWorker
