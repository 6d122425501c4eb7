import CheckWorker.Engine.Host
import CheckWorker.Text.Blank

/-!
# Programs

The programs that a worker runs are given by what they do to the files and to a state of their own.
Some run to their end; others go on beside the worker, which feeds them text and takes what they
write. What a program writes between two feedings is a frame.
-/

namespace CheckWorker

/-- How a program ended: by itself, with a code, or by a signal, which may have its memory dumped. -/
inductive ExitStatus
  | exited (code : UInt8)
  | killed (signal : UInt8) (dumped : Bool)
  deriving DecidableEq

namespace ExitStatus

/-- What the signals are called, from the first on. -/
def signalNames : List String :=
  ["HUP", "INT", "QUIT", "ILL", "TRAP", "ABRT", "BUS", "FPE", "KILL", "USR1", "SEGV", "USR2", "PIPE",
    "ALRM", "TERM", "STKFLT", "CHLD", "CONT", "STOP", "TSTP", "TTIN", "TTOU", "URG", "XCPU", "XFSZ",
    "VTALRM", "PROF", "WINCH", "IO", "PWR", "SYS"]

def signalText : Nat → String
  | 0 => "0"
  | n + 1 => toString (n + 1) ++
      ((signalNames[n]?).map fun name => " (SIG" ++ name ++ ")").getD ""

def message : ExitStatus → String
  | .exited code => "exit status: " ++ toString code.toNat
  | .killed signal dumped =>
      "signal: " ++ signalText signal.toNat ++ if dumped then " (core dumped)" else ""

/-- The number by which the operating system tells of the end of a program. -/
def number : ExitStatus → Nat
  | .exited code => 256 * code.toNat
  | .killed signal dumped => signal.toNat + if dumped then 128 else 0

end ExitStatus

/-- How a program that ran to its end ended. -/
structure Finished where
  stdout : ByteArray
  stderr : ByteArray
  exit : ExitStatus

namespace Finished

def isSuccess (f : Finished) : Bool :=
  f.exit == .exited 0

def statusText (f : Finished) : String :=
  f.exit.message

/-- What the program wrote about its troubles, without the blanks around it. -/
def complaint (f : Finished) : String :=
  f.stderr.decodeLossy.withoutBlankEnds

end Finished

/-- What a program that goes on writes at one time. It may close its input before it writes, and it
may come to its end after it has written. -/
structure Frame where
  stdout : ByteArray
  stderr : ByteArray
  shutsInput : Bool := false
  exit? : Option ExitStatus := none

namespace Frame

def silent : Frame :=
  { stdout := ByteArray.empty, stderr := ByteArray.empty }

/-- A program that has come to its end takes no more input. -/
def closesInput (frame : Frame) : Bool :=
  frame.shutsInput || frame.exit?.isSome

end Frame

structure Programs (π : Type) where
  complete : FilePath → List String → π → FileTree → Except FileError Finished × π × FileTree
  start : Handle → FilePath → List String → π → FileTree → Except FileError Frame × π × FileTree
  feed : Handle → String → π → Frame × π
  stop : Handle → π → π

namespace FileTree

def startable (files : FileTree) (p : FilePath) : Except FileError Unit := do
  match ← files.find p with
  | (_, .program) => return ()
  | _ => throw .denied

end FileTree

def checkCommand (program : FilePath) (args : List String) : Except FileError Unit :=
  if (program.text :: args).any (·.contains '\x00') then .error .argumentHoldsNul else .ok ()

namespace Programs

variable {π : Type} (programs : Programs π)

def tryComplete (program : FilePath) (args : List String) (p : π) (files : FileTree) :
    Except FileError Finished × π × FileTree :=
  match checkCommand program args with
  | .error e => (.error e, p, files)
  | .ok () => programs.complete program args p files

def tryStart (handle : Handle) (program : FilePath) (args : List String) (p : π)
    (files : FileTree) : Except FileError Frame × π × FileTree :=
  match checkCommand program args with
  | .error e => (.error e, p, files)
  | .ok () => programs.start handle program args p files

end Programs

end CheckWorker
