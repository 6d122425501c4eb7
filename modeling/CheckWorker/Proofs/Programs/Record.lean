import CheckWorker.Programs
import CheckWorker.Text.Utf8

/-!
# Programs on record

Programs can be put on record: they do what they did before, and everything that is done with them
is written down. So it can be told which commands were run, what was written to a program that goes
on and what that wrote back. Nothing that uses programs can look at the record.
-/

namespace CheckWorker

/-- What was done with a program, and what came of it. -/
inductive Deed
  | ran (program : FilePath) (args : List String) (result : Except FileError Finished)
  | started (handle : Handle) (program : FilePath) (args : List String)
      (result : Except FileError Frame)
  | fed (handle : Handle) (text : String) (frame : Frame)
  | stopped (handle : Handle)

namespace Deed

/-- The bytes that are written to a program that goes on. -/
def bytesTo (handle : Handle) : Deed → List UInt8
  | .fed h text _ => if h = handle then Utf8.encode text.toList else []
  | _ => []

/-- What a program that goes on writes at one time: when it is started, or when it is fed. -/
def frameFrom? (handle : Handle) : Deed → Option Frame
  | .started h _ _ (.ok frame) => if h = handle then some frame else none
  | .fed h _ frame => if h = handle then some frame else none
  | _ => none

end Deed

/-- The state of programs, with all that was done with them. -/
structure Recorded (π : Type) where
  programs : π
  deeds : List Deed

namespace Recorded

variable {π : Type}

def start (p : π) : Recorded π :=
  ⟨p, []⟩

def add (r : Recorded π) (deed : Deed) (p : π) : Recorded π :=
  ⟨p, r.deeds ++ [deed]⟩

@[simp] theorem deeds_add (r : Recorded π) (deed : Deed) (p : π) :
    (r.add deed p).deeds = r.deeds ++ [deed] := rfl

end Recorded

namespace Programs

variable {π : Type}

/-- The same programs, on record. -/
def recording (programs : Programs π) : Programs (Recorded π) where
  complete program args r files :=
    let (result, p, files) := programs.complete program args r.programs files
    (result, r.add (.ran program args result) p, files)
  start handle program args r files :=
    let (result, p, files) := programs.start handle program args r.programs files
    (result, r.add (.started handle program args result) p, files)
  feed handle text r :=
    let (frame, p) := programs.feed handle text r.programs
    (frame, r.add (.fed handle text frame) p)
  stop handle r := r.add (.stopped handle) (programs.stop handle r.programs)

/-- What is written down of a command. One whose words hold a NUL is refused before it is run. -/
def deedsOf (program : FilePath) (args : List String) (result : Except FileError Finished) :
    List Deed :=
  match checkCommand program args with
  | .error _ => []
  | .ok () => [.ran program args result]

variable (programs : Programs π)

theorem deeds_tryComplete (program : FilePath) (args : List String) (r : Recorded π)
    (files : FileTree) :
    (programs.recording.tryComplete program args r files).2.1.deeds =
      r.deeds ++ deedsOf program args
        (programs.recording.tryComplete program args r files).1 := by
  cases hcheck : checkCommand program args with
  | error e => simp [tryComplete, deedsOf, hcheck]
  | ok _ => simp [tryComplete, deedsOf, hcheck, recording]

theorem deeds_tryStart {handle : Handle} {program : FilePath} {args : List String}
    {r : Recorded π} {files : FileTree} {frame : Frame}
    (h : (programs.recording.tryStart handle program args r files).1 = .ok frame) :
    (programs.recording.tryStart handle program args r files).2.1.deeds =
      r.deeds ++ [.started handle program args (.ok frame)] := by
  cases hcheck : checkCommand program args with
  | error e => simp [tryStart, hcheck] at h
  | ok _ =>
      rw [← h]
      simp [tryStart, hcheck, recording]

end Programs

end CheckWorker
