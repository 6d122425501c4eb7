import CheckWorker.Programs
import CheckWorker.Rehearsal.NamedVersion
import CheckWorker.Shim.Protocol

/-!
# Toolboxes

A toolbox plays uv, the interpreter and the shim without installing or checking anything. Each kind
of call has a queue of turns, and so has each shim; where a turn says nothing, and past the end of a
queue, there is a standing answer. The only file that a toolbox makes is the interpreter of a new
virtual environment.

A shim that has closed one of its streams does nothing more, but it stays until it is ended.
-/

namespace CheckWorker

namespace Toolbox

structure Turn where
  /-- What is printed; none means the standing answer. -/
  stdout : Option ByteArray := none
  stderr : ByteArray := ByteArray.empty
  exit : Nat := 0
  creates : Bool := true

structure Gesture where
  /-- What is written; none means the standing answer. -/
  stdout : Option ByteArray := none
  stderr : ByteArray := ByteArray.empty
  closesInput : Bool := false
  closesOutput : Bool := false

structure Part where
  hello : Gesture := {}
  replies : List Gesture := []

structure Actor where
  handle : Handle
  replies : List Gesture
  isDone : Bool

inductive Note
  | ran (program : String) (args : List String)
  | read (line : String)

end Toolbox

open Toolbox

structure Toolbox where
  uvVersion : List Turn
  venv : List Turn
  pipInstall : List Turn
  packageVersion : List Turn
  runtimeVersion : List Turn
  shims : List Part
  installed : String
  actor : Option Actor
  notes : Array Toolbox.Note

namespace Toolbox

def standing : Toolbox :=
  ⟨[], [], [], [], [], [], unnamedVersion, none, #[]⟩

def note (t : Toolbox) (n : Toolbox.Note) : Toolbox :=
  { t with notes := t.notes.push n }

def finished (turn : Turn) (standing : String) : Finished :=
  ⟨turn.stdout.getD standing.toUTF8, turn.stderr, .exited turn.exit.toUInt8⟩

/-- The files with an interpreter in a virtual environment, if one can be put there. -/
def withInterpreter (directory : String) (files : FileTree) : FileTree :=
  let bin := (FilePath.mk directory).join "bin"
  match files.makeDirectories bin with
  | (files, .error _) => files
  | (files, .ok ()) =>
      match files.target (bin.join "python") with
      | .ok place => files.put place .program
      | .error _ => files

/-- What a tool does that knows its arguments. A tool that does not has nothing to say. -/
def serve (program : String) (args : List String) (t : Toolbox) (files : FileTree) :
    Finished × Toolbox × FileTree :=
  match program, args with
  | "uv", ["--version"] =>
      let turn := t.uvVersion.headD {}
      (finished turn "uv 0.4.18 (7b55e9790 2024-10-01)\n",
        { t with uvVersion := t.uvVersion.tail }, files)
  | "uv", "venv" :: directory :: _ =>
      let turn := t.venv.headD {}
      (finished turn "", { t with venv := t.venv.tail },
        if turn.exit = 0 && turn.creates then withInterpreter directory files else files)
  | "uv", "pip" :: "install" :: "--python" :: _ :: packages =>
      let turn := t.pipInstall.headD {}
      (finished turn "",
        { t with pipInstall := t.pipInstall.tail, installed := namedVersion packages }, files)
  | "python", ["-c", _, _] =>
      let turn := t.packageVersion.headD {}
      (finished turn (t.installed ++ "\n"),
        { t with packageVersion := t.packageVersion.tail }, files)
  | "python", ["-c", _] =>
      let turn := t.runtimeVersion.headD {}
      (finished turn "3.12.1\n", { t with runtimeVersion := t.runtimeVersion.tail }, files)
  | _, _ => (⟨ByteArray.empty, ByteArray.empty, .exited 1⟩, t, files)

def complete (program : FilePath) (args : List String) (t : Toolbox) (files : FileTree) :
    Except FileError Finished × Toolbox × FileTree :=
  match files.startable program with
  | .error e => (.error e, t, files)
  | .ok () =>
      let name := program.steps.getLast?.getD ""
      let (result, t, files) := serve name args (t.note (.ran name args)) files
      (.ok result, t, files)

/-! ## Shims -/

/-- The place in a text that is left for the path of the file: its name in braces. -/
def blank : List UInt8 :=
  "\x7bfile\x7d".toUTF8.toList

def fillIn (path : List UInt8) (text : List UInt8) : List UInt8 :=
  match text with
  | [] => []
  | c :: rest =>
      if blank.isPrefixOf (c :: rest) then
        path ++ fillIn path (rest.drop (blank.length - 1))
      else c :: fillIn path rest
termination_by text.length
decreasing_by all_goals simp only [List.length_cons, List.length_drop]; omega

def Gesture.frame (g : Gesture) (path standing : String) : Frame :=
  { stdout := ⟨(fillIn path.toUTF8.toList (g.stdout.getD standing.toUTF8).toList).toArray⟩
    stderr := g.stderr
    shutsInput := g.closesInput }

def Gesture.closes (g : Gesture) : Bool :=
  g.closesInput || g.closesOutput

def standingHello : String :=
  "\x7b\"ok\": true, \"protocol\": \"1\"\x7d\n"

def standingReply : String :=
  "\x7b\"ok\": true, \"stdout\": \"\", \"stderr\": \"\", \"status\": 0\x7d\n"

def start (handle : Handle) (program : FilePath) (args : List String) (t : Toolbox)
    (files : FileTree) : Except FileError Frame × Toolbox × FileTree :=
  match files.startable program with
  | .error e => (.error e, t, files)
  | .ok () =>
      let part := t.shims.headD {}
      let actor := ⟨handle, part.replies, part.hello.closes⟩
      let t := { t with shims := t.shims.tail, actor := some actor }
      (.ok (part.hello.frame "" standingHello),
        t.note (.ran (program.steps.getLast?.getD "") args), files)

def fileOf (line : String) : String :=
  match Shim.Request.decode? line with
  | some (.run (file :: _)) => file
  | _ => ""

def feed (handle : Handle) (text : String) (t : Toolbox) : Frame × Toolbox :=
  match t.actor with
  | none => (.silent, t)
  | some actor =>
      if actor.handle ≠ handle ∨ actor.isDone then (.silent, t)
      else
        let line := text.withoutBlankEnd
        let reply := actor.replies.headD {}
        let actor := { actor with replies := actor.replies.tail, isDone := reply.closes }
        (reply.frame (fileOf line) standingReply,
          { t with actor := some actor }.note (.read line))

def stop (handle : Handle) (t : Toolbox) : Toolbox :=
  { t with actor := t.actor.filter (·.handle ≠ handle) }

def programs : Programs Toolbox where
  complete := complete
  start := start
  feed := feed
  stop := stop

end Toolbox

end CheckWorker
