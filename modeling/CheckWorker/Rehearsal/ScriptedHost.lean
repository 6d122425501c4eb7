import CheckWorker.Engine.Host
import CheckWorker.Rehearsal.NamedVersion
import CheckWorker.Text.Blank
import CheckWorker.Text.Lines

/-!
# Scripted hosts

A scripted host runs nothing. For every kind of call it has a queue of turns, each of which says how
the next call of that kind ends; a turn may leave that to the standing answer, and so does an empty
queue. Scripts serve to rehearse a session without packages and processes.

The standing answer to a version query is the version that the last successful installation named,
and the standing run reports every line of the file that is not blank as an error.
-/

namespace CheckWorker

abbrev Turns (α : Type) := List (Option (Outcome α))

structure ScriptedHost where
  ensureReady : Turns Unit
  install : Turns Unit
  installedVersion : Turns String
  hostVersion : Turns String
  runtimeVersion : Turns String
  launch : Turns Unit
  importEntry : Turns Unit
  run : Turns EngineOutput
  installed : Option String

namespace ScriptedHost

def standing : ScriptedHost :=
  ⟨[], [], [], [], [], [], [], [], none⟩

/-- The next turn of a queue, or the standing answer, and the turns after it. -/
def turn {α : Type} (turns : Turns α) (standing : Outcome α) : Outcome α × Turns α :=
  match turns with
  | [] => (standing, [])
  | none :: rest => (standing, rest)
  | some outcome :: rest => (outcome, rest)

def reportLine (path : String) (number : Nat) (line : String) : String :=
  path ++ ":" ++ toString number ++ ": error: " ++ line.withoutBlankEnds ++ "  [misc]\n"

def reportLines (path : String) (number : Nat) : List String → List String
  | [] => []
  | line :: rest =>
      if line.isBlank then reportLines path (number + 1) rest
      else reportLine path number line :: reportLines path (number + 1) rest

def standingRun (files : FileTree) (args : List String) : EngineOutput :=
  let path := args.head?.getD ""
  let text := match files.readText ⟨path⟩ with
    | .ok text => text
    | .error _ => ""
  match reportLines path 1 text.textLines with
  | [] => ⟨"Success: no issues found in 1 source file\n", "", 0⟩
  | report => ⟨String.join report, "", 1⟩

/-- An outcome of a run with the file's path put where its texts leave room for it. -/
def withFile (path : String) : Outcome EngineOutput → Outcome EngineOutput
  | .ok output =>
      .ok { output with
        stdout := output.stdout.replace "\x7bfile\x7d" path
        stderr := output.stderr.replace "\x7bfile\x7d" path }
  | outcome => outcome

def host : Host ScriptedHost where
  answer call s files :=
    match call with
    | .ensureReady =>
        let (outcome, rest) := turn s.ensureReady (.ok ())
        { outcome, state := { s with ensureReady := rest }, files }
    | .install packages =>
        let (outcome, rest) := turn s.install (.ok ())
        let installed := match outcome with
          | .ok () => some (namedVersion packages)
          | _ => s.installed
        { outcome, state := { s with install := rest, installed }, files }
    | .installedVersion _ =>
        let (outcome, rest) := turn s.installedVersion (.ok (s.installed.getD unnamedVersion))
        { outcome, state := { s with installedVersion := rest }, files }
    | .hostVersion =>
        let (outcome, rest) := turn s.hostVersion (.ok "0.4.18")
        { outcome, state := { s with hostVersion := rest }, files }
    | .runtimeVersion =>
        let (outcome, rest) := turn s.runtimeVersion (.ok "3.12.1")
        { outcome, state := { s with runtimeVersion := rest }, files }
    | .launch _ _ =>
        let (outcome, rest) := turn s.launch (.ok ())
        { outcome, state := { s with launch := rest }, files }
    | .importEntry _ =>
        let (outcome, rest) := turn s.importEntry (.ok ())
        { outcome, state := { s with importEntry := rest }, files }
    | .run _ args =>
        let next := s.run.head?.map (Option.map (withFile (args.head?.getD "")))
        let (outcome, _) := turn next.toList (.ok (standingRun files args))
        { outcome, state := { s with run := s.run.tail }, files }
  drop _ s := (s, [])

end ScriptedHost

end CheckWorker
