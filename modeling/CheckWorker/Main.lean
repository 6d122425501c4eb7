import CheckWorker.Rehearsal.Scene
import CheckWorker.Rehearsal.Toolbox
import CheckWorker.Worker

/-!
# The rehearsing worker

This program takes the worker's arguments, variables and stream of requests and answers as the
worker would with a toolbox in place of uv and Python. Nothing is installed, and no file is written
but in a tree of its own.
-/

namespace CheckWorker.Main

def readEnvironment : IO Environment := do
  return {
    home := ← IO.getEnv "HOME"
    path := ← IO.getEnv "PATH"
    workerHome := ← IO.getEnv "PYCHECK_HOME"
    uv := ← IO.getEnv "PYCHECK_UV"
    logFilter := ← IO.getEnv "RUST_LOG"
    accountHome := none }

def readFile? (path : Option String) : IO (Option ByteArray) := do
  match path with
  | none => return none
  | some path =>
      try return some (← IO.FS.readBinFile path)
      catch _ => return none

partial def readAll (stream : IO.FS.Stream) (bytes : ByteArray) : IO ByteArray := do
  let more ← stream.read 65536
  if more.isEmpty then return bytes else readAll stream (bytes ++ more)

def now : String :=
  "1970-01-01T00:00:00.000000Z"

def rehearse (env : Environment) (args : List String) (a : Arguments) : IO UInt32 := do
  let table ← readFile? (a.value? .versionTable)
  let files := Scene.ofArguments ⟨(← IO.currentDir).toString⟩ a table
  let input ← readAll (← IO.getStdin) ByteArray.empty
  let run := Worker.run Toolbox.programs env args input.toList now .standing files
  (← IO.getStderr).putStr (String.join run.console)
  (← IO.getStdout).putStr (wireText run.events)
  match run.ending with
  | .failed t => (← IO.getStderr).putStr t.report
  | _ => pure ()
  return run.ending.exit

def refuse (stop : CommandLine.Stop) : IO UInt32 := do
  let ending := Worker.Ending.stopped stop
  if ending.exit = 0 then IO.println stop.message else IO.eprintln stop.message
  return ending.exit

end CheckWorker.Main

open CheckWorker in
def main (args : List String) : IO UInt32 := do
  let env ← Main.readEnvironment
  match Arguments.read env args with
  | .error stop => Main.refuse stop
  | .ok a => Main.rehearse env args a
