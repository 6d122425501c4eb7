import CheckWorker.Engine.Error
import CheckWorker.Log.Filter
import CheckWorker.Log.Line
import CheckWorker.Log.RotatingLog

/-!
# Loggers

A logger writes to a rotating log and to the console, each through a filter of its own. A line that
cannot be written is lost, and nothing else happens.
-/

namespace CheckWorker

structure LogSettings where
  appName : String
  directory : FilePath
  verbose : Bool
  quiet : Bool
  deriving DecidableEq

structure Logger where
  directory : FilePath
  log : RotatingLog
  fileFilter : Filter
  consoleFilter : Filter
  console : Array String

namespace Logger

def maxFiles : Nat :=
  5

def maxSize : Nat :=
  10 * 1024 * 1024

def consoleFilterOf (s : LogSettings) (fileFilter : Filter) : Filter :=
  if s.quiet && !s.verbose then .warnings else fileFilter

def openLog (s : LogSettings) (files : FileTree) : Except Trouble RotatingLog × FileTree :=
  match files.makeDirectories s.directory with
  | (files, .error e) =>
      (.error ((Trouble.plain e.message).within
        ("Failed to create log directory: " ++ s.directory.text)), files)
  | (files, .ok ()) =>
      let name := RotatingLog.cleanName s.appName
      match RotatingLog.start (FileTree.disk s.directory) name maxFiles maxSize files with
      | (.ok log, files) => (.ok log, files)
      | (.error e, files) =>
          let trouble := (Trouble.plain e.message).within
            ("Failed to open log file for " ++ s.appName)
          (.error (trouble.within "Failed to initialize rotating log writer"), files)

def alreadyThere : Trouble :=
  (Trouble.plain "a global default trace dispatcher has already been set").within
    "A global tracing subscriber is already installed"

/-- Starts a logger. There can be only one; a second one is given up when its log is open. -/
def start (s : LogSettings) (logFilter : Option String) (present : Option Logger)
    (files : FileTree) : Except Trouble Logger × FileTree :=
  match openLog s files with
  | (.error t, files) => (.error t, files)
  | (.ok log, files) =>
      match present with
      | some _ => (.error alreadyThere, files)
      | none =>
          let fileFilter := Filter.ofVariable logFilter
          (.ok ⟨s.directory, log, fileFilter, consoleFilterOf s fileFilter, #[]⟩, files)

def writeFile (l : Logger) (line : String) (files : FileTree) : Logger × FileTree :=
  let (_, log, files) := l.log.write (FileTree.disk l.directory) line.toUTF8 files
  ({ l with log }, files)

def record (l : Logger) (time : String) (level : Level) (target message : String)
    (files : FileTree) : Logger × FileTree :=
  let line := LogLine.text time level target message
  let (l, files) :=
    if l.fileFilter.passes level target then l.writeFile line files else (l, files)
  if l.consoleFilter.passes level target then
    ({ l with console := l.console.push line }, files)
  else (l, files)

end Logger

end CheckWorker
