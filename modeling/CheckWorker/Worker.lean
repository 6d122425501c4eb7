import CheckWorker.Configuration
import CheckWorker.Identity
import CheckWorker.Log.Logger
import CheckWorker.Serving
import CheckWorker.Uv.Host

/-!
# The worker

A worker is a program: it is given arguments, variables and a stream of requests, and it makes its
home, opens its log and serves the stream to its end. It does nothing before its arguments are
understood, and it serves nothing before its log is open.
-/

namespace CheckWorker

namespace Worker

inductive Ending
  | stopped (s : CommandLine.Stop)
  | failed (t : Trouble)
  | finished
  deriving DecidableEq

def Ending.exit : Ending → UInt32
  | .stopped .helpAsked | .stopped .versionAsked => 0
  | .stopped _ => 2
  | .failed _ => 1
  | .finished => 0

structure Run (π : Type) where
  ending : Ending
  events : List Event
  programs : π
  files : FileTree
  console : List String

def logTarget : String :=
  "pycheck_worker"

def logSettings (a : Arguments) (c : Configuration) : LogSettings where
  appName := Identity.name
  directory := c.logDir
  verbose := a.isOn .verbose
  quiet := a.isOn .quiet

def openingWords (c : Configuration) : List String := [
    "Starting Pycheck worker",
    "  Home: " ++ c.home.text,
    "  Runtime: " ++ c.runtimeDir.text,
    "  Staging: " ++ c.stagingRoot.text,
    "  Default engine: " ++ c.engine.package ++ " " ++ c.standardVersion,
    "  Pinned versions: " ++ toString c.table.entries.length]

def closingWords : List String :=
  ["Worker stopped"]

def tell (now : String) (logger : Logger) (files : FileTree) (words : List String) :
    Logger × FileTree :=
  words.foldl (fun (logger, files) text => logger.record now .info logTarget text files)
    (logger, files)

def gateway (c : Configuration) (area : StagingArea) : Gateway :=
  ⟨⟨c.table, c.engine, area⟩, c.standardVersion⟩

variable {π : Type} (programs : Programs π) (env : Environment)

def serve (c : Configuration) (input : List UInt8) (now : String) (logger : Logger) (p : π)
    (files : FileTree) : Run π :=
  let (logger, files) := tell now logger files (openingWords c)
  match StagingArea.at? files c.stagingRoot with
  | .error e =>
      let trouble := (Trouble.plain e.message).within
        ("Invalid staging root: " ++ c.stagingRoot.text)
      ⟨.failed trouble, [], p, files, logger.console.toList⟩
  | .ok area =>
      let host := UvHost.host programs c.uvSettings env
      let world := World.start (UvHost.start c.uvSettings p) files .listened
      match (gateway c area).serve host input world with
      | (.error t, w) =>
          ⟨.failed t, w.channel.taken.toList, w.host.programs, w.files, logger.console.toList⟩
      | (.ok (), w) =>
          let (logger, files) := tell now logger w.files closingWords
          ⟨.finished, w.channel.taken.toList, w.host.programs, files, logger.console.toList⟩

def runConfigured (a : Arguments) (c : Configuration) (input : List UInt8) (now : String) (p : π)
    (files : FileTree) : Run π :=
  match Logger.start (logSettings a c) env.logFilter none files with
  | (.error t, files) => ⟨.failed t, [], p, files, []⟩
  | (.ok logger, files) => serve programs env c input now logger p files

def run (args : List String) (input : List UInt8) (now : String) (p : π) (files : FileTree) :
    Run π :=
  match Arguments.read env args with
  | .error stop => ⟨.stopped stop, [], p, files, []⟩
  | .ok a =>
      match Configuration.resolve env a files with
      | (.error t, files) => ⟨.failed t, [], p, files, []⟩
      | (.ok c, files) => runConfigured programs env a c input now p files

end Worker

end CheckWorker
