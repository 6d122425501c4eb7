import CheckWorker.CommandLine
import CheckWorker.Engine.Spec
import CheckWorker.Text.Blank
import CheckWorker.Uv.Host
import CheckWorker.VersionTable

/-!
# Configurations

A configuration is what the arguments come to. Everything that a worker keeps lies in its home,
which is created last, when nothing else can be wrong.
-/

namespace CheckWorker

structure Configuration where
  home : FilePath
  runtimeDir : FilePath
  stagingRoot : FilePath
  logDir : FilePath
  standardVersion : String
  python : Option String
  uv : Option FilePath
  table : VersionTable
  engine : EngineSpec
  deriving DecidableEq

namespace Configuration

def homeOf (env : Environment) (a : Arguments) : FilePath :=
  match a.value? .home with
  | some home => ⟨home⟩
  | none => env.standardHome

def tableOf (a : Arguments) (files : FileTree) : Except Trouble VersionTable :=
  match a.value? .versionTable with
  | some path => VersionTable.load files ⟨path⟩
  | none => .ok .standard

def standardVersionOf (a : Arguments) : String :=
  (a.value? .standardVersion).getD EngineSpec.standardVersion

def ofParts (a : Arguments) (home : FilePath) (table : VersionTable) : Configuration where
  home := home
  runtimeDir := home.join "runtime"
  stagingRoot := ((a.value? .stagingRoot).map FilePath.mk).getD (home.join "app")
  logDir := home.join "logs"
  standardVersion := standardVersionOf a
  python := a.value? .python
  uv := (a.value? .uv).map FilePath.mk
  table := table
  engine := .standard

def blankVersion : Trouble :=
  .plain "--default-engine-version must not be empty"

def resolve (env : Environment) (a : Arguments) (files : FileTree) :
    Except Trouble Configuration × FileTree :=
  let home := homeOf env a
  match tableOf a files with
  | .error t => (.error t, files)
  | .ok table =>
      if (standardVersionOf a).isBlank then (.error blankVersion, files)
      else
        match files.makeDirectories home with
        | (files, .ok ()) => (.ok (ofParts a home table), files)
        | (files, .error e) =>
            (.error ((Trouble.plain e.message).within
              ("Failed to create worker home: " ++ home.text)), files)

def uvSettings (c : Configuration) : UvSettings where
  home := c.home
  runtimeDir := c.runtimeDir
  uv := c.uv
  python := c.python

theorem standardVersion_of_resolve {env : Environment} {a : Arguments} {files files' : FileTree}
    {c : Configuration} (h : resolve env a files = (.ok c, files')) :
    c.standardVersion.isBlank = false := by
  unfold resolve at h
  split at h
  · simp at h
  · dsimp only at h
    split at h
    · simp at h
    · next hb =>
        split at h
        · simp only [Prod.mk.injEq, Except.ok.injEq] at h
          rw [← h.1]
          simpa [ofParts] using hb
        · simp at h

end Configuration

end CheckWorker
