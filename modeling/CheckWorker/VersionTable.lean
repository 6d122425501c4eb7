import CheckWorker.Engine.Error
import CheckWorker.FileSystem.FileTree
import CheckWorker.Json.Printer
import CheckWorker.Json.Shape.Text

/-!
# The version table

The table pins versions of the engine to artifacts. A pinned version is installed from its artifact
together with pinned auxiliary packages; any other is left to the package index, under its exact
version, with whatever auxiliary packages the index offers. Versions are compared as texts, and of
several entries for one version the first counts.
-/

namespace CheckWorker

open Json

structure VersionEntry where
  version : String
  artifact : String
  deriving DecidableEq

structure VersionTable where
  entries : List VersionEntry
  pinnedAuxiliary : List String
  fallbackAuxiliary : List String
  deriving DecidableEq

/-- Where an installation takes the engine from. -/
inductive Source
  | pinned (artifact : String)
  | registry (directive : String)
  deriving DecidableEq

structure Plan where
  source : Source
  packages : List String
  deriving DecidableEq

namespace VersionTable

def standardPinned : List String :=
  ["typing-extensions==4.11.0", "mypy-extensions==1.0.0"]

def standardFallback : List String :=
  ["typing-extensions", "mypy-extensions"]

def standard : VersionTable :=
  ⟨[], standardPinned, standardFallback⟩

def find? (t : VersionTable) (version : String) : Option VersionEntry :=
  t.entries.find? fun e => e.version == version

/-- Entries with one more, in place of the first for its version if there is one. -/
def upsertEntry (e : VersionEntry) : List VersionEntry → List VersionEntry
  | [] => [e]
  | d :: entries => if d.version = e.version then e :: entries else d :: upsertEntry e entries

/-- The table with one more entry, in place of the first for its version if there is one. -/
def upsert (t : VersionTable) (e : VersionEntry) : VersionTable :=
  { t with entries := upsertEntry e t.entries }

def directive (package version : String) : String :=
  package ++ "==" ++ version

def resolve (t : VersionTable) (package version : String) : Plan :=
  match t.find? version with
  | some e => ⟨.pinned e.artifact, e.artifact :: t.pinnedAuxiliary⟩
  | none =>
      let directive := directive package version
      ⟨.registry directive, directive :: t.fallbackAuxiliary⟩

theorem find?_upsertEntry_same (e : VersionEntry) (entries : List VersionEntry) :
    (upsertEntry e entries).find? (fun d => d.version == e.version) = some e := by
  induction entries with
  | nil => simp [upsertEntry]
  | cons d entries ih =>
      by_cases h : d.version = e.version
      · simp [upsertEntry, h]
      · simp [upsertEntry, h, ih]

theorem find?_upsert_same (t : VersionTable) (e : VersionEntry) :
    (t.upsert e).find? e.version = some e :=
  find?_upsertEntry_same e t.entries

theorem find?_upsert_other (t : VersionTable) (e : VersionEntry) {version : String}
    (h : version ≠ e.version) : (t.upsert e).find? version = t.find? version := by
  have he : (e.version == version) = false := beq_eq_false_iff_ne.mpr h.symm
  show (upsertEntry e t.entries).find? _ = t.entries.find? _
  induction t.entries with
  | nil => simp [upsertEntry, he]
  | cons d entries ih =>
      by_cases hd : d.version = e.version
      · simp [upsertEntry, hd, he]
      · simp only [upsertEntry, hd, if_false, List.find?_cons, ih]

/-! ## Table files -/

def entryShape : Shape :=
  .record "VersionEntry" (.required "version" [] .text (.required "artifact" [] .text .nil))

def shape : Shape :=
  .record "VersionTable"
    (.optional "entries" [] (.many entryShape)
      (.optional "pinned_auxiliary" [] (.many .text)
        (.optional "fallback_auxiliary" [] (.many .text) .nil)))

def entryOfData (d : entryShape.Data) : VersionEntry :=
  let (version, artifact, ()) := d
  { version, artifact }

def entryToData (e : VersionEntry) : entryShape.Data :=
  (e.version, e.artifact, ())

def ofData (d : shape.Data) : VersionTable :=
  let (entries, pinned, fallback, ()) := d
  { entries := List.map entryOfData (entries.getD [])
    pinnedAuxiliary := pinned.getD standardPinned
    fallbackAuxiliary := fallback.getD standardFallback }

def toData (t : VersionTable) : shape.Data :=
  (some (List.map entryToData t.entries), some t.pinnedAuxiliary, some t.fallbackAuxiliary, ())

def encode (t : VersionTable) : String :=
  shape.toText t.toData

def decode (text : String) : Except Failure VersionTable :=
  (shape.ofText text).map ofData

def load (files : FileTree) (path : FilePath) : Except Trouble VersionTable :=
  match files.readText path with
  | .error e =>
      .error ((Trouble.plain e.message).within ("Failed to read version table: " ++ path.text))
  | .ok text =>
      match decode text with
      | .ok t => .ok t
      | .error f =>
          .error ((Trouble.plain (f.message text.toList)).within
            ("Failed to parse version table: " ++ path.text))

end VersionTable

end CheckWorker
