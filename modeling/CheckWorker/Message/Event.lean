import CheckWorker.Json.Tagged
import CheckWorker.Report.Diagnostic
import CheckWorker.Text.Lines

/-!
# Events

The worker answers with events. A request ends with exactly one of three: the versions after an
installation, the result of a check, or an error; text from the tools it runs and word of progress
come in between.
-/

namespace CheckWorker

open Json

/-- The versions in use after an installation. -/
structure Versions where
  host : String
  hostRuntime : String
  engine : String
  deriving DecidableEq

/-- The outcome of a check. The text is all that the engine wrote, whether or not diagnostics were
found in it. -/
structure CheckResult where
  diagnostics : List Diagnostic
  rawText : String
  exitStatus : Int32
  durationMs : UInt64
  deriving DecidableEq

inductive Event
  | initDone (versions : Versions)
  | log (message : String)
  | checking
  | result (result : CheckResult)
  | error (message : String)
  deriving DecidableEq

namespace Event

def isTerminal : Event → Bool
  | .initDone _ => true
  | .log _ => false
  | .checking => false
  | .result _ => true
  | .error _ => true

inductive Kind
  | initDone
  | log
  | checking
  | result
  | error
  deriving DecidableEq

def Kind.word : Kind → String
  | .initDone => "init-done"
  | .log => "log"
  | .checking => "checking"
  | .result => "result"
  | .error => "error"

def kind : Event → Kind
  | .initDone _ => .initDone
  | .log _ => .log
  | .checking => .checking
  | .result _ => .result
  | .error _ => .error

/-! ## Shapes -/

def versionsShape : Shape :=
  .record "VersionReport"
    (.required "host" [] .text
      (.required "hostRuntime" [] .text (.required "engine" [] .text .nil)))

def initDoneShape : Shape :=
  .record "InitDonePayload" (.required "versions" [] versionsShape .nil)

def logShape : Shape :=
  .record "LogPayload" (.required "message" [] .text .nil)

def errorShape : Shape :=
  .record "ErrorPayload" (.required "message" [] .text .nil)

def severityShape : Shape :=
  .oneOf ["error", "note", "warning"]

def diagnosticShape : Shape :=
  .record "DiagnosticRecord"
    (.required "file" [] .text
      (.required "line" [] (.whole .u32)
        (.required "column" [] (.whole .u32)
          (.required "severity" [] severityShape
            (.required "message" [] .text (.required "code" [] .text .nil))))))

def resultShape : Shape :=
  .record "CheckResult"
    (.required "diagnostics" [] (.many diagnosticShape)
      (.required "rawText" [] .text
        (.required "exitStatus" [] (.whole .i32)
          (.required "durationMs" [] (.whole .u64) .nil))))

def severityOfData : severityShape.Data → Severity
  | (0 : Fin 3) => .error
  | (1 : Fin 3) => .note
  | (2 : Fin 3) => .warning

def severityToData : Severity → severityShape.Data
  | .error => (0 : Fin 3)
  | .note => (1 : Fin 3)
  | .warning => (2 : Fin 3)

def diagnosticOfData (d : diagnosticShape.Data) : Diagnostic :=
  let (file, line, column, severity, message, code, ()) := d
  { file, line, column, severity := severityOfData severity, message, code }

def diagnosticToData (d : Diagnostic) : diagnosticShape.Data :=
  (d.file, d.line, d.column, severityToData d.severity, d.message, d.code, ())

theorem diagnosticOfData_diagnosticToData (d : Diagnostic) :
    diagnosticOfData (diagnosticToData d) = d := by
  obtain ⟨file, line, column, severity, message, code⟩ := d
  cases severity <;> rfl

def tagging : Tagging Kind where
  name := "Event"
  tagKey := "type"
  contentKey := "payload"
  kinds := [.initDone, .log, .checking, .result, .error]
  word := Kind.word
  title
    | .initDone => "InitDone"
    | .log => "Log"
    | .checking => "Checking"
    | .result => "Result"
    | .error => "Error"
  content
    | .initDone => some initDoneShape
    | .log => some logShape
    | .checking => none
    | .result => some resultShape
    | .error => some errorShape

def ofData : tagging.Data → Event
  | ⟨.initDone, (host, hostRuntime, engine, ()), ()⟩ => .initDone { host, hostRuntime, engine }
  | ⟨.log, message, ()⟩ => .log message
  | ⟨.checking, ()⟩ => .checking
  | ⟨.result, diagnostics, rawText, exitStatus, durationMs, ()⟩ =>
      .result {
        diagnostics := List.map diagnosticOfData diagnostics
        rawText, exitStatus, durationMs }
  | ⟨.error, message, ()⟩ => .error message

def toData : Event → tagging.Data
  | .initDone v => ⟨.initDone, (v.host, v.hostRuntime, v.engine, ()), ()⟩
  | .log message => ⟨.log, message, ()⟩
  | .checking => ⟨.checking, ()⟩
  | .result r =>
      ⟨.result, List.map diagnosticToData r.diagnostics, r.rawText, r.exitStatus, r.durationMs, ()⟩
  | .error message => ⟨.error, message, ()⟩

theorem ofData_toData (e : Event) : ofData (toData e) = e := by
  cases e with
  | result r =>
      have h : List.map diagnosticOfData (List.map diagnosticToData r.diagnostics) =
          r.diagnostics := by
        simp [Function.comp_def, diagnosticOfData_diagnosticToData]
      simp only [toData, ofData, h]
  | initDone v => rfl
  | log message => rfl
  | checking => rfl
  | error message => rfl

def encode (e : Event) : String :=
  tagging.toText e.toData

def decode (line : String) : Except Failure Event :=
  (tagging.ofText line).map ofData

/-! ## Text of tools -/

/-- The log events for what a tool wrote: one for each line that is not blank. -/
def ofToolText (text : String) : List Event :=
  text.solidLines.map .log

end Event

end CheckWorker
