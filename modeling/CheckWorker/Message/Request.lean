import CheckWorker.Json.Tagged

/-!
# Requests

A caller asks for one of three things: to install an engine, to import it ahead of the first check,
or to check a text. On the wire a request is an envelope with a type and a payload. The envelope is
read first, strictly: a key twice is a fault. Its payload is read as a value of its own, in which
the last of repeated keys counts, and only then against the shape that the type asks for.
-/

namespace CheckWorker

open Json

/-- A check of a text that is given with the request. -/
structure Check where
  filename : String
  code : String
  flags : List String
  cacheDir : Option String
  deriving DecidableEq

inductive Request
  | init (version : Option String)
  | warmup
  | check (check : Check)
  deriving DecidableEq

namespace Request

inductive Kind
  | init
  | warmup
  | check
  deriving DecidableEq

def Kind.word : Kind → String
  | .init => "init"
  | .warmup => "warmup"
  | .check => "check"

def kind : Request → Kind
  | .init _ => .init
  | .warmup => .warmup
  | .check _ => .check

def initShape : Shape :=
  .record "InitPayload" (.optional "engineVersion" ["mypyVersion"] (.maybe .text) .nil)

def checkShape : Shape :=
  .record "CheckRequest"
    (.required "filename" [] .text
      (.required "code" [] .text
        (.optional "engineFlags" ["mypyFlags"] (.many .text)
          (.optional "cacheDir" [] (.maybe .text) .nil))))

def initOfData (d : initShape.Data) : Option String :=
  d.1.join

def initToData (version : Option String) : initShape.Data :=
  (version.map some, ())

def checkOfData (d : checkShape.Data) : Check :=
  let (filename, code, flags, cacheDir, ()) := d
  { filename, code, flags := flags.getD [], cacheDir := cacheDir.join }

def checkToData (c : Check) : checkShape.Data :=
  (c.filename, c.code, some c.flags, c.cacheDir.map some, ())

theorem initOfData_initToData (version : Option String) :
    initOfData (initToData version) = version := by
  cases version <;> rfl

theorem checkOfData_checkToData (c : Check) : checkOfData (checkToData c) = c := by
  obtain ⟨filename, code, flags, cacheDir⟩ := c
  cases cacheDir <;> rfl

def tagging : Tagging Kind where
  name := "Request"
  tagKey := "type"
  contentKey := "payload"
  kinds := [.init, .warmup, .check]
  word := Kind.word
  title
    | .init => "Init"
    | .warmup => "Warmup"
    | .check => "Check"
  content
    | .init => some initShape
    | .warmup => none
    | .check => some checkShape

def toData : Request → tagging.Data
  | .init version => ⟨.init, initToData version⟩
  | .warmup => ⟨.warmup, ()⟩
  | .check c => ⟨.check, checkToData c⟩

def encode (r : Request) : String :=
  tagging.toText r.toData

/-! ## Decoding -/

inductive Fault
  | missingType
  | unknownType (word : String)
  | badPayload (kind : Kind) (cause : Cause)
  | unreadable (cause : Cause) (place : Place)
  deriving DecidableEq

def Fault.message : Fault → String
  | .missingType => "Message is missing the 'type' field"
  | .unknownType word => "Unknown message type: '" ++ word ++ "'"
  | .badPayload kind cause => "Invalid payload for '" ++ kind.word ++ "': " ++ cause.message
  | .unreadable cause place =>
      "JSON serialization error: " ++ cause.message ++ " at line " ++ toString place.line ++
        " column " ++ toString place.column

def envelopeShape : Shape :=
  .record "Envelope"
    (.required "type" [] (.maybe .text) (.optional "payload" [] .anything .nil))

def ofParts (word : String) (payload : Value) : Except Fault Request :=
  if word = "init" then
    match payload with
    | .null => .ok (.init none)
    | payload =>
        match initShape.ofValue .settled payload with
        | .ok d => .ok (.init (initOfData d))
        | .error cause => .error (.badPayload .init cause)
  else if word = "warmup" then .ok .warmup
  else if word = "check" then
    match checkShape.ofValue .settled payload with
    | .ok d => .ok (.check (checkOfData d))
    | .error cause => .error (.badPayload .check cause)
  else .error (.unknownType word)

def decode (line : String) : Except Fault Request :=
  match envelopeShape.ofText line with
  | .error f => .error (.unreadable f.cause (f.place line.toList))
  | .ok (none, _) => .error .missingType
  | .ok (some word, payload, ()) => ofParts word (payload.getD .null).settle

end Request

end CheckWorker
