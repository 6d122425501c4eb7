import CheckWorker.Engine.Error
import CheckWorker.Json.Printer
import CheckWorker.Json.Shape.Text
import CheckWorker.Text.Blank

/-!
# The language of the shim

The worker and the shim write one JSON object a line to each other. The worker asks to import the
engine or to run it on some arguments; the shim answers each request with one reply, after a first
line of its own that says which version of the language it speaks.
-/

namespace CheckWorker.Shim

open Json

def protocol : String :=
  "1"

inductive Request
  | importEntry
  | run (args : List String)
  deriving DecidableEq

namespace Request

def shape : Shape :=
  .record "ShimRequest" (.required "op" [] .text (.optional "args" [] (.many .text) .nil))

def toData : Request → shape.Data
  | .importEntry => ("import", none, ())
  | .run args => ("run", some args, ())

def encode (r : Request) : String :=
  shape.toText r.toData ++ "\n"

def named? (op : String) (args : Option (List String)) : Option Request :=
  match op with
  | "import" => some .importEntry
  | "run" => some (.run (args.getD []))
  | _ => none

def decode? (line : String) : Option Request :=
  match shape.ofText line with
  | .ok (op, args, ()) => named? op args
  | .error _ => none

end Request

structure Reply where
  ok : Bool
  error : Option String
  protocol : Option String
  stdout : Option String
  stderr : Option String
  status : Option Int32
  deriving DecidableEq

namespace Reply

def shape : Shape :=
  .record "ShimReply"
    (.required "ok" [] .flag
      (.optional "error" [] (.maybe .text)
        (.optional "protocol" [] (.maybe .text)
          (.optional "stdout" [] (.maybe .text)
            (.optional "stderr" [] (.maybe .text)
              (.optional "status" [] (.maybe (.whole .i32)) .nil))))))

def ofData (d : shape.Data) : Reply :=
  let (ok, error, protocol, stdout, stderr, status, ()) := d
  { ok, error := error.join, protocol := protocol.join, stdout := stdout.join
    stderr := stderr.join, status := status.join }

def decode (line : String) : Except Trouble Reply :=
  let line := line.withoutBlankEnd
  match shape.ofText line with
  | .ok d => .ok (ofData d)
  | .error f =>
      .error ((Trouble.plain (f.message line.toList)).within
        ("Invalid engine shim reply: " ++ line))

def failure (r : Reply) : String :=
  r.error.getD "engine shim reported failure without a message"

end Reply

end CheckWorker.Shim
