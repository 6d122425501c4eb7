import CheckWorker.Session

/-!
# The gateway

What comes in is handled one item after another, each to its end. A line that is no request, an
error and a panic each become one error event, and the next item is handled all the same.
-/

namespace CheckWorker

/-- What comes in: a line as it was sent, or a request that is known already. -/
inductive Inbound
  | line (text : String)
  | request (r : Request)
  deriving DecidableEq

structure Gateway where
  setup : Setup
  /-- The version that is installed when a request names none or a blank one. -/
  standardVersion : String

namespace Gateway

def importedText : String :=
  "engine imported"

def warmText : String :=
  "engine already warm"

variable {σ : Type} (host : Host σ) (g : Gateway)

def versionFor (version : Option String) : String :=
  (version.filter fun v => !v.isBlank).getD g.standardVersion

/-- Does what a request asks, and tells how it went unless it went wrong. -/
def dispatch : Request → Act σ Unit
  | .init version => do
      let versions ← Session.init host g.setup (g.versionFor version)
      Act.alter (World.emit · (.initDone versions))
  | .warmup => do
      let imported ← Session.warmUp host
      Act.alter (World.emit · (.log (if imported then importedText else warmText)))
  | .check check => do
      let result ← Session.runCheck host g.setup check (Act.alter (World.emit · .checking))
      Act.alter (World.emit · (.result result))

def panicText (kind : Request.Kind) (p : Panic) : String :=
  "internal error while handling '" ++ kind.word ++ "': " ++ p.message

def handle (r : Request) (w : World σ) : World σ :=
  match g.dispatch host r w with
  | (.ok (), w) => w
  | (.failed e, w) => w.emit (.error e.message)
  | (.panicked p, w) => w.emit (.error (panicText r.kind p))

def handleLine (line : String) (w : World σ) : World σ :=
  match Request.decode line with
  | .ok r => g.handle host r w
  | .error fault => w.emit (.error fault.message)

def handleInbound (item : Inbound) (w : World σ) : World σ :=
  match item with
  | .line text => g.handleLine host text w
  | .request r => g.handle host r w

def handleAll (items : List Inbound) (w : World σ) : World σ :=
  items.foldl (fun w item => g.handleInbound host item w) w

@[simp] theorem handleAll_nil (w : World σ) : g.handleAll host [] w = w := rfl

@[simp] theorem handleAll_cons (item : Inbound) (items : List Inbound) (w : World σ) :
    g.handleAll host (item :: items) w = g.handleAll host items (g.handleInbound host item w) := rfl

theorem handleAll_append (xs ys : List Inbound) (w : World σ) :
    g.handleAll host (xs ++ ys) w = g.handleAll host ys (g.handleAll host xs w) := by
  simp [handleAll]

/-- Handles all that was queued before the queue was closed, and gives up the engine. -/
def drain (items : List Inbound) (w : World σ) : World σ :=
  (g.handleAll host items w).release host

end Gateway

end CheckWorker
