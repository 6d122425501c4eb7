import CheckWorker.Engine.Host

/-!
# Jobs

A job is what a host does to answer a call: it goes from one state of the host and the files to
another, passing text on as it goes. Jobs done one after the other pass on the text of each in turn,
up to the first that does not end well.
-/

namespace CheckWorker

def Job (σ α : Type) : Type :=
  σ → FileTree → Reply σ α

namespace Job

variable {σ α β : Type}

def done (a : α) : Job σ α := fun state files =>
  { outcome := .ok a, state, files }

def goOn (first : Reply σ α) (f : α → Job σ β) : Reply σ β :=
  match first.outcome with
  | .ok a =>
      let second := f a first.state first.files
      { second with
        logs := first.logs ++ second.logs
        millis := first.millis + second.millis }
  | .failed e => { first with outcome := .failed e }
  | .panicked p => { first with outcome := .panicked p }

instance : Monad (Job σ) where
  pure := done
  bind x f := fun state files => goOn (x state files) f

def close (outcome : Outcome α) : Job σ α := fun state files =>
  { outcome, state, files }

def fail (e : EngineError) : Job σ α :=
  close (.failed e)

def passOn (logs : List String) : Job σ Unit := fun state files =>
  { outcome := .ok (), state, files, logs }

def state : Job σ σ := fun state files =>
  { outcome := .ok state, state, files }

def files : Job σ FileTree := fun state files =>
  { outcome := .ok files, state, files }

def alter (f : σ → σ) : Job σ Unit := fun state files =>
  { outcome := .ok (), state := f state, files }

def withFiles (f : FileTree → α × FileTree) : Job σ α := fun state files =>
  let (a, files) := f files
  { outcome := .ok a, state, files }

def orFail {ε : Type} (error : ε → EngineError) : Except ε α → Job σ α
  | .ok a => done a
  | .error e => fail (error e)

end Job

end CheckWorker
