import CheckWorker.Environment
import CheckWorker.Identity

/-!
# The command line

A worker is told by its arguments where things are and how much to say. A setting takes its value
after an equals sign or as the next argument. What an argument gave is settled only when another
known one follows or the arguments end, so an argument that is not known at all is told before a
value that is missing. Two settings may also be given by a variable, which counts for nothing when
the argument is there.
-/

namespace CheckWorker

namespace CommandLine

inductive Setting
  | home
  | standardVersion
  | python
  | uv
  | versionTable
  | stagingRoot
  deriving DecidableEq

def Setting.isPath : Setting → Bool
  | .standardVersion | .python => false
  | .home | .uv | .versionTable | .stagingRoot => true

inductive Switch
  | verbose
  | quiet
  | help
  | version
  deriving DecidableEq

inductive Topic
  | setting (s : Setting)
  | switch (s : Switch)
  deriving DecidableEq

def Topic.named? : String → Option Topic
  | "home" => some (.setting .home)
  | "default-engine-version" => some (.setting .standardVersion)
  | "python" => some (.setting .python)
  | "uv" => some (.setting .uv)
  | "version-table" => some (.setting .versionTable)
  | "staging-root" => some (.setting .stagingRoot)
  | "verbose" => some (.switch .verbose)
  | "quiet" => some (.switch .quiet)
  | "help" => some (.switch .help)
  | "version" => some (.switch .version)
  | _ => none

def Switch.ofLetter? : Char → Option Switch
  | 'v' => some .verbose
  | 'q' => some .quiet
  | 'h' => some .help
  | 'V' => some .version
  | _ => none

/-- Why the arguments are not read to their end. -/
inductive Stop
  | invalidValue
  | unknownArgument
  | argumentConflict
  | tooManyValues
  | helpAsked
  | versionAsked
  deriving DecidableEq

def Stop.message : Stop → String
  | .invalidValue => "error: a value is missing or empty"
  | .unknownArgument => "error: unexpected argument"
  | .argumentConflict => "error: arguments that do not go together"
  | .tooManyValues => "error: a value where none is taken"
  | .helpAsked =>
      "Usage: " ++ Identity.name ++ " [--home DIR] [--uv FILE] [--version-table FILE]\n" ++
      "           [--staging-root DIR] [--default-engine-version VERSION]\n" ++
      "           [--python VERSION] [-v | -q] [-h] [-V]"
  | .versionAsked => Identity.name ++ " " ++ Identity.version

inductive Token
  | endOfOptions
  | long (name : String) (value : Option String)
  | letters (cs : List Char)
  | plain (text : String)
  deriving DecidableEq

def Token.ofText (text : String) : Token :=
  match text.toList with
  | ['-', '-'] => .endOfOptions
  | '-' :: '-' :: rest =>
      let name := String.ofList (rest.takeWhile (· ≠ '='))
      match rest.dropWhile (· ≠ '=') with
      | [] => .long name none
      | _ :: value => .long name (some (String.ofList value))
  | '-' :: c :: rest => .letters (c :: rest)
  | _ => .plain text

example : Token.ofText "--home=a=b" = .long "home" (some "a=b") := by decide
example : Token.ofText "-" = .plain "-" := by decide

end CommandLine

open CommandLine

structure Arguments where
  values : List (Setting × String)
  switches : List Switch
  deriving DecidableEq

namespace Arguments

def empty : Arguments :=
  ⟨[], []⟩

def value? (a : Arguments) (s : Setting) : Option String :=
  a.values.lookup s

def isOn (a : Arguments) (s : Switch) : Bool :=
  a.switches.contains s

def give (a : Arguments) (s : Setting) (value : String) : Except Stop Arguments :=
  if (a.value? s).isSome then .error .argumentConflict
  else if s.isPath && value = "" then .error .invalidValue
  else .ok { a with values := (s, value) :: a.values }

def turnOn (a : Arguments) (s : Switch) : Except Stop Arguments :=
  match s with
  | .help => .error .helpAsked
  | .version => .error .versionAsked
  | s =>
      if a.isOn s then .error .argumentConflict
      else .ok { a with switches := s :: a.switches }

/-- Gives a setting that has no value the value of a variable, if that is set. -/
def giveAbsent (a : Arguments) (s : Setting) (value : Option String) : Except Stop Arguments :=
  match a.value? s, value with
  | none, some value => a.give s value
  | _, _ => .ok a

end Arguments

namespace CommandLine

/-- What has been read: what is settled, and a setting that is not, with its value if there was one.
-/
structure Reading where
  settled : Arguments
  pending : Option (Setting × Option String)

namespace Reading

def start : Reading :=
  ⟨.empty, none⟩

def settle (r : Reading) : Except Stop Arguments :=
  match r.pending with
  | none => .ok r.settled
  | some (_, none) => .error .invalidValue
  | some (s, some value) => r.settled.give s value

def takeLetters (r : Reading) : List Char → Except Stop Reading
  | [] => .ok r
  | c :: cs =>
      match Switch.ofLetter? c with
      | none => .error .unknownArgument
      | some s => do takeLetters ⟨← (← r.settle).turnOn s, none⟩ cs

def takeLong (r : Reading) (topic : Topic) (value : Option String) : Except Stop Reading := do
  match topic, value with
  | .switch _, some _ => throw .tooManyValues
  | .switch s, none => return ⟨← (← r.settle).turnOn s, none⟩
  | .setting s, some value => return ⟨← (← r.settle).give s value, none⟩
  | .setting s, none => return ⟨← r.settle, some (s, none)⟩

/-- Takes an argument; one that is plain can only be the value of the setting before it. -/
def take (r : Reading) : Token → Except Stop Reading
  | .endOfOptions => .ok r
  | .letters cs => r.takeLetters cs
  | .long name value =>
      match Topic.named? name with
      | none => .error .unknownArgument
      | some topic => r.takeLong topic value
  | .plain text =>
      match r.pending with
      | some (s, none) => .ok ⟨r.settled, some (s, some text)⟩
      | _ => .error .unknownArgument

/-- Takes all arguments. Nothing may follow the end of the options. -/
def takeAll (r : Reading) : List String → Except Stop Arguments
  | [] => r.settle
  | text :: rest =>
      match Token.ofText text with
      | .endOfOptions => if rest.isEmpty then r.settle else .error .unknownArgument
      | token => do (← r.take token).takeAll rest

end Reading

end CommandLine

namespace Arguments

def read (env : Environment) (texts : List String) : Except Stop Arguments := do
  let a ← Reading.start.takeAll texts
  let a ← a.giveAbsent .home env.workerHome
  let a ← a.giveAbsent .uv env.uv
  if a.isOn .verbose && a.isOn .quiet then throw .argumentConflict
  return a

end Arguments

end CheckWorker
