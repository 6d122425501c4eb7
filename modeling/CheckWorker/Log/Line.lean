import CheckWorker.Log.Level

/-!
# Lines of the log

A line of the log says when, how grave, who and what. Characters that would make a terminal do
something are written as escapes; line breaks are left as they are.
-/

namespace CheckWorker.LogLine

def hexText (n : Nat) : List Char :=
  Nat.toDigits 16 n

def isControl (c : Char) : Bool :=
  c == '\x1b' || c == '\x07' || c == '\x08' || c == '\x0c' || c == '\x7f' ||
    (0x80 ≤ c.toNat && c.toNat ≤ 0x9f)

def escape (c : Char) : List Char :=
  if c.toNat < 0x10 then '\\' :: 'x' :: '0' :: hexText c.toNat
  else if c.toNat < 0x80 then '\\' :: 'x' :: hexText c.toNat
  else '\\' :: 'u' :: '\x7b' :: (hexText c.toNat ++ ['\x7d'])

def shown (message : String) : String :=
  if message.any isControl then
    String.ofList (message.toList.flatMap fun c => if isControl c then escape c else [c])
  else message

def text (time : String) (level : Level) (target message : String) : String :=
  time ++ " " ++ level.column ++ " " ++ target ++ ": " ++ shown message ++ "\n"

end CheckWorker.LogLine
