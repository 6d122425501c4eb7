import CheckWorker.Text.Printable

/-!
# Quoted text

A quoted text stands between double quotes. A double quote, a backslash and the four controls with
short names (NUL, tab, line feed, carriage return) are written with a backslash; every other
character that does not print on its own is written as its code point in hexadecimal.
-/

namespace CheckWorker.Text

def hex (n : Nat) : List Char :=
  Nat.toDigits 16 n

def quotedChar (c : Char) : List Char :=
  if c = '"' then ['\\', '"']
  else if c = '\\' then ['\\', '\\']
  else if c = '\x00' then ['\\', '0']
  else if c = '\t' then ['\\', 't']
  else if c = '\n' then ['\\', 'n']
  else if c = '\r' then ['\\', 'r']
  else if isHidden c then '\\' :: 'u' :: '\x7b' :: hex c.toNat ++ ['\x7d']
  else [c]

def quoted (text : List Char) : List Char :=
  '"' :: text.flatMap quotedChar ++ ['"']

example : quoted "a\"b".toList = "\"a\\\"b\"".toList := by decide
example : quoted "é\n".toList = "\"é\\n\"".toList := by decide +kernel

end CheckWorker.Text

namespace String

def inQuotes (s : String) : String :=
  ofList (CheckWorker.Text.quoted s.toList)

end String
