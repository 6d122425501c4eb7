/-!
# Why a file operation fails
-/

namespace CheckWorker

inductive FileError
  | notFound
  | notDirectory
  | isDirectory
  | exists
  | nameTooLong
  | notEmpty
  | denied
  | brokenPipe
  | holdsNul
  | argumentHoldsNul
  | notUtf8
  | emptyPath
  /-- Any other failure that the operating system reports, such as a full disk. -/
  | other (text : String) (number : Nat)
  deriving DecidableEq

def numbered (text : String) (number : Nat) : String :=
  text ++ " (os error " ++ toString number ++ ")"

def FileError.message : FileError → String
  | .notFound => numbered "No such file or directory" 2
  | .notDirectory => numbered "Not a directory" 20
  | .isDirectory => numbered "Is a directory" 21
  | .exists => numbered "File exists" 17
  | .nameTooLong => numbered "File name too long" 36
  | .notEmpty => numbered "Directory not empty" 39
  | .denied => numbered "Permission denied" 13
  | .brokenPipe => numbered "Broken pipe" 32
  | .holdsNul => "file name contained an unexpected NUL byte"
  | .argumentHoldsNul => "nul byte found in provided data"
  | .notUtf8 => "stream did not contain valid UTF-8"
  | .emptyPath => "cannot make an empty path absolute"
  | .other text number => numbered text number

end CheckWorker
