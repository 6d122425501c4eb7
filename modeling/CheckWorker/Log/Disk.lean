import CheckWorker.FileSystem.FileTree

/-!
# Disks

A disk is a directory of files, as far as a log needs one. An operation that fails changes nothing.
-/

namespace CheckWorker

/-- A directory with states `δ`, whose files go by their names. -/
structure Disk (δ : Type) where
  holds : String → δ → Bool
  remove : String → δ → Except FileError δ
  rename : String → String → δ → Except FileError δ
  clear : String → δ → Except FileError δ
  openEnd : String → δ → Except FileError (Nat × δ)
  append : String → ByteArray → δ → Except FileError δ

def FileTree.disk (directory : FilePath) : Disk FileTree where
  holds name files := files.isThere (directory.join name)
  remove name files := files.removeFile (directory.join name)
  rename source dest files := files.rename (directory.join source) (directory.join dest)
  clear name files := files.write (directory.join name) ByteArray.empty
  openEnd name files := files.openAppend (directory.join name)
  append name bytes files := files.append (directory.join name) bytes

end CheckWorker
