/-!
# Who the worker is

Its name is that of its program and its log, and its version keeps the files of different versions
apart.
-/

namespace CheckWorker.Identity

def name : String :=
  "pycheck-worker"

def version : String :=
  "0.1.0"

end CheckWorker.Identity
