import CheckWorker.VersionTable
import CheckWorker.World

/-!
# Installing an engine

The host is made ready, everything that the plan asks for is installed in one call, and the version
that is then found has to begin with the one that was asked for.
-/

namespace CheckWorker

structure Installed where
  package : String
  version : String
  deriving DecidableEq

def beginsWith (whole start : String) : Bool :=
  start.toList.isPrefixOf whole.toList

def installEngine {σ : Type} (host : Host σ) (table : VersionTable) (spec : EngineSpec)
    (requested : String) : Act σ Installed := do
  Act.ask host .ensureReady
  Act.ask host (.install (table.resolve spec.package requested).packages)
  let found ← Act.ask host (.installedVersion spec.package)
  if beginsWith found requested then return ⟨spec.package, found⟩
  else Act.fail (.versionMismatch spec.package requested found)

end CheckWorker
