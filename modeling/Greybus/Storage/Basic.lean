import Greybus.Storage.Fault
import Greybus.Storage.Path

/-! What a conversion asks of the place where files are kept, and the replacement
of a file as a whole: the new contents go into a temporary file in the directory of
the target, which takes the place of the target only when it is complete. -/
namespace Greybus

structure Storage.Rights where
  mode : UInt32 := 0o644
  deriving DecidableEq, Repr

/-- Files in a monad `m`; `τ` is what stands for a temporary file. -/
class Storage (m : Type → Type) (τ : outParam Type) where
  read : String → ExceptT Storage.Fault m ByteArray
  createTemporary : String → ExceptT Storage.Fault m τ
  rights : String → ExceptT Storage.Fault m Storage.Rights
  setRights : τ → Storage.Rights → ExceptT Storage.Fault m Unit
  write : τ → ByteArray → ExceptT Storage.Fault m Unit
  sync : τ → ExceptT Storage.Fault m Unit
  install : τ → String → ExceptT Storage.Fault m Unit
  discard : τ → m Unit

namespace Storage
variable {m : Type → Type} {τ : Type} [Monad m] [Storage m τ]

def keepRights (temporary : τ) (path : String) : ExceptT Fault m Unit := do
  match ← ExceptT.lift (rights path : ExceptT Fault m Rights).run with
  | .ok existing => setRights temporary existing
  | .error _ => pure ()

def fill (temporary : τ) (path : String) (bytes : ByteArray) : ExceptT Fault m Unit := do
  keepRights temporary path
  write temporary bytes
  sync temporary
  install temporary path

def replace (path : String) (bytes : ByteArray) : ExceptT Fault m Unit := do
  let temporary ← createTemporary (Path.directory path)
  tryCatch (fill temporary path bytes) fun fault => do
    ExceptT.lift (discard temporary)
    throw fault

end Storage
end Greybus
