import Greybus.Storage.Disk

/-! Storage on a disk value. The conditions of a session say which names temporary
files may take and which steps fail for reasons that the disk does not show. -/
namespace Greybus.Storage

inductive Step where
  | read
  | create
  | rights
  | setRights
  | write
  | sync
  | install
  deriving DecidableEq, Repr

structure Conditions where
  names : List String
  failure : Step → Option Fault := fun _ => none

abbrev Session := ReaderT Conditions (StateM Disk)

namespace Session

def perform {α : Type} (step : Step) (action : Conditions → Disk → Except Fault (α × Disk)) :
    ExceptT Fault Session α :=
  fun conditions disk =>
    match conditions.failure step with
    | some fault => (.error fault, disk)
    | none =>
      match action conditions disk with
      | .ok (value, after) => (.ok value, after)
      | .error fault => (.error fault, disk)

def look {α : Type} (step : Step) (question : Disk → Except Fault α) : ExceptT Fault Session α :=
  perform step fun _ disk => (question disk).map fun answer => (answer, disk)

def change (step : Step) (action : Disk → Except Fault Disk) : ExceptT Fault Session Unit :=
  perform step fun _ disk => (action disk).map fun after => ((), after)

instance : Storage Session Place where
  read path := look .read fun disk => disk.read path
  createTemporary directory := perform .create fun conditions disk =>
    disk.createTemporary conditions.names directory
  rights path := look .rights fun disk => disk.rights path
  setRights temporary rights := change .setRights fun disk =>
    disk.changeFile temporary fun file => { file with rights }
  write temporary bytes := change .write fun disk =>
    disk.changeFile temporary fun file => { file with bytes }
  sync _ := change .sync .ok
  install temporary path := change .install fun disk => disk.install temporary path
  discard temporary := fun _ disk => ((), disk.remove temporary)

end Session
end Greybus.Storage
