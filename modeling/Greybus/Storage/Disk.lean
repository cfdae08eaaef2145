import Std.Data.ExtTreeMap
import Greybus.Storage.Basic

/-! A disk as a value: files and directories by their places, where a place is the
list of names that lead to it from the root. Every operation on it either has its
whole effect or fails and has none. -/
namespace Greybus.Storage

structure File where
  bytes : ByteArray
  rights : Rights := {}

instance : Coe File ByteArray := ⟨File.bytes⟩

inductive Entry where
  | directory
  | file (file : File)

def Entry.rights : Entry → Rights
  | .directory => ⟨0o755⟩
  | .file ⟨_, rights⟩ => rights

abbrev Place := List String

structure Disk where
  tree : Std.ExtTreeMap Place Entry := ∅
  here : Place := []

namespace Disk

def entry? (disk : Disk) : Place → Option Entry
  | [] => some .directory
  | place => disk.tree[place]?

/-- Follows pieces of a path from a place. A piece can only be followed from a
directory, an empty piece or a dot too. -/
def follow (disk : Disk) : Place → List String → Except Fault Place
  | place, [] => .ok place
  | place, piece :: rest =>
    match disk.entry? place with
    | none => .error .missing
    | some (.file _) => .error .notDirectory
    | some .directory =>
      if piece = "" || piece = "." then follow disk place rest
      else if piece = ".." then follow disk place.dropLast rest
      else follow disk (place ++ [piece]) rest

def start (disk : Disk) (path : String) : Place := if Path.isAbsolute path then [] else disk.here

def place (disk : Disk) (path : String) : Except Fault Place :=
  if path = "" then .error .missing else disk.follow (disk.start path) (Path.pieces path)

def read (disk : Disk) (path : String) : Except Fault ByteArray := do
  let place ← disk.place path
  match disk.entry? place with
  | none => .error .missing
  | some .directory => .error .isDirectory
  | some (.file file) => .ok file

def rights (disk : Disk) (path : String) : Except Fault Rights := do
  let place ← disk.place path
  match disk.entry? place with
  | none => .error .missing
  | some entry => .ok entry.rights

def putFile (disk : Disk) (place : Place) (file : File) : Disk :=
  { disk with tree := disk.tree.insert place (.file file) }

def put (disk : Disk) (place : Place) (bytes : ByteArray) : Disk := disk.putFile place { bytes }

def changeFile (disk : Disk) (place : Place) (change : File → File) : Except Fault Disk :=
  match disk.entry? place with
  | some (.file file) => .ok (disk.putFile place (change file))
  | _ => .error .missing

def remove (disk : Disk) (place : Place) : Disk := { disk with tree := disk.tree.erase place }

def createTemporary (disk : Disk) (names : List String) (directory : String) :
    Except Fault (Place × Disk) := do
  let place ← disk.place directory
  match disk.entry? place with
  | none => .error .missing
  | some (.file _) => .error .notDirectory
  | some .directory =>
    match names.find? fun name => (disk.entry? (place ++ [name])).isNone with
    | none => .error .taken
    | some name => .ok (place ++ [name], disk.putFile (place ++ [name]) ⟨.empty, ⟨0o600⟩⟩)

/-- The place that a rename would fill. The last piece of the path has to be a name
that no directory has, and no slash may follow it. -/
def target (disk : Disk) (path : String) : Except Fault Place := do
  let pieces := Path.pieces path
  let named := (pieces.reverse.dropWhile fun piece => piece = "").reverse
  if path = "" then .error .missing
  else
    match named.getLast? with
    | none => .error .busy
    | some name =>
      let directory ← disk.follow (disk.start path) (named.dropLast ++ [""])
      if name = "." || name = ".." then .error .busy
      else if pieces ≠ named then .error .notDirectory
      else
        match disk.entry? (directory ++ [name]) with
        | some .directory => .error .isDirectory
        | _ => .ok (directory ++ [name])

def install (disk : Disk) (source : Place) (path : String) : Except Fault Disk := do
  let target ← disk.target path
  match disk.entry? source with
  | some (.file file) => .ok ((disk.remove source).putFile target file)
  | _ => .error .missing

end Disk
end Greybus.Storage
