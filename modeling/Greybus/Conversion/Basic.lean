import Greybus.Conversion.Format
import Greybus.Layout.Reading
import Greybus.Storage.Basic

/-! The conversion of a header file into a manifest file. Reading the file, finding
the layout, encoding the manifest and writing it follow one another, so the first
of them that fails names the failure, and nothing is written before the last. -/
namespace Greybus

namespace Conversion

inductive Failure where
  | unreadable (path : String) (fault : Storage.Fault)
  | layout (defect : Layout.Defect)
  | packing (fault : Blob.Fault)
  | unwritable (path : String) (fault : Storage.Fault)
  deriving DecidableEq, Repr

def Failure.message : Failure → String
  | .unreadable path fault => "failed to read '" ++ path ++ "': " ++ fault.message
  | .layout defect => defect.message
  | .packing fault => fault.message
  | .unwritable path fault => "failed to write '" ++ path ++ "': " ++ fault.message

structure Options where
  version : Version := {}
  format : Format := .mnfs
  deriving DecidableEq, Repr

def Options.ofPath (path : String) : Options := { format := Format.ofPath path }

end Conversion

def Manifest.ofSymbols (symbols : Header.Symbols) (version : Version) : Except Layout.Defect Manifest :=
  (Layout.ofSymbols symbols).map fun layout => layout.toManifest version

namespace Conversion
variable {m : Type → Type} {τ : Type} [Monad m] [Storage m τ]

def contents (symbols : Header.Symbols) (options : Options) : Except Failure ByteArray := do
  let manifest ← (Manifest.ofSymbols symbols options.version).mapError .layout
  (manifest.encode options.format).mapError .packing

def decode (bytes : ByteArray) : Except Storage.Fault String :=
  match String.fromUTF8? bytes with
  | some text => .ok text
  | none => .error .notText

def readSymbols (path : String) : ExceptT Failure m Header.Symbols := do
  let bytes ← (Storage.read path : ExceptT Storage.Fault m ByteArray).adapt (.unreadable path)
  let source ← liftExcept ((decode bytes).mapError (Failure.unreadable path))
  return Header.symbols source

def convertFile (input output : String) (options : Options) : ExceptT Failure m Unit := do
  let symbols ← readSymbols input
  let bytes ← liftExcept (contents symbols options)
  (Storage.replace output bytes : ExceptT Storage.Fault m Unit).adapt (.unwritable output)

end Conversion
end Greybus
