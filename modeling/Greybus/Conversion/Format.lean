import Greybus.Manifest.Blob
import Greybus.Manifest.Source
import Greybus.Storage.Path

/-! The two forms in which a manifest can be written: source text (mnfs) and packed
blob (mnfb). The extension of the output path chooses, in either case of letters. -/
namespace Greybus

inductive Format where
  | mnfs
  | mnfb
  deriving DecidableEq, Repr, Inhabited

namespace Format

def packedExtension : String := "mnfb"

def ofPath (path : String) : Format :=
  match Storage.Path.extension? path with
  | some extension =>
    if extension.toList.map Char.toLower = packedExtension.toList then .mnfb else .mnfs
  | none => .mnfs

end Format

def Manifest.encode (m : Manifest) : Format → Except Blob.Fault ByteArray
  | .mnfs => .ok m.source.toUTF8
  | .mnfb => m.blob.map List.toByteArray

end Greybus
