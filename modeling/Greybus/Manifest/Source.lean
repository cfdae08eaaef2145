import Greybus.Manifest.Basic
import Greybus.Text.Number

/-! The source text of a manifest. The header and each descriptor have a section
of their own: a title in brackets, then one line for each field. An empty line
stands before the section of a descriptor. -/
namespace Greybus
open Text.Number (decimal hexadecimal)

namespace Source

def title (name : String) : String := "[" ++ name ++ "]"

def numbered (name : String) (id : Nat) : String := title (name ++ " " ++ decimal id)

def field (name value : String) : String := name ++ " = " ++ value

end Source
open Source

def Version.sourceLines (version : Version) : List String :=
  [title "manifest-header",
   field "version-major" (decimal version.major.toNat),
   field "version-minor" (decimal version.minor.toNat)]

def Descriptor.sourceLines : Descriptor → List String
  | .interface entry =>
    [title "interface-descriptor",
     field "vendor-string-id" (decimal entry.vendor.toNat),
     field "product-string-id" (decimal entry.product.toNat)]
  | .string entry =>
    [numbered "string-descriptor" entry.id.toNat,
     field "string" entry.text]
  | .bundle entry =>
    [numbered "bundle-descriptor" entry.id.toNat,
     field "class" (hexadecimal entry.classCode)]
  | .cport entry =>
    [numbered "cport-descriptor" entry.id.toNat,
     field "bundle" (decimal entry.bundle.toNat),
     field "protocol" (hexadecimal entry.protocol)]

namespace Manifest

def sourceLines (m : Manifest) : List String :=
  m.version.sourceLines ++ m.descriptors.toList.flatMap fun descriptor => "" :: descriptor.sourceLines

def source (m : Manifest) : String := String.join (m.sourceLines.map fun line => line ++ "\n")

end Manifest
end Greybus
