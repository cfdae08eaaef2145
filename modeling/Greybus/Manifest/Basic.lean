import Greybus.Manifest.Descriptor

/-! A manifest is a version and descriptors in the order in which they were added.
Whatever takes a version and descriptors one after another is a sink; a manifest
is one, and so is the plain list of what a sink was told. -/
namespace Greybus

structure Manifest where
  version : Version := {}
  descriptors : Array Descriptor := #[]
  deriving DecidableEq, Repr, Inhabited

class Sink (σ : Type) where
  setVersion : σ → Version → σ
  append : σ → Descriptor → σ

inductive Sink.Call where
  | setVersion (version : Version)
  | append (descriptor : Descriptor)
  deriving DecidableEq, Repr

instance : Sink (Array Sink.Call) where
  setVersion calls version := calls.push (.setVersion version)
  append calls descriptor := calls.push (.append descriptor)

namespace Manifest

instance : Sink Manifest where
  setVersion m version := { m with version }
  append m descriptor := { m with descriptors := m.descriptors.push descriptor }

def interfaces (m : Manifest) : List Interface := m.descriptors.toList.filterMap Descriptor.interface?

def strings (m : Manifest) : List StringEntry := m.descriptors.toList.filterMap Descriptor.string?

def bundles (m : Manifest) : List Bundle := m.descriptors.toList.filterMap Descriptor.bundle?

def cports (m : Manifest) : List CPort := m.descriptors.toList.filterMap Descriptor.cport?

end Manifest
end Greybus
