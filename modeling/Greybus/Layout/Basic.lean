import Std.Data.ExtTreeMap
import Greybus.Manifest.Basic

/-! A layout holds the descriptors that a devicetree asks for: at most one interface,
and strings, bundles and CPorts under their ids. It tells a sink a version, then
the strings, the interface, the bundles and the CPorts, each kind by rising id. -/
namespace Greybus

structure Layout where
  interface : Option Interface := none
  strings : Std.ExtTreeMap UInt8 StringEntry := ∅
  bundles : Std.ExtTreeMap UInt8 Bundle := ∅
  cports : Std.ExtTreeMap UInt16 CPort := ∅

namespace Layout

def descriptors (layout : Layout) : List Descriptor :=
  layout.strings.values.map .string ++ layout.interface.toList.map .interface ++
    layout.bundles.values.map .bundle ++ layout.cports.values.map .cport

def emit {σ : Type} [Sink σ] (layout : Layout) (version : Version) (sink : σ) : σ :=
  layout.descriptors.foldl Sink.append (Sink.setVersion sink version)

def toManifest (layout : Layout) (version : Version) : Manifest := layout.emit version {}

theorem toManifestParts (layout : Layout) (version : Version) :
    layout.toManifest version = ⟨version, layout.descriptors.toArray⟩ := by
  have run (descriptors : List Descriptor) (m : Manifest) : descriptors.foldl Sink.append m =
      ⟨m.version, m.descriptors ++ descriptors⟩ := by
    induction descriptors generalizing m with
    | nil => simp
    | cons descriptor rest ih =>
      rw [List.foldl_cons, ih]
      simp [Sink.append]
  rw [toManifest, emit, run]
  simp [Sink.setVersion]

end Layout
end Greybus
