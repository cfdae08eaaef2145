import Greybus.Proofs.Layout.Content

/-! Which headers have a layout. Of each node of a kind a few symbols are needed, and of
a node that is referred to its id; two interfaces are one too many. A header where all
of this is in order has a layout whatever else it states, and no other header has one. -/
namespace Greybus
open Devicetree
open Header (Symbols)

def Devicetree.Identified (symbols : Symbols) (node : String) : Prop :=
  ∃ n : UInt8, Numbered symbols node n.toNat

namespace Layout

structure WellFormed (symbols : Symbols) : Prop where
  single : ∀ first second, OfKind symbols .interface first → OfKind symbols .interface second →
    first = second
  interface : ∀ node, OfKind symbols .interface node →
    ∀ handle ∈ [Binding.vendorHandle, Binding.productHandle],
      ∃ target, said? symbols node handle = some target ∧ Identified symbols target
  strings : ∀ node, OfKind symbols .string node →
    Identified symbols node ∧ ∃ text, said? symbols node Binding.text = some text
  bundles : ∀ node, OfKind symbols .bundle node →
    Identified symbols node ∧ ∃ n : UInt8, Counts symbols node Binding.bundleClass n.toNat
  cports : ∀ node, OfKind symbols .cport node →
    (∃ n : UInt16, Counts symbols node Binding.id n.toNat) ∧
      (∃ n : UInt8, Counts symbols node Binding.protocol n.toNat) ∧
      ∃ owner, owner? symbols node = some owner ∧ Identified symbols owner

section
variable {symbols : Symbols} {node : String}

theorem interfaceNeeds (named : node ≠ "") :
    (Interface.at? (Devicetree.ofSymbols symbols) node).isSome ↔
      ∀ handle ∈ [Binding.vendorHandle, Binding.productHandle],
        ∃ target, said? symbols node handle = some target ∧ Identified symbols target := by
  simp only [Option.isSome_iff_exists, Interface.atSaid, List.forall_mem_cons, List.not_mem_nil,
    false_implies, implies_true, and_true]
  constructor
  · intro h
    obtain ⟨entry, _, vendor, product, first, second, left, right⟩ := h
    exact ⟨⟨vendor, first, _, left⟩, product, second, _, right⟩
  · intro h
    obtain ⟨⟨vendor, first, m, left⟩, product, second, n, right⟩ := h
    exact ⟨⟨m, n⟩, named, vendor, product, first, second, left, right⟩

theorem stringNeeds : (StringEntry.at? (Devicetree.ofSymbols symbols) none node).isSome ↔
    Identified symbols node ∧ ∃ text, said? symbols node Binding.text = some text := by
  simp only [Option.isSome_iff_exists, StringEntry.atSaid]
  constructor
  · intro h
    obtain ⟨entry, numbered, text, found, _⟩ := h
    exact ⟨⟨_, numbered⟩, text, found⟩
  · intro h
    obtain ⟨⟨id, numbered⟩, text, found⟩ := h
    exact ⟨⟨id, _, none⟩, numbered, text, found, rfl, rfl⟩

theorem bundleNeeds : (Bundle.at? (Devicetree.ofSymbols symbols) node).isSome ↔
    Identified symbols node ∧ ∃ n : UInt8, Counts symbols node Binding.bundleClass n.toNat := by
  simp only [Option.isSome_iff_exists, Bundle.atSaid]
  constructor
  · intro h
    obtain ⟨entry, numbered, counted⟩ := h
    exact ⟨⟨_, numbered⟩, _, counted⟩
  · intro h
    obtain ⟨⟨id, numbered⟩, code, counted⟩ := h
    exact ⟨⟨id, code⟩, numbered, counted⟩

theorem cportNeeds (named : node ≠ "") : (CPort.at? (Devicetree.ofSymbols symbols) node).isSome ↔
    (∃ n : UInt16, Counts symbols node Binding.id n.toNat) ∧
      (∃ n : UInt8, Counts symbols node Binding.protocol n.toNat) ∧
      ∃ owner, owner? symbols node = some owner ∧ Identified symbols owner := by
  simp only [Option.isSome_iff_exists, CPort.atSaid]
  constructor
  · intro h
    obtain ⟨entry, numbered, counted, owner, linked, led⟩ := h
    exact ⟨⟨_, numbered.2⟩, ⟨_, counted⟩, owner, linked, _, led⟩
  · intro h
    obtain ⟨⟨id, numbered⟩, ⟨protocol, counted⟩, owner, linked, bundle, led⟩ := h
    exact ⟨⟨id, bundle, protocol⟩, ⟨named, numbered⟩, counted, owner, linked, led⟩

end

theorem singleName {names : List String} (apart : names.Nodup) :
    names.length ≤ 1 ↔ ∀ first ∈ names, ∀ second ∈ names, first = second := by
  constructor
  · intro few first one second other
    obtain ⟨m, hm, rfl⟩ := List.mem_iff_getElem.mp one
    obtain ⟨n, hn, rfl⟩ := List.mem_iff_getElem.mp other
    have same : m = n := by omega
    subst same
    rfl
  · intro same
    match names with
    | [] => simp
    | [_] => simp
    | first :: second :: rest =>
      have equal := same first (by simp) second (by simp)
      simp [equal] at apart

theorem soundIff {symbols : Symbols} : Sound (Devicetree.ofSymbols symbols) ↔ WellFormed symbols := by
  have single := singleName (kindNodup (Devicetree.ofSymbols symbols) .interface)
  simp only [kindSaid] at single
  constructor
  · intro sound
    constructor
    · intro first second one other
      exact single.mp sound.single first one second other
    · intro node kinded
      exact (interfaceNeeds kinded.1).mp (sound.interface node (kindSaid.mpr kinded))
    · intro node kinded
      exact stringNeeds.mp (sound.strings node (kindSaid.mpr kinded))
    · intro node kinded
      exact bundleNeeds.mp (sound.bundles node (kindSaid.mpr kinded))
    · intro node kinded
      exact (cportNeeds kinded.1).mp (sound.cports node (kindSaid.mpr kinded))
  · intro formed
    constructor
    · exact single.mpr fun first one second other => formed.single first second one other
    · intro node member
      have kinded := kindSaid.mp member
      exact (interfaceNeeds kinded.1).mpr (formed.interface node kinded)
    · intro node member
      exact stringNeeds.mpr (formed.strings node (kindSaid.mp member))
    · intro node member
      exact bundleNeeds.mpr (formed.bundles node (kindSaid.mp member))
    · intro node member
      have kinded := kindSaid.mp member
      exact (cportNeeds kinded.1).mpr (formed.cports node kinded)

theorem layoutIff (symbols : Symbols) : (∃ layout, ofSymbols symbols = .ok layout) ↔ WellFormed symbols := by
  rw [← soundIff]
  constructor
  · intro h
    obtain ⟨layout, read⟩ := h
    exact (readIff.mp read).1
  · intro sound
    exact ⟨_, readIff.mpr ⟨sound, rfl⟩⟩

end Layout
end Greybus
