import Std.Data.ExtTreeMap
import Greybus.Layout.Access
import Greybus.Layout.Basic
import Greybus.Text.Quoted

/-! The layout of a devicetree. The interface is read first, then the strings, the
bundles and the CPorts, each kind in the order of its nodes, and the first defect
ends the reading. Of two nodes of a kind with one id the later one counts. -/
namespace Greybus
open Devicetree
open Layout (Defect)

def Interface.ofNode (tree : Devicetree) (node : Node) : Except Defect Interface := do
  let vendor ← Node.follow tree node Binding.vendorHandle
  let product ← Node.follow tree node Binding.productHandle
  return ⟨← vendor.byte Binding.id, ← product.byte Binding.id⟩

def Interface.names (entry : Interface) (id : UInt8) : Bool := entry.vendor = id || entry.product = id

def StringEntry.ofNode (owner : Option Interface) (node : Node) : Except Defect StringEntry := do
  let id ← node.byte Binding.id
  let text ← node.attr Binding.text
  return ⟨id, String.ofList (Text.stripQuotes text.toList), owner.filter fun entry => entry.names id⟩

def Bundle.ofNode (node : Node) : Except Defect Bundle := do
  return ⟨← node.byte Binding.id, ← node.byte Binding.bundleClass⟩

def CPort.ofNode (tree : Devicetree) (node : Node) : Except Defect CPort := do
  let id ← node.word Binding.id
  let owner ← Node.container tree node
  return ⟨id, ← owner.byte Binding.id, ← node.byte Binding.protocol⟩

namespace Layout

def byKey {κ α : Type} [Ord κ] [Std.TransOrd κ] (key : α → κ) (entries : List α) :
    Std.ExtTreeMap κ α :=
  entries.foldl (fun map entry => map.insert (key entry) entry) ∅

def readInterface (tree : Devicetree) : Except Defect (Option Interface) :=
  match tree.ofKind .interface with
  | [] => .ok none
  | [node] => (Interface.ofNode tree node).map some
  | first :: second :: _ => .error (.twoInterfaces first.name second.name)

def readStrings (tree : Devicetree) (owner : Option Interface) :
    Except Defect (Std.ExtTreeMap UInt8 StringEntry) :=
  ((tree.ofKind .string).mapM (StringEntry.ofNode owner)).map (byKey StringEntry.id)

def readBundles (tree : Devicetree) : Except Defect (Std.ExtTreeMap UInt8 Bundle) :=
  ((tree.ofKind .bundle).mapM Bundle.ofNode).map (byKey Bundle.id)

def readCPorts (tree : Devicetree) : Except Defect (Std.ExtTreeMap UInt16 CPort) :=
  ((tree.ofKind .cport).mapM (CPort.ofNode tree)).map (byKey CPort.id)

def ofDevicetree (tree : Devicetree) : Except Defect Layout := do
  let interface ← readInterface tree
  let strings ← readStrings tree interface
  let bundles ← readBundles tree
  let cports ← readCPorts tree
  return { interface, strings, bundles, cports }

def ofSymbols (symbols : Header.Symbols) : Except Defect Layout :=
  ofDevicetree (Devicetree.ofSymbols symbols)

end Layout
end Greybus
