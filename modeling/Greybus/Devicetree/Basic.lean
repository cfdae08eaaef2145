import Greybus.Table
import Greybus.Header
import Greybus.Kind
import Greybus.Devicetree.Binding
import Greybus.Devicetree.Compatible
import Greybus.Devicetree.SymbolName

/-! The devicetree that a header describes: its nodes by name, in the order in
which their first symbols stand in the header. Each symbol that belongs to a node
sets one attribute or the parent link of that node, and no two set the same. -/
namespace Greybus

structure Devicetree.Properties where
  attrs : Table String String := ∅
  parent : Option String := none

structure Devicetree where
  records : Table String Devicetree.Properties := ∅

namespace Devicetree
open Header (Symbols)

structure Node extends Properties where
  name : String
  position : Nat

namespace Node

def attr? (node : Node) (name : String) : Option String := node.attrs.get? name

def compatible? (node : Node) : Option String := node.attr? Binding.compatible

def kind? (node : Node) : Option Kind := node.compatible?.bind Kind.ofCompatible?

def ofEntry (position : Nat) (entry : String × Properties) : Node :=
  { entry.2 with name := entry.1, position }

end Node

def update (tree : Devicetree) (node : String) (change : Properties → Properties) : Devicetree :=
  ⟨tree.records.alter node fun record => change (record.getD {})⟩

def add (tree : Devicetree) (symbol : String × String) : Devicetree :=
  match SymbolName.ofString symbol.1 with
  | .parent node => tree.update node fun record => { record with parent := some symbol.2 }
  | .attr node name =>
    tree.update node fun record => { record with attrs := record.attrs.insert name symbol.2 }
  | .other => tree

def ofSymbols (symbols : Symbols) : Devicetree := symbols.toList.foldl add {}

def nodes (tree : Devicetree) : List Node := tree.records.toList.mapIdx Node.ofEntry

def size (tree : Devicetree) : Nat := tree.records.size

def isEmpty (tree : Devicetree) : Bool := tree.records.isEmpty

def node? (tree : Devicetree) (name : String) : Option Node :=
  (tree.records.position? name).bind fun position =>
    tree.records.entries[position]?.map (Node.ofEntry position)

def withCompatible (tree : Devicetree) (compatible : String) : List Node :=
  tree.nodes.filter fun node => node.compatible? = some compatible

def ofKind (tree : Devicetree) (kind : Kind) : List Node :=
  tree.nodes.filter fun node => node.kind? = some kind

end Devicetree
end Greybus
