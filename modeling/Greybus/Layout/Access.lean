import Greybus.Devicetree.Basic
import Greybus.Layout.Defect

/-! What a node has to say: attributes as text or as a number of a given width, and
links to other nodes. Whatever is missing or malformed is a defect of the node. -/
namespace Greybus.Devicetree
open Layout (Defect)
open Text

def target (tree : Devicetree) (node : Node) (link name : String) : Except Defect Node :=
  match tree.node? name with
  | some found => .ok found
  | none => .error (.danglingLink node.name link name)

namespace Node

def attr (node : Node) (name : String) : Except Defect String :=
  match node.attr? name with
  | some value => .ok value
  | none => .error (.noAttribute node.name name)

def number {ν : Type} (read : String → Except Number.Fault ν) (node : Node) (name : String) :
    Except Defect ν := do
  let value ← node.attr name
  (read value).mapError (.badNumber node.name name value)

def byte (node : Node) (name : String) : Except Defect UInt8 := node.number Number.readByte name

def word (node : Node) (name : String) : Except Defect UInt16 := node.number Number.readWord name

def follow (tree : Devicetree) (node : Node) (name : String) : Except Defect Node := do
  let value ← node.attr name
  tree.target node name value

def container (tree : Devicetree) (node : Node) : Except Defect Node :=
  match node.parent with
  | some name => tree.target node Binding.parent name
  | none => .error (.noParent node.name)

end Node
end Greybus.Devicetree
