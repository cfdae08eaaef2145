import Greybus.Devicetree.Basic
import Greybus.Table.Lemmas

/-! The nodes of a tree and its records say the same. A node is found under its
own name only, stands at its own position, and a change of one node leaves every
other one as it was. -/
namespace Greybus.Devicetree
open Table

theorem nodeAt (tree : Devicetree) (n : Nat) :
    tree.nodes[n]? = tree.records.entries[n]?.map (Node.ofEntry n) := by
  simp [nodes, Table.toList]

theorem nodeIff {tree : Devicetree} {name : String} {node : Node} :
    tree.node? name = some node ↔ node ∈ tree.nodes ∧ node.name = name := by
  constructor
  · intro found
    obtain ⟨n, position, entry⟩ := Option.bind_eq_some_iff.mp found
    have key := (tree.records.coherent name n).mp position
    obtain ⟨e, at_n, rfl⟩ := Option.map_eq_some_iff.mp entry
    rw [at_n] at key
    exact ⟨List.mem_of_getElem? ((nodeAt tree n).trans entry), Option.some.inj key⟩
  · intro h
    obtain ⟨member, rfl⟩ := h
    obtain ⟨n, at_n⟩ := List.mem_iff_getElem?.mp member
    rw [nodeAt] at at_n
    obtain ⟨e, entry, rfl⟩ := Option.map_eq_some_iff.mp at_n
    have position : tree.records.position? e.1 = some n :=
      (tree.records.coherent e.1 n).mpr (by simp [entry])
    simp [node?, Node.ofEntry, position, entry]

theorem nodeNames (tree : Devicetree) : tree.nodes.map Node.name = tree.records.keys := by
  apply List.ext_getElem?
  intro n
  rw [List.getElem?_map, nodeAt, keyAt]
  cases tree.records.entries[n]? <;> rfl

theorem nodePositions (tree : Devicetree) :
    tree.nodes.map Node.position = List.range tree.size := by
  apply List.ext_getElem
  · simp [nodes, size, Table.toList, Table.size]
  · intro n inNodes inRange
    simp [nodes, Node.ofEntry]

theorem nodeRecord (tree : Devicetree) (name : String) :
    (tree.node? name).map Node.toProperties = tree.records.get? name := by
  simp only [node?, Table.get?]
  cases tree.records.position? name with
  | none => rfl
  | some n => cases h : tree.records.entries[n]? <;> simp [h, Node.ofEntry]

theorem recordUpdate (tree : Devicetree) (node : String) (change : Properties → Properties)
    (other : String) :
    (tree.update node change).records.get? other =
      if node = other then some (change ((tree.records.get? node).getD {}))
      else tree.records.get? other :=
  getAlter tree.records node _ other

end Greybus.Devicetree
