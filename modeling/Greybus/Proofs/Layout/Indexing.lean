import Greybus.Proofs.Devicetree.Indices

/-! A layout read by the indices of nodes. Whoever asks for a node is given its index and
goes there to see what the node says, and should nothing stand there, the reading would
break off. It never does: look-ups, selections and links only lead to indices of the tree,
so that reading by indices comes to the same layout, or to the same defect. -/
namespace Greybus
open Devicetree
open Layout (Defect)

structure Devicetree.Bounded (tree : Devicetree) : Prop where
  bound : ∀ (name : String) (index : UInt32), tree.indexOf? name = some index → index.toNat < tree.size
  lookup : ∀ name, tree.node? name = (tree.indexOf? name).bind tree.at?
  ofKind : ∀ kind, ∀ node ∈ tree.ofKind kind, Within tree node
  withCompatible : ∀ compatible, ∀ node ∈ tree.withCompatible compatible, Within tree node
  follow : ∀ (node : Node) (handle : String) (found : Node),
    Node.follow tree node handle = .ok found → Within tree found
  container : ∀ node owner : Node, Node.container tree node = .ok owner → Within tree owner

/-- A reading of a tree, which breaks off where it finds nothing at an index. -/
abbrev Lookup := ExceptT Defect Option

def Lookup.settled {α : Type} (result : Except Defect α) : Lookup α := ExceptT.mk (some result)
open Lookup (settled)

namespace Devicetree

def visit (tree : Devicetree) (index : UInt32) : Lookup Node := ExceptT.mk ((tree.at? index).map .ok)

def readAt {α : Type} (tree : Devicetree) (read : Node → Except Defect α) (index : UInt32) : Lookup α := do
  settled (read (← tree.visit index))

def targetIndex (tree : Devicetree) (node : Node) (link name : String) : Except Defect UInt32 :=
  match tree.indexOf? name with
  | some index => .ok index
  | none => .error (.danglingLink node.name link name)

def followIndex (tree : Devicetree) (handle : String) : UInt32 → Lookup UInt32 :=
  tree.readAt fun node => do
    let name ← node.attr handle
    tree.targetIndex node handle name

def containerIndex (tree : Devicetree) : UInt32 → Lookup UInt32 :=
  tree.readAt fun node =>
    match node.parent with
    | some name => tree.targetIndex node Binding.parent name
    | none => .error (.noParent node.name)

def indicesOf (tree : Devicetree) (kind : Kind) : List UInt32 := (tree.ofKind kind).map Node.index

end Devicetree

def Interface.atIndex (tree : Devicetree) (index : UInt32) : Lookup Interface := do
  let vendor ← tree.followIndex Binding.vendorHandle index
  let product ← tree.followIndex Binding.productHandle index
  return ⟨← tree.readAt (·.byte Binding.id) vendor, ← tree.readAt (·.byte Binding.id) product⟩

def CPort.atIndex (tree : Devicetree) (index : UInt32) : Lookup CPort := do
  let id ← tree.readAt (·.word Binding.id) index
  let owner ← tree.containerIndex index
  return ⟨id, ← tree.readAt (·.byte Binding.id) owner, ← tree.readAt (·.byte Binding.protocol) index⟩

namespace Layout

def interfaceAt (tree : Devicetree) : Lookup (Option Interface) :=
  match tree.indicesOf .interface with
  | [] => return none
  | [index] => return some (← Interface.atIndex tree index)
  | first :: second :: _ => do
    throw (.twoInterfaces (← tree.visit first).name (← tree.visit second).name)

def entriesAt {κ α : Type} [Ord κ] [Std.TransOrd κ] (tree : Devicetree) (kind : Kind) (key : α → κ)
    (read : UInt32 → Lookup α) : Lookup (Std.ExtTreeMap κ α) :=
  return byKey key (← (tree.indicesOf kind).mapM read)

def byIndices (tree : Devicetree) : Lookup Layout := do
  let interface ← interfaceAt tree
  let strings ← entriesAt tree .string StringEntry.id (tree.readAt (StringEntry.ofNode interface))
  let bundles ← entriesAt tree .bundle Bundle.id (tree.readAt Bundle.ofNode)
  let cports ← entriesAt tree .cport CPort.id (CPort.atIndex tree)
  return { interface, strings, bundles, cports }

end Layout

namespace Lookup

theorem bindSettled {α β : Type} {x : Except Defect α} {f : α → Except Defect β} {g : α → Lookup β}
    (same : ∀ a, x = .ok a → g a = settled (f a)) : settled x >>= g = settled (x >>= f) := by
  cases x with
  | error defect => rfl
  | ok a => exact same a rfl

theorem mapMSettled {α β γ : Type} {place : α → β} {read : α → Except Defect γ} {reading : β → Lookup γ}
    {xs : List α} (same : ∀ x ∈ xs, reading (place x) = settled (read x)) :
    (xs.map place).mapM reading = settled (xs.mapM read) := by
  induction xs with
  | nil => rfl
  | cons x xs ih =>
    obtain ⟨first, rest⟩ := List.forall_mem_cons.mp same
    rw [List.map_cons, List.mapM_cons, List.mapM_cons, first]
    apply bindSettled
    intro y _
    rw [ih rest]
    apply bindSettled
    intro ys _
    rfl

theorem bindIndex {β : Type} {x : Except Defect Node} {f : Node → Except Defect β} {g : UInt32 → Lookup β}
    (same : ∀ node, x = .ok node → g node.index = settled (f node)) :
    settled (x.map Node.index) >>= g = settled (x >>= f) := by
  cases x with
  | error defect => rfl
  | ok node => exact same node rfl

end Lookup
open Lookup (bindSettled mapMSettled bindIndex)

namespace Devicetree

theorem targetFound {tree : Devicetree} {node found : Node} {link name : String}
    (led : tree.target node link name = .ok found) : found ∈ tree.nodes := by
  rw [← toOptionIff, targetOption] at led
  exact (nodeIff.mp led).1

theorem targetIndexed (tree : Devicetree) (node : Node) (link name : String) :
    tree.targetIndex node link name = (tree.target node link name).map Node.index := by
  rw [targetIndex, target, indexNode]
  cases tree.node? name <;> rfl

section
variable {tree : Devicetree} {node : Node} (within : Within tree node)
include within

theorem visitSettled : tree.visit node.index = settled (.ok node) := by
  rw [visit, within.2]
  rfl

theorem readSettled {α : Type} (read : Node → Except Defect α) :
    tree.readAt read node.index = settled (read node) := by
  rw [readAt, visitSettled within]
  rfl

theorem followSettled (handle : String) :
    tree.followIndex handle node.index = settled ((Node.follow tree node handle).map Node.index) := by
  rw [followIndex, readSettled within, Node.follow]
  simp only [targetIndexed]
  cases node.attr handle <;> rfl

theorem containerSettled :
    tree.containerIndex node.index = settled ((Node.container tree node).map Node.index) := by
  rw [containerIndex, readSettled within, Node.container]
  cases node.parent with
  | none => rfl
  | some name => exact congrArg settled (targetIndexed tree node Binding.parent name)

end

theorem treeBounded {tree : Devicetree} (small : tree.size < UInt32.size) : tree.Bounded where
  bound name index found := ((indexIff small).mp found).1
  lookup name := by
    rw [indexNode]
    cases found : tree.node? name with
    | none => rfl
    | some node => exact (memberWithin small (nodeIff.mp found).1).2.symm
  ofKind kind node listed := memberWithin small (ofKindIff.mp listed).1
  withCompatible compatible node listed := memberWithin small (compatibleIff.mp listed).1
  follow node handle found led := by
    obtain ⟨name, _, known⟩ := bindOkIff.mp led
    exact memberWithin small (targetFound known)
  container node owner led := by
    unfold Node.container at led
    split at led
    · exact memberWithin small (targetFound led)
    · contradiction

end Devicetree

section
variable {tree : Devicetree} (bounded : tree.Bounded)
include bounded

theorem interfaceSettled {node : Node} (within : Within tree node) :
    Interface.atIndex tree node.index = settled (Interface.ofNode tree node) := by
  rw [Interface.atIndex, Interface.ofNode, followSettled within]
  apply bindIndex
  intro vendor first
  rw [followSettled within]
  apply bindIndex
  intro product second
  rw [readSettled (bounded.follow _ _ _ first), readSettled (bounded.follow _ _ _ second)]
  apply bindSettled
  intro id _
  apply bindSettled
  intro other _
  rfl

theorem cportSettled {node : Node} (within : Within tree node) :
    CPort.atIndex tree node.index = settled (CPort.ofNode tree node) := by
  rw [CPort.atIndex, CPort.ofNode, readSettled within, containerSettled within, readSettled within]
  apply bindSettled
  intro id _
  apply bindIndex
  intro owner led
  rw [readSettled (bounded.container _ _ led)]
  apply bindSettled
  intro bundle _
  apply bindSettled
  intro protocol _
  rfl

namespace Layout

theorem interfacesSettled : interfaceAt tree = settled (readInterface tree) := by
  unfold interfaceAt readInterface indicesOf
  have within := bounded.ofKind .interface
  generalize tree.ofKind .interface = nodes at within
  rcases nodes with _ | ⟨first, _ | ⟨second, rest⟩⟩
  · rfl
  · simp only [List.map_cons, List.map_nil]
    rw [interfaceSettled bounded (within first List.mem_cons_self)]
    cases Interface.ofNode tree first <;> rfl
  · simp only [List.map_cons]
    rw [visitSettled (within first List.mem_cons_self), visitSettled (within second (by simp))]
    rfl

theorem entriesSettled {κ α : Type} [Ord κ] [Std.TransOrd κ] {kind : Kind} {key : α → κ}
    {read : Node → Except Defect α} {reading : UInt32 → Lookup α}
    (same : ∀ node, Within tree node → reading node.index = settled (read node)) :
    entriesAt tree kind key reading = settled (((tree.ofKind kind).mapM read).map (byKey key)) := by
  rw [entriesAt, indicesOf, mapMSettled fun node listed => same node (bounded.ofKind kind node listed)]
  cases (tree.ofKind kind).mapM read <;> rfl

theorem indicesSettled : byIndices tree = settled (ofDevicetree tree) := by
  rw [byIndices, ofDevicetree, interfacesSettled bounded]
  apply bindSettled
  intro interface _
  rw [entriesSettled bounded fun node within => readSettled within _]
  apply bindSettled
  intro strings _
  rw [entriesSettled bounded fun node within => readSettled within _]
  apply bindSettled
  intro bundles _
  rw [entriesSettled bounded fun node within => cportSettled bounded within]
  apply bindSettled
  intro cports _
  rfl

end Layout
end

theorem Layout.indicesHold {symbols : Header.Symbols} (few : symbols.size < UInt32.size) :
    (∀ n, let tree := built symbols n
      Indexed (symbols.toList.take n) tree ∧ Keeps tree (built symbols (n + 1)) ∧ tree.Bounded ∧
        byIndices tree = settled (ofDevicetree tree)) ∧
      built symbols symbols.size = Devicetree.ofSymbols symbols := by
  refine ⟨fun n => ?_, builtAll symbols⟩
  have length : (symbols.toList.take n).length < UInt32.size := by
    rw [List.length_take]
    exact Nat.lt_of_le_of_lt (Nat.min_le_right ..) (by simpa [Table.toList, Table.size] using few)
  have bounded := treeBounded (Nat.lt_of_le_of_lt (sizeRun _) length)
  exact ⟨runIndexed length, builtKeeps symbols n, bounded, indicesSettled bounded⟩

theorem Layout.indicesHoldTangled :
    let symbols : Header.Symbols := Table.ofList
      [("b_P_P_id", "1"), ("_P_id", "2"), ("i_P_vendor_string_id_IDX_0_PH", "b_P"), ("b_P_PARENT", "b_P"),
       ("i_P_compatible_IDX_0", "\"zephyr,greybus-interface\""), ("a_PARENT", "z"),
       ("i_P_product_string_id_IDX_0_PH", "z")]
    let tree := built symbols 6
    symbols.size < UInt32.size ∧ tree.nodes.map Node.name = ["b_P", "i", "a"] ∧
      tree.indexOf? "i" = some 1 ∧ tree.indexOf? "z" = none ∧
      (Indexed (symbols.toList.take 6) tree ∧ Keeps tree (built symbols 7) ∧ tree.Bounded ∧
        byIndices tree = settled (ofDevicetree tree)) ∧
      built symbols 7 = Devicetree.ofSymbols symbols := by
  intro symbols tree
  have few : symbols.size < UInt32.size := by decide +kernel
  obtain ⟨steps, last⟩ := indicesHold few
  exact ⟨few, by decide +kernel, by decide +kernel, by decide +kernel, steps 6, last⟩

end Greybus
