import Greybus.Proofs.Devicetree.Slots

/-! How nodes are classed. The symbols whose names end in the compatible suffix say what
each node is compatible with, and a kind has the nodes that one of its compatibles
picks. No node is of two kinds, and one that is of none has nothing known to tell. -/
namespace Greybus.Devicetree
open Header (Symbols)

theorem placedNode {tree : Devicetree} {node : Node} (member : node ∈ tree.nodes) :
    tree.nodes[node.position]? = some node := by
  obtain ⟨n, found⟩ := List.mem_iff_getElem?.mp member
  have entry := found
  rw [nodeAt] at entry
  obtain ⟨e, _, rfl⟩ := Option.map_eq_some_iff.mp entry
  exact found

theorem positionsRising (tree : Devicetree) (kind : Kind) :
    ((tree.ofKind kind).map Node.position).Pairwise (· < ·) := by
  have all : (tree.nodes.map Node.position).Pairwise (· < ·) := by
    rw [nodePositions]
    exact List.pairwise_lt_range
  exact all.sublist (List.filter_sublist.map Node.position)

theorem compatibleIff {tree : Devicetree} {compatible : String} {node : Node} :
    node ∈ tree.withCompatible compatible ↔
      node ∈ tree.nodes ∧ node.compatible? = some compatible := by
  simp [withCompatible]

theorem kindIff {node : Node} {kind : Kind} :
    node.kind? = some kind ↔ ∃ compatible ∈ kind.compatibles, node.compatible? = some compatible := by
  simp only [Node.kind?, Option.bind_eq_some_iff, Kind.ofCompatibleIff]
  exact exists_congr fun _ => and_comm

theorem ofKindIff {tree : Devicetree} {kind : Kind} {node : Node} :
    node ∈ tree.ofKind kind ↔ node ∈ tree.nodes ∧ node.kind? = some kind := by
  simp [ofKind]

theorem kindless {node : Node} : (∀ kind, node.kind? ≠ some kind) ↔ node.compatible? = none ∨
    ∃ compatible, node.compatible? = some compatible ∧ ∀ kind : Kind, compatible ∉ kind.compatibles := by
  cases said : node.compatible? with
  | none => simp [kindIff, said]
  | some compatible => simp [kindIff, said]

theorem compatibleSymbol (node : String) :
    attrSymbol node Binding.compatible = node ++ "_P_compatible_IDX_0" := by
  rw [attrSymbol, String.append_assoc]
  rfl

theorem compatibleNamed {symbols : Symbols} {compatible name : String} :
    (∃ node ∈ (ofSymbols symbols).withCompatible compatible, node.name = name) ↔
      name ≠ "" ∧ symbols.get? (name ++ "_P_compatible_IDX_0") = some compatible := by
  have plain : Plain Binding.compatible := boundPlain _ (by decide)
  rw [← compatibleSymbol, ← and_iff_right plain (b := symbols.get? _ = some compatible), ← attrGet,
    attr?, Option.bind_eq_some_iff]
  simp only [nodeIff, compatibleIff]
  constructor
  · intro h
    obtain ⟨node, ⟨member, said⟩, named⟩ := h
    exact ⟨node, ⟨member, named⟩, said⟩
  · intro h
    obtain ⟨node, ⟨member, named⟩, said⟩ := h
    exact ⟨node, ⟨member, said⟩, named⟩

structure Classified (symbols : Symbols) (tree : Devicetree) : Prop where
  suffix : ∀ name p : String, SymbolName.ofString name = .attr p Binding.compatible ↔
    p ≠ "" ∧ name = p ++ "_P_compatible_IDX_0"
  compatible : ∀ c p : String, (∃ node ∈ tree.withCompatible c, node.name = p) ↔
    p ≠ "" ∧ symbols.get? (p ++ "_P_compatible_IDX_0") = some c
  kind : ∀ kind node, node ∈ tree.ofKind kind ↔
    node ∈ tree.nodes ∧ ∃ c ∈ kind.compatibles, node.compatible? = some c
  union : ∀ kind node, node ∈ tree.ofKind kind ↔ ∃ c ∈ kind.compatibles, node ∈ tree.withCompatible c
  placed : ∀ node ∈ tree.nodes, tree.nodes[node.position]? = some node
  rising : ∀ kind, ((tree.ofKind kind).map Node.position).Pairwise (· < ·)
  apart : ∀ left right, left ≠ right →
    ((tree.ofKind left).map Node.position).Disjoint ((tree.ofKind right).map Node.position)
  none : ∀ node ∈ tree.nodes, (∀ kind, node ∉ tree.ofKind kind) ↔ node.compatible? = none ∨
    ∃ c, node.compatible? = some c ∧ ∀ kind : Kind, c ∉ kind.compatibles

theorem nodesClassified (symbols : Symbols) : Classified symbols (ofSymbols symbols) where
  suffix name p := by
    rw [attrSpelled, compatibleSymbol]
    exact and_congr_right fun _ => and_iff_right (boundPlain _ (by decide))
  compatible c p := compatibleNamed
  kind kind node := by rw [ofKindIff, kindIff]
  union kind node := by
    simp only [ofKindIff, kindIff, compatibleIff]
    constructor
    · intro h
      obtain ⟨member, c, listed, said⟩ := h
      exact ⟨c, listed, member, said⟩
    · intro h
      obtain ⟨c, listed, member, said⟩ := h
      exact ⟨member, c, listed, said⟩
  placed node := placedNode
  rising := positionsRising _
  apart left right different := by
    intro position one two
    obtain ⟨node, inLeft, rfl⟩ := List.mem_map.mp one
    obtain ⟨other, inRight, same⟩ := List.mem_map.mp two
    obtain ⟨member, leftKind⟩ := ofKindIff.mp inLeft
    obtain ⟨member', rightKind⟩ := ofKindIff.mp inRight
    have place := placedNode member'
    rw [same, placedNode member, Option.some.injEq] at place
    rw [place, rightKind] at leftKind
    exact different (Option.some.inj leftKind).symm
  none node member := by
    rw [← kindless]
    exact forall_congr' fun kind => not_congr (ofKindIff.trans (and_iff_right member))

example : ((ofSymbols (Table.ofList [("x_P_id", "1"), ("x_P_P_compatible_IDX_0", "\"zephyr,greybus-string\""),
    ("_P_compatible_IDX_0", "\"zephyr,greybus-string\"")])).ofKind .string).map Node.name = ["x_P"] := by
  decide +kernel

end Greybus.Devicetree
