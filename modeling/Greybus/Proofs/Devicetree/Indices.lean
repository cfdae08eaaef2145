import Greybus.Proofs.Devicetree.Classification
import Greybus.Proofs.Devicetree.Statements

/-! The indices of nodes. A tree is built symbol by symbol, and a name gets the next free
index with the first symbol that mentions it. From then on the index belongs to this name,
whatever else is added, and a look-up of the name leads to it. Indices are as wide as the
number of symbols can be, so none of them is cut short. -/
namespace Greybus.Devicetree
open Header (Symbols)

def Mentions (name node : String) : Prop :=
  node ≠ "" ∧ (name = node ++ "_PARENT" ∨ ∃ attr, Plain attr ∧ name = node ++ "_P_" ++ attr)

theorem mentionsIff {name node : String} :
    (SymbolName.ofString name).node? = some node ↔ Mentions name node := by
  constructor
  · intro owned
    cases place : SymbolName.ofString name with
    | other => simp [place, SymbolName.node?] at owned
    | parent owner =>
      rw [place] at owned
      obtain rfl := Option.some.inj owned
      obtain ⟨named, same⟩ := SymbolName.parentIff.mp place
      exact ⟨named, .inl same⟩
    | attr owner attr =>
      rw [place] at owned
      obtain rfl := Option.some.inj owned
      obtain ⟨named, plain, same⟩ := attrSpelled.mp place
      exact ⟨named, .inr ⟨attr, plain, same⟩⟩
  · intro h
    obtain ⟨named, rfl | ⟨attr, plain, rfl⟩⟩ := h
    · exact congrArg SymbolName.node? (SymbolName.ofParent named)
    · exact congrArg SymbolName.node? (attrSpelled.mpr ⟨named, plain, rfl⟩)

/-- Before a name is mentioned for the first time, these names are mentioned and no others. -/
def FirstAfter (entries : List (String × String)) (passed : List String) (name : String) : Prop :=
  ∃ before symbol after, entries = before ++ symbol :: after ∧ Mentions symbol.1 name ∧
    ∀ p, p ∈ passed ↔ ∃ earlier ∈ before, Mentions earlier.1 p

theorem FirstAfter.next {entries : List (String × String)} {passed : List String} {name : String}
    (first : FirstAfter entries passed name) (symbol : String × String) :
    FirstAfter (entries ++ [symbol]) passed name := by
  obtain ⟨before, mention, after, rfl, mentions, passed⟩ := first
  exact ⟨before, mention, after ++ [symbol], by simp, mentions, passed⟩

structure Arranged (entries : List (String × String)) (names : List String) : Prop where
  once : names.Nodup
  all : ∀ p, p ∈ names ↔ ∃ symbol ∈ entries, Mentions symbol.1 p
  first : ∀ (n : Nat) (p : String), names[n]? = some p → FirstAfter entries (names.take n) p

section
variable {entries : List (String × String)} {names : List String} (arranged : Arranged entries names)
  {symbol : String × String}
include arranged

theorem Arranged.old (known : ∀ p, Mentions symbol.1 p → p ∈ names) :
    Arranged (entries ++ [symbol]) names where
  once := arranged.once
  all p := by
    rw [arranged.all]
    simp only [List.mem_append, List.mem_singleton, or_and_right, exists_or, exists_eq_left]
    exact (or_iff_left_of_imp fun mentions => (arranged.all p).mp (known p mentions)).symm
  first n p found := (arranged.first n p found).next symbol

theorem Arranged.new {p : String} (mentions : ∀ q, Mentions symbol.1 q ↔ q = p) (fresh : p ∉ names) :
    Arranged (entries ++ [symbol]) (names ++ [p]) where
  once := by
    rw [List.nodup_append]
    refine ⟨arranged.once, List.nodup_singleton p, ?_⟩
    intro q inside r here same
    rw [same, List.mem_singleton.mp here] at inside
    exact fresh inside
  all q := by
    simp only [List.mem_append, List.mem_singleton, or_and_right, exists_or, exists_eq_left,
      arranged.all, mentions]
  first n q found := by
    rcases Nat.lt_or_ge n names.length with inside | outside
    · rw [List.getElem?_append_left inside] at found
      rw [List.take_append_of_le_length (Nat.le_of_lt inside)]
      exact (arranged.first n q found).next symbol
    · rw [List.getElem?_append_right outside, List.getElem?_singleton] at found
      split at found
      · rename_i last
        obtain rfl := Option.some.inj found
        obtain rfl : n = names.length := by omega
        rw [List.take_left]
        exact ⟨entries, symbol, [], rfl, (mentions p).mpr rfl, arranged.all⟩
      · contradiction

end

theorem arrangedRun (entries : List (String × String)) :
    Arranged entries (entries.foldl add {}).records.keys := by
  induction entries using List.reverseRecOn with
  | nil => exact ⟨List.nodup_nil, by simp, by simp⟩
  | append_singleton before symbol ih =>
    rw [List.foldl_append, List.foldl_cons, List.foldl_nil, keysAdd]
    cases owned : (SymbolName.ofString symbol.1).node? with
    | none =>
      refine ih.old fun p mentions => ?_
      rw [← mentionsIff, owned] at mentions
      contradiction
    | some node =>
      have mentions (p : String) : Mentions symbol.1 p ↔ p = node := by
        rw [← mentionsIff, owned, Option.some.injEq, eq_comm]
      dsimp only
      split
      · rename_i old
        exact ih.old fun p mentioned => (mentions p).mp mentioned ▸ old
      · rename_i fresh
        exact ih.new mentions fresh

theorem sizeRun (entries : List (String × String)) : (entries.foldl add {}).size ≤ entries.length := by
  simp only [size, Table.sizeKeys]
  induction entries using List.reverseRecOn with
  | nil => exact Nat.le_refl 0
  | append_singleton before symbol ih =>
    rw [List.foldl_append, List.foldl_cons, List.foldl_nil, keysAdd, List.length_append]
    split
    · exact Nat.le_succ_of_le ih
    · split
      · exact Nat.le_succ_of_le ih
      · simpa using ih

def Node.index (node : Node) : UInt32 := node.position.toUInt32

def indexOf? (tree : Devicetree) (name : String) : Option UInt32 :=
  (tree.records.position? name).map Nat.toUInt32

def at? (tree : Devicetree) (index : UInt32) : Option Node := tree.nodes[index.toNat]?

theorem indexNode (tree : Devicetree) (name : String) :
    tree.indexOf? name = (tree.node? name).map Node.index := by
  rw [indexOf?, node?]
  cases found : tree.records.position? name with
  | none => rfl
  | some n =>
    obtain ⟨value, entry, _⟩ := Table.entryAt found
    simp [entry, Node.ofEntry, Node.index]

theorem positionAt {tree : Devicetree} {n : Nat} {node : Node} (found : tree.nodes[n]? = some node) :
    node.position = n := by
  rw [nodeAt] at found
  obtain ⟨entry, _, rfl⟩ := Option.map_eq_some_iff.mp found
  rfl

def Within (tree : Devicetree) (node : Node) : Prop :=
  node.index.toNat < tree.size ∧ tree.at? node.index = some node

section
variable {tree : Devicetree} (small : tree.size < UInt32.size)
include small

theorem indexWide {node : Node} (member : node ∈ tree.nodes) :
    node.index.toNat = node.position ∧ node.position < tree.size := by
  have placed := placedNode member
  have inside : node.position < tree.size := by
    obtain ⟨bound, _⟩ := List.getElem?_eq_some_iff.mp placed
    simpa [nodes, size, Table.toList, Table.size] using bound
  exact ⟨Nat.mod_eq_of_lt (Nat.lt_trans inside small), inside⟩

theorem memberWithin {node : Node} (member : node ∈ tree.nodes) : Within tree node := by
  obtain ⟨wide, inside⟩ := indexWide small member
  rw [Within, at?, wide]
  exact ⟨inside, placedNode member⟩

theorem indexIff {name : String} {index : UInt32} : tree.indexOf? name = some index ↔
    index.toNat < tree.size ∧ (tree.at? index).map Node.name = some name := by
  rw [indexNode]
  constructor
  · intro found
    obtain ⟨node, known, rfl⟩ := Option.map_eq_some_iff.mp found
    obtain ⟨member, rfl⟩ := nodeIff.mp known
    obtain ⟨inside, here⟩ := memberWithin small member
    exact ⟨inside, congrArg (Option.map Node.name) here⟩
  · intro h
    obtain ⟨node, here, rfl⟩ := Option.map_eq_some_iff.mp h.2
    have member := List.mem_of_getElem? here
    rw [nodeIff.mpr ⟨member, rfl⟩, Option.map_some, Option.some.injEq, ← UInt32.toNat_inj,
      (indexWide small member).1]
    exact positionAt here

end

structure Indexed (entries : List (String × String)) (tree : Devicetree) : Prop where
  named : ∀ node ∈ tree.nodes, node.name ≠ ""
  distinct : (tree.nodes.map Node.name).Nodup
  lookup : ∀ (name : String) (index : UInt32), tree.indexOf? name = some index ↔
    index.toNat < tree.size ∧ (tree.at? index).map Node.name = some name
  indices : (tree.nodes.map fun node => node.index.toNat) = List.range tree.size
  order : Arranged entries (tree.nodes.map Node.name)
  filled : ∀ node ∈ tree.nodes,
    (∃ attr value, node.attr? attr = some value) ∨ ∃ owner, node.parent = some owner

theorem begunFilled {tree : Devicetree} (begun : Begun tree) {node : Node} (member : node ∈ tree.nodes) :
    (∃ attr value, node.attr? attr = some value) ∨ ∃ owner, node.parent = some owner := by
  have known : tree.node? node.name = some node := nodeIff.mpr ⟨member, rfl⟩
  obtain ⟨place, value, owned, filled⟩ := (begun node.name).mp (known ▸ rfl)
  cases place with
  | other => contradiction
  | parent owner =>
    cases Option.some.inj owned
    rw [slot?, parent?, known] at filled
    exact .inr ⟨value, filled⟩
  | attr owner attr =>
    cases Option.some.inj owned
    rw [slot?, attr?, known] at filled
    exact .inl ⟨attr, value, filled⟩

theorem runIndexed {entries : List (String × String)} (few : entries.length < UInt32.size) :
    Indexed entries (entries.foldl add {}) := by
  have small := Nat.lt_of_le_of_lt (sizeRun entries) few
  have arranged := arrangedRun entries
  rw [← nodeNames] at arranged
  constructor
  · intro node member
    obtain ⟨_, _, mentions⟩ := (arranged.all node.name).mp (List.mem_map_of_mem member)
    exact mentions.1
  · exact arranged.once
  · exact fun name index => indexIff small
  · rw [← nodePositions]
    exact List.map_congr_left fun node member => (indexWide small member).1
  · exact arranged
  · exact fun node member => begunFilled (begunRun begunEmpty entries) member

def Keeps (tree later : Devicetree) : Prop :=
  ∀ (index : UInt32) (node : Node), tree.at? index = some node →
    ∃ same, later.at? index = some same ∧ same.name = node.name ∧ same.index = node.index

theorem keepsNames {tree later : Devicetree} (more : tree.records.keys <+: later.records.keys) :
    Keeps tree later := by
  intro index node here
  rw [← nodeNames, ← nodeNames] at more
  obtain ⟨rest, names⟩ := more
  have named : (tree.nodes.map Node.name)[index.toNat]? = some node.name := by
    rw [List.getElem?_map]
    exact congrArg (Option.map Node.name) here
  obtain ⟨inside, _⟩ := List.getElem?_eq_some_iff.mp named
  rw [← List.getElem?_append_left inside, names, List.getElem?_map, Option.map_eq_some_iff] at named
  obtain ⟨same, there, name⟩ := named
  exact ⟨same, there, name, by rw [Node.index, Node.index, positionAt here, positionAt there]⟩

theorem keepsAdd (tree : Devicetree) (symbol : String × String) : Keeps tree (tree.add symbol) := by
  apply keepsNames
  rw [keysAdd]
  split
  · exact List.prefix_rfl
  · split
    · exact List.prefix_rfl
    · exact List.prefix_append _ _

def built (symbols : Symbols) (n : Nat) : Devicetree := (symbols.toList.take n).foldl add {}

theorem builtAll (symbols : Symbols) : built symbols symbols.size = ofSymbols symbols := by
  rw [built, List.take_of_length_le]
  · rfl
  · exact Nat.le_of_eq Array.length_toList

theorem builtKeeps (symbols : Symbols) (n : Nat) : Keeps (built symbols n) (built symbols (n + 1)) := by
  rw [built, built, List.take_add_one, List.foldl_append]
  cases symbols.toList[n]? with
  | none => exact keepsNames List.prefix_rfl
  | some symbol => exact keepsAdd _ symbol

end Greybus.Devicetree
