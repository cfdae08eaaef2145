import Mathlib.Data.List.Induction
import Mathlib.Data.List.Nodup
import Greybus.Devicetree.Lemmas
import Greybus.Proofs.Devicetree.Spelling

/-! A tree says of its nodes what the symbols say, and nothing else. Each symbol
that belongs to a node fills one slot of that node, no two fill the same one, and
a node is there exactly when one of its slots is filled. -/
namespace Greybus.Devicetree
open Header (Symbols)

def attr? (tree : Devicetree) (node name : String) : Option String :=
  (tree.node? node).bind fun found => found.attr? name

def parent? (tree : Devicetree) (node : String) : Option String :=
  (tree.node? node).bind fun found => found.parent

namespace SymbolName

def node? : SymbolName → Option String
  | .parent node => some node
  | .attr node _ => some node
  | .other => none

theorem placed {place : SymbolName} {node : String} (owned : place.node? = some node) :
    place ≠ .other := by
  intro other
  simp [other, node?] at owned

end SymbolName

def slot? (tree : Devicetree) : SymbolName → Option String
  | .parent node => tree.parent? node
  | .attr node name => tree.attr? node name
  | .other => none

theorem attrRecord (tree : Devicetree) (node name : String) :
    tree.attr? node name = (tree.records.get? node).bind fun record => record.attrs.get? name := by
  rw [← nodeRecord, Option.bind_map]
  rfl

theorem parentRecord (tree : Devicetree) (node : String) :
    tree.parent? node = (tree.records.get? node).bind Properties.parent := by
  rw [← nodeRecord, Option.bind_map]
  rfl

theorem nodeIsRecord (tree : Devicetree) (node : String) :
    (tree.node? node).isSome = (tree.records.get? node).isSome := by
  rw [← nodeRecord, Option.isSome_map]

theorem blankRecord (read : Properties → Option String) (blank : read {} = none)
    (record : Option Properties) : read (record.getD {}) = record.bind read := by
  cases record with
  | none => exact blank
  | some present => rfl

theorem keptByUpdate (read : Properties → Option String) {change : Properties → Properties}
    (blank : read {} = none) (keeps : ∀ record, read (change record) = read record)
    (tree : Devicetree) (node other : String) :
    ((tree.update node change).records.get? other).bind read =
      (tree.records.get? other).bind read := by
  rw [recordUpdate]
  split
  · rename_i same
    rw [Option.bind_some, keeps, blankRecord read blank, same]
  · rfl

theorem slotAdd (tree : Devicetree) (symbol : String × String) {place : SymbolName}
    (kept : place ≠ .other) :
    (tree.add symbol).slot? place =
      if SymbolName.ofString symbol.1 = place then some symbol.2 else tree.slot? place := by
  unfold add
  cases SymbolName.ofString symbol.1 with
  | other => rw [if_neg kept.symm]
  | parent node =>
    cases place with
    | other => contradiction
    | parent other =>
      simp only [slot?, parentRecord, recordUpdate, SymbolName.parent.injEq]
      split <;> rfl
    | attr other name =>
      simp only [slot?, attrRecord, reduceCtorEq, if_false]
      apply keptByUpdate fun record => record.attrs.get? name
      · exact Table.getEmpty name
      · intro record
        rfl
  | attr node name =>
    cases place with
    | other => contradiction
    | parent other =>
      simp only [slot?, parentRecord, reduceCtorEq, if_false]
      apply keptByUpdate
      · rfl
      · intro record
        rfl
    | attr other attr =>
      simp only [slot?, attrRecord, recordUpdate, SymbolName.attr.injEq]
      by_cases same : node = other
      · subst same
        have read := blankRecord (fun record => record.attrs.get? attr) (Table.getEmpty attr)
          (tree.records.get? node)
        simp [Table.getInsert, ← read]
      · simp [same]

theorem slotEmpty (place : SymbolName) : slot? {} place = none := by
  cases place <;> rfl

theorem slotRun {entries : List (String × String)} (unique : (entries.map Prod.fst).Nodup)
    {place : SymbolName} (kept : place ≠ .other) {value : String} :
    (entries.foldl add {}).slot? place = some value ↔
      ∃ name, SymbolName.ofString name = place ∧ (name, value) ∈ entries := by
  induction entries using List.reverseRecOn with
  | nil => simp [slotEmpty]
  | append_singleton before symbol ih =>
    rw [List.map_append, List.nodup_append] at unique
    obtain ⟨earlier, _, fresh⟩ := unique
    rw [List.foldl_append, List.foldl_cons, List.foldl_nil, slotAdd _ _ kept]
    split
    · rename_i named
      constructor
      · intro filled
        cases filled
        exact ⟨symbol.1, named, by simp⟩
      · intro h
        obtain ⟨name, named', member⟩ := h
        have same := spelledOnce (named'.trans named.symm) (named' ▸ kept)
        subst same
        rcases List.mem_append.mp member with old | new
        · exact absurd rfl (fresh symbol.1 (List.mem_map.mpr ⟨_, old, rfl⟩) symbol.1 (by simp))
        · rw [← List.mem_singleton.mp new]
    · rename_i unnamed
      rw [ih earlier]
      constructor
      · intro h
        obtain ⟨name, named, member⟩ := h
        exact ⟨name, named, List.mem_append_left _ member⟩
      · intro h
        obtain ⟨name, named, member⟩ := h
        rcases List.mem_append.mp member with old | new
        · exact ⟨name, named, old⟩
        · cases List.mem_singleton.mp new
          exact absurd named unnamed

theorem slotSymbol {symbols : Symbols} {place : SymbolName} {value : String} :
    (ofSymbols symbols).slot? place = some value ↔
      place ≠ .other ∧ ∃ name, SymbolName.ofString name = place ∧ symbols.get? name = some value := by
  by_cases kept : place = .other
  · subst kept
    simp [slot?]
  · simp only [ofSymbols, slotRun symbols.keysNodup kept, Table.getIff]
    simp [kept]

theorem attrGet {symbols : Symbols} {node attr value : String} :
    (ofSymbols symbols).attr? node attr = some value ↔
      node ≠ "" ∧ Plain attr ∧ symbols.get? (attrSymbol node attr) = some value := by
  change (ofSymbols symbols).slot? (.attr node attr) = some value ↔ _
  simp only [slotSymbol, attrSpelled]
  constructor
  · intro h
    obtain ⟨_, name, ⟨owned, plain, rfl⟩, found⟩ := h
    exact ⟨owned, plain, found⟩
  · intro h
    obtain ⟨owned, plain, found⟩ := h
    exact ⟨by simp, _, ⟨owned, plain, rfl⟩, found⟩

theorem boundPlain : ∀ attr ∈ Binding.all, Plain attr := by decide +kernel

theorem parentGet {symbols : Symbols} {node value : String} :
    (ofSymbols symbols).parent? node = some value ↔
      node ≠ "" ∧ symbols.get? (parentSymbol node) = some value := by
  change (ofSymbols symbols).slot? (.parent node) = some value ↔ _
  simp only [slotSymbol, SymbolName.parentIff]
  constructor
  · intro h
    obtain ⟨_, name, ⟨owned, rfl⟩, found⟩ := h
    exact ⟨owned, found⟩
  · intro h
    obtain ⟨owned, found⟩ := h
    exact ⟨by simp, _, ⟨owned, rfl⟩, found⟩

def Begun (tree : Devicetree) : Prop :=
  ∀ node, (tree.node? node).isSome ↔
    ∃ place value, place.node? = some node ∧ tree.slot? place = some value

theorem begunEmpty : Begun {} := by
  intro node
  constructor
  · intro there
    contradiction
  · intro h
    obtain ⟨place, value, _, filled⟩ := h
    rw [slotEmpty] at filled
    contradiction

theorem nodeAdd (tree : Devicetree) (symbol : String × String) (node : String) :
    ((tree.add symbol).node? node).isSome ↔
      (SymbolName.ofString symbol.1).node? = some node ∨ (tree.node? node).isSome := by
  simp only [nodeIsRecord]
  unfold add
  cases SymbolName.ofString symbol.1 with
  | other => simp [SymbolName.node?]
  | parent owner =>
    simp only [recordUpdate, SymbolName.node?, Option.some.injEq]
    split <;> simp_all
  | attr owner name =>
    simp only [recordUpdate, SymbolName.node?, Option.some.injEq]
    split <;> simp_all

theorem begunAdd {tree : Devicetree} (begun : Begun tree) (symbol : String × String) :
    Begun (tree.add symbol) := by
  intro node
  rw [nodeAdd, begun node]
  constructor
  · intro h
    rcases h with named | ⟨place, value, owned, filled⟩
    · exact ⟨_, symbol.2, named, by rw [slotAdd _ _ (SymbolName.placed named), if_pos rfl]⟩
    · by_cases named : SymbolName.ofString symbol.1 = place
      · exact ⟨place, symbol.2, owned, by rw [slotAdd _ _ (SymbolName.placed owned), if_pos named]⟩
      · exact ⟨place, value, owned, by
          rw [slotAdd _ _ (SymbolName.placed owned), if_neg named, filled]⟩
  · intro h
    obtain ⟨place, value, owned, filled⟩ := h
    rw [slotAdd _ _ (SymbolName.placed owned)] at filled
    split at filled
    · rename_i named
      exact .inl (named ▸ owned)
    · exact .inr ⟨place, value, owned, filled⟩

theorem begunRun {tree : Devicetree} (begun : Begun tree) (entries : List (String × String)) :
    Begun (entries.foldl add tree) := by
  induction entries generalizing tree with
  | nil => exact begun
  | cons symbol rest ih => exact ih (begunAdd begun symbol)

theorem begunSymbols (symbols : Symbols) : Begun (ofSymbols symbols) :=
  begunRun begunEmpty symbols.toList

theorem nodeGet {symbols : Symbols} {node : String} :
    ((ofSymbols symbols).node? node).isSome ↔
      node ≠ "" ∧ ∃ value, (∃ attr, Plain attr ∧ symbols.get? (attrSymbol node attr) = some value) ∨
        symbols.get? (parentSymbol node) = some value := by
  rw [begunSymbols symbols node]
  constructor
  · intro h
    obtain ⟨place, value, owned, filled⟩ := h
    cases place with
    | other => contradiction
    | parent owner =>
      cases Option.some.inj owned
      obtain ⟨named, found⟩ := parentGet.mp filled
      exact ⟨named, value, .inr found⟩
    | attr owner name =>
      cases Option.some.inj owned
      obtain ⟨named, plain, found⟩ := attrGet.mp filled
      exact ⟨named, value, .inl ⟨name, plain, found⟩⟩
  · intro h
    obtain ⟨named, value, ⟨attr, plain, found⟩ | found⟩ := h
    · exact ⟨.attr node attr, value, rfl, attrGet.mpr ⟨named, plain, found⟩⟩
    · exact ⟨.parent node, value, rfl, parentGet.mpr ⟨named, found⟩⟩

def nodeSymbols (node : String) (attrs : List (String × String)) (owner : Option String) :
    List (String × String) :=
  attrs.map (fun attr => (node ++ "_P_" ++ attr.1, attr.2)) ++
    owner.toList.map fun owner => (node ++ "_PARENT", owner)

section
variable {node : String} {attrs : List (String × String)} {owner : Option String} (named : node ≠ "")
  (bound : ∀ attr ∈ attrs, attr.1 ∈ Binding.all)
include named bound

theorem nodePlace {symbol : String × String} (inside : symbol ∈ nodeSymbols node attrs owner) :
    (∃ attr, SymbolName.ofString symbol.1 = .attr node attr ∧ (attr, symbol.2) ∈ attrs) ∨
      (SymbolName.ofString symbol.1 = .parent node ∧ owner = some symbol.2) := by
  rcases List.mem_append.mp inside with said | link
  · obtain ⟨⟨attr, value⟩, listed, rfl⟩ := List.mem_map.mp said
    have plain := boundPlain attr (bound _ listed)
    exact .inl ⟨attr, attrSpelled.mpr ⟨named, plain, rfl⟩, listed⟩
  · obtain ⟨owner, linked, rfl⟩ := List.mem_map.mp link
    exact .inr ⟨SymbolName.ofParent named, Option.mem_toList.mp linked⟩

theorem nodeNodup (apart : (attrs.map Prod.fst).Nodup) :
    ((nodeSymbols node attrs owner).map Prod.fst).Nodup := by
  have places : ((nodeSymbols node attrs owner).map Prod.fst).map SymbolName.ofString =
      (attrs.map Prod.fst).map (.attr node) ++ owner.toList.map fun _ => .parent node := by
    simp only [nodeSymbols, List.map_append, List.map_map]
    congr 1
    · apply List.map_congr_left
      intro attr listed
      exact attrSpelled.mpr ⟨named, boundPlain attr.1 (bound attr listed), rfl⟩
    · apply List.map_congr_left
      intro owner linked
      exact SymbolName.ofParent named
  apply List.Nodup.of_map SymbolName.ofString
  rw [places, List.nodup_append]
  refine ⟨apart.map fun _ _ same => (SymbolName.attr.inj same).2, ?_, ?_⟩
  · cases owner <;> simp
  · intro left first right second same
    obtain ⟨attr, _, rfl⟩ := List.mem_map.mp first
    obtain ⟨_, _, rfl⟩ := List.mem_map.mp second
    contradiction

end

structure View (symbols : Symbols) (tree : Devicetree) : Prop where
  attr : ∀ p a v : String, (∃ node, tree.node? p = some node ∧ node.attr? a = some v) ↔
    p ≠ "" ∧ Plain a ∧ symbols.get? (p ++ "_P_" ++ a) = some v
  parent : ∀ p v : String, p ≠ "" →
    ((∃ node, tree.node? p = some node ∧ node.parent = some v) ↔
      symbols.get? (p ++ "_PARENT") = some v)
  node : ∀ p : String, (tree.node? p).isSome ↔ p ≠ "" ∧ ∃ v,
    (∃ a, Plain a ∧ symbols.get? (p ++ "_P_" ++ a) = some v) ∨
      symbols.get? (p ++ "_PARENT") = some v
  lands : ∀ name value : String, symbols.get? name = some value →
    SymbolName.ofString name ≠ .other → tree.slot? (SymbolName.ofString name) = some value
  alone : ∀ left right : String, SymbolName.ofString left = SymbolName.ofString right →
    SymbolName.ofString left ≠ .other → left = right
  holds : ∀ (place : SymbolName) (value : String), tree.slot? place = some value →
    ∃ name, SymbolName.ofString name = place ∧ symbols.get? name = some value
  records : (tree.nodes.map Node.name).Nodup

theorem symbolsViewed (symbols : Symbols) : View symbols (ofSymbols symbols) where
  attr p a v := by
    rw [← Option.bind_eq_some_iff]
    exact attrGet
  parent p v named := by
    rw [← Option.bind_eq_some_iff]
    exact parentGet.trans (and_iff_right named)
  node p := nodeGet
  lands name value found shaped := slotSymbol.mpr ⟨shaped, name, rfl, found⟩
  alone left right := spelledOnce
  holds place value filled := (slotSymbol.mp filled).2
  records := by
    rw [nodeNames]
    exact Table.keysNodup _

end Greybus.Devicetree
