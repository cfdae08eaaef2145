import Greybus.Proofs.Layout.Entries
import Greybus.Proofs.Text.Numeral

/-! What symbols state about nodes, asked by the names of symbols and without a tree.
A tree that was made from the symbols answers the same for every named node, and
nothing for a node without a name. -/
namespace Greybus.Devicetree
open Header (Symbols)
open Text.Number (Spells)

def said? (symbols : Symbols) (node attr : String) : Option String :=
  symbols.get? (node ++ "_P_" ++ attr)

def owner? (symbols : Symbols) (node : String) : Option String := symbols.get? (node ++ "_PARENT")

def Counts (symbols : Symbols) (node attr : String) (n : Nat) : Prop :=
  ∃ value, said? symbols node attr = some value ∧ Spells value.toList n

def OfKind (symbols : Symbols) (kind : Kind) (node : String) : Prop :=
  node ≠ "" ∧ ∃ compatible ∈ kind.compatibles, said? symbols node Binding.compatible = some compatible

def Sole (symbols : Symbols) (node : String) : Prop :=
  ∀ other, OfKind symbols .interface other ↔ other = node

instance (symbols : Symbols) (kind : Kind) (node : String) : Decidable (OfKind symbols kind node) :=
  inferInstanceAs (Decidable (_ ∧ ∃ _ ∈ _, _ = _))

variable {symbols : Symbols} {node attr : String}

theorem attrSaid (bound : attr ∈ Binding.all) {value : String} :
    (ofSymbols symbols).attr? node attr = some value ↔
      node ≠ "" ∧ said? symbols node attr = some value := by
  rw [attrGet]
  exact and_congr_right fun _ => and_iff_right (boundPlain attr bound)

theorem attrNamed (named : node ≠ "") (bound : attr ∈ Binding.all) :
    (ofSymbols symbols).attr? node attr = said? symbols node attr := by
  apply Option.ext
  intro value
  rw [attrSaid bound, and_iff_right named]

theorem ownerSaid {owner : String} :
    (ofSymbols symbols).parent? node = some owner ↔ node ≠ "" ∧ owner? symbols node = some owner :=
  parentGet

theorem numberSaid {ν : Type} {read : String → Except Text.Number.Fault ν} {value : ν → Nat}
    (reads : ∀ {text : String} {n : ν}, read text = .ok n ↔ Spells text.toList (value n))
    (bound : attr ∈ Binding.all) {n : ν} :
    (ofSymbols symbols).number? read node attr = some n ↔
      node ≠ "" ∧ Counts symbols node attr (value n) := by
  simp only [number?, Option.bind_eq_some_iff, attrSaid bound, toOptionIff, reads, Counts]
  constructor
  · intro h
    obtain ⟨written, ⟨named, found⟩, spelled⟩ := h
    exact ⟨named, written, found, spelled⟩
  · intro h
    obtain ⟨named, written, found, spelled⟩ := h
    exact ⟨written, ⟨named, found⟩, spelled⟩

theorem byteSaid (bound : attr ∈ Binding.all) {n : UInt8} :
    (ofSymbols symbols).byte? node attr = some n ↔ node ≠ "" ∧ Counts symbols node attr n.toNat :=
  numberSaid Text.Number.readByteIff bound

theorem wordSaid (bound : attr ∈ Binding.all) {n : UInt16} :
    (ofSymbols symbols).word? node attr = some n ↔ node ≠ "" ∧ Counts symbols node attr n.toNat :=
  numberSaid Text.Number.readWordIff bound

theorem kindSaid {kind : Kind} : node ∈ (ofSymbols symbols).namesOf kind ↔ OfKind symbols kind node := by
  simp (disch := decide) only [kindNamed, Option.bind_eq_some_iff, attrSaid, Kind.ofCompatibleIff]
  constructor
  · intro h
    obtain ⟨compatible, ⟨named, found⟩, listed⟩ := h
    exact ⟨named, compatible, listed, found⟩
  · intro h
    obtain ⟨named, compatible, listed, found⟩ := h
    exact ⟨compatible, ⟨named, found⟩, listed⟩

def mentioned (symbols : Symbols) : List String :=
  (symbols.toList.filterMap fun symbol => (SymbolName.ofString symbol.1).node?).eraseDups

theorem keysAdd (tree : Devicetree) (symbol : String × String) :
    (tree.add symbol).records.keys = match (SymbolName.ofString symbol.1).node? with
      | none => tree.records.keys
      | some node => if node ∈ tree.records.keys then tree.records.keys
        else tree.records.keys ++ [node] := by
  unfold add
  cases SymbolName.ofString symbol.1 with
  | other => rfl
  | parent node => exact Table.keysAlter tree.records node _
  | attr node name => exact Table.keysAlter tree.records node _

theorem keysRun (entries : List (String × String)) : (entries.foldl add {}).records.keys =
    (entries.filterMap fun symbol => (SymbolName.ofString symbol.1).node?).eraseDups := by
  induction entries using List.reverseRecOn with
  | nil => rfl
  | append_singleton before symbol ih =>
    rw [List.foldl_append, List.foldl_cons, List.foldl_nil, keysAdd, List.filterMap_append, ih]
    cases found : (SymbolName.ofString symbol.1).node? with
    | none => simp [found]
    | some node =>
      have last : [symbol].filterMap (fun symbol => (SymbolName.ofString symbol.1).node?) = [node] := by
        simp [found]
      rw [last, Table.distinctNext]
      simp only [List.mem_eraseDups]

theorem nodesMentioned (symbols : Symbols) :
    (ofSymbols symbols).nodes.map Node.name = mentioned symbols := by
  rw [nodeNames]
  exact keysRun symbols.toList

theorem nodeKnown {name : String} :
    ((ofSymbols symbols).node? name).isSome ↔ name ∈ mentioned symbols := by
  simp [← nodesMentioned, Option.isSome_iff_exists, nodeIff]

def nodesOf (symbols : Symbols) (kind : Kind) : List String :=
  (mentioned symbols).filter fun node => OfKind symbols kind node

theorem kindMentioned (symbols : Symbols) (kind : Kind) :
    (ofSymbols symbols).namesOf kind = nodesOf symbols kind := by
  rw [nodesOf, ← nodesMentioned, List.filter_map, namesOf, ofKind]
  congr 1
  apply List.filter_congr
  intro node member
  have named : (ofSymbols symbols).attr? node.name Binding.compatible = node.compatible? := by
    rw [attr?, nodeNamed member]
    rfl
  simp only [Function.comp_apply, decide_eq_decide, ← kindSaid, kindNamed, named]
  rfl

theorem nodesIff {kind : Kind} : node ∈ nodesOf symbols kind ↔ OfKind symbols kind node := by
  rw [← kindMentioned, kindSaid]

theorem nodesNodup (symbols : Symbols) (kind : Kind) : (nodesOf symbols kind).Nodup := by
  rw [← kindMentioned]
  exact kindNodup _ kind

end Greybus.Devicetree
