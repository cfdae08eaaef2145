import Greybus.Proofs.Layout.Indexing
import Greybus.Proofs.Table.Arena

/-! Tables, trees and layouts with indices of 32 bits. As long as there are fewer than 2^32
symbols, every table, tree and layout is the same whether positions are kept in 32 bits or
without a bound, so what is said of the one holds of the other. -/
namespace Greybus
open Devicetree
open Lookup (settled)

namespace Devicetree

def addRecord (records : Arena String Properties) (symbol : String × String) :
    Option (Arena String Properties) :=
  match SymbolName.ofString symbol.1 with
  | .parent node => records.alter node fun record => { record.getD {} with parent := some symbol.2 }
  | .attr node name => records.alter node fun record =>
    let present := record.getD {}
    { present with attrs := present.attrs.insert name symbol.2 }
  | .other => some records

def ofArena (symbols : Arena String String) : Option (Arena String Properties) :=
  symbols.entries.toList.foldlM addRecord {}

theorem arenaAdd {tree : Devicetree} (few : tree.size < UInt32.size) (symbol : String × String) :
    addRecord tree.records.arena symbol = some (tree.add symbol).records.arena := by
  rw [addRecord, add]
  cases SymbolName.ofString symbol.1 with
  | parent node => exact Table.arenaAlter few _ _
  | attr node name => exact Table.arenaAlter few _ _
  | other => rfl

theorem arenaRun {entries : List (String × String)} (few : entries.length < UInt32.size) :
    entries.foldlM addRecord {} = some (entries.foldl add {}).records.arena := by
  induction entries using List.reverseRecOn with
  | nil => exact congrArg some Table.arenaEmpty.symm
  | append_singleton before symbol ih =>
    rw [List.length_append] at few
    have few' := Nat.lt_of_le_of_lt (Nat.le_add_right _ _) few
    have small := Nat.lt_of_le_of_lt (sizeRun before) few'
    rw [List.foldlM_append, ih few', List.foldl_append]
    simp only [List.foldlM_cons, List.foldlM_nil, Option.bind_eq_bind, Option.bind_some,
      arenaAdd small, bind_pure]
    rfl

end Devicetree

structure Header.Wide (entries : List (String × String)) (symbols : Header.Symbols) : Prop where
  table : Arena.ofList entries = some symbols.arena
  get : ∀ name, symbols.arena.get name = some (symbols.get? name)
  tree : Devicetree.ofArena symbols.arena = some (Devicetree.ofSymbols symbols).records.arena
  index : ∀ node, (Devicetree.ofSymbols symbols).records.arena.index[node]? =
    (Devicetree.ofSymbols symbols).indexOf? node
  layout : Layout.byIndices (Devicetree.ofSymbols symbols) = settled (Layout.ofSymbols symbols)

theorem Header.symbolsWide {entries : List (String × String)}
    (few : (Table.ofList entries).size < UInt32.size) : Wide entries (Table.ofList entries) := by
  have listed : (Table.ofList entries).toList.length < UInt32.size := by
    simpa [Table.toList, Table.size] using few
  have small := Nat.lt_of_le_of_lt (sizeRun (Table.ofList entries).toList) listed
  exact
    { table := Table.arenaOfList few
      get := Table.arenaGet few
      tree := arenaRun listed
      index := Table.arenaIndex _
      layout := Layout.indicesSettled (treeBounded small) }

end Greybus
