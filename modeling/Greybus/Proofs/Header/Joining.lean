import Greybus.Header
import Greybus.Proofs.Table.Insertion

/-! Headers behind one another. The symbols of the second are written into those of the
first: what both declare keeps its place and takes the later value, and what only the
second declares comes behind all that the first does. -/
namespace Greybus.Table

universe u v
variable {κ : Type u} {α : Type v} [DecidableEq κ] [Ord κ] [Std.TransOrd κ] [Std.LawfulEqOrd κ]

theorem getInsertAll (t : Table κ α) (entries : List (κ × α)) (key : κ) :
    (t.insertAll entries).get? key = ((ofList entries).get? key).or (t.get? key) := by
  rw [insertAll, getFold, ofList, getFold, getEmpty, Option.or_none]

theorem keysInsertAll (t : Table κ α) (entries : List (κ × α)) :
    (t.insertAll entries).keys = t.keys ++ (ofList entries).keys.filter (· ∉ t.keys) := by
  -- From the end: only a key that neither the table nor an earlier entry has goes behind the rest.
  induction entries using List.reverseRecOn with
  | nil => simp [insertAll, ofList]
  | append_singleton before entry ih =>
    rw [insertAllNext, ofListNext, keysInsert, keysInsert, ih]
    by_cases old : entry.1 ∈ t.keys
    · by_cases again : entry.1 ∈ (ofList before).keys <;> simp [old, again]
    · by_cases again : entry.1 ∈ (ofList before).keys <;> simp [old, again]

theorem insertAllKept (t : Table κ α) (entries : List (κ × α)) :
    t.insertAll (ofList entries).toList = t.insertAll entries := by
  apply eqOfGet
  · rw [keysInsertAll, keysInsertAll, ofListOwn]
  · intro key
    rw [getInsertAll, getInsertAll, ofListOwn]

theorem ofListAppend (left right : List (κ × α)) :
    ofList (left ++ right) = (ofList left).insertAll (ofList right).toList := by
  rw [insertAllKept]
  exact List.foldl_append

structure Merged (first second joint : Table κ α) : Prop where
  inserted : joint = first.insertAll second.toList
  keys : joint.keys = first.keys ++ second.keys.filter (· ∉ first.keys)
  get : ∀ key, joint.get? key = (second.get? key).or (first.get? key)
  listed : joint.toList =
    first.toList.map (fun entry => (entry.1, (second.get? entry.1).getD entry.2)) ++
      second.toList.filter fun entry => entry.1 ∉ first.keys

theorem mergedInsert (first second : Table κ α) : Merged first second (first.insertAll second.toList) := by
  have keys : (first.insertAll second.toList).keys =
      first.keys ++ second.keys.filter (· ∉ first.keys) := by
    rw [keysInsertAll, ofListOwn]
  have get (key : κ) : (first.insertAll second.toList).get? key =
      (second.get? key).or (first.get? key) := by
    rw [getInsertAll, ofListOwn]
  refine ⟨rfl, keys, get, entriesListed ?_ ?_⟩
  · rw [keys, List.map_append, List.map_map, Table.keys, Table.keys, List.filter_map]
    rfl
  · intro entry member
    rw [get]
    rcases List.mem_append.mp member with old | new
    · obtain ⟨own, inside, rfl⟩ := List.mem_map.mp old
      rw [getIff.mpr inside]
      cases second.get? own.1 <;> rfl
    · rw [getIff.mpr (List.mem_filter.mp new).1, Option.some_or]

end Greybus.Table

namespace Greybus.Header
open Text

theorem joinedDeclarations (first second : String) :
    declarations (first ++ "\n" ++ second) = declarations first ++ declarations second := by
  have chars : (first ++ "\n" ++ second).toList = first.toList ++ '\n' :: second.toList := by simp
  rw [declarations, chars, splitAppend, List.filterMap_append]
  rfl

theorem joinedSymbols (first second : String) :
    Table.Merged (symbols first) (symbols second) (symbols (first ++ "\n" ++ second)) := by
  have joint : symbols (first ++ "\n" ++ second) =
      (symbols first).insertAll (symbols second).toList := by
    rw [symbols, joinedDeclarations, Table.ofListAppend]
    rfl
  rw [joint]
  exact Table.mergedInsert _ _

example : (symbols ("#define A 1\n#define B 2\n#define A" ++ "\n" ++ "#define C 3\n#define B")).toList =
    [("A", ""), ("B", ""), ("C", "3")] := by
  decide +kernel

end Greybus.Header
