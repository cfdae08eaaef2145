import Greybus.Text.Cut

/-! What the name of a symbol says. A name that ends in the parent suffix is the
parent link of the node before it, so a node may have the separator in its own
name. Any other name is cut at its last separator into a node and an attribute.
A name that would leave a node or an attribute without a name says nothing. -/
namespace Greybus.Devicetree
open Text

def separator : String := "_P_"

def parentSuffix : String := "_PARENT"

inductive SymbolName where
  | parent (node : String)
  | attr (node name : String)
  | other
  deriving DecidableEq, Repr

namespace SymbolName

def ofChars (name : List Char) : SymbolName :=
  match before? parentSuffix.toList name with
  | some node => if node.isEmpty then .other else .parent (String.ofList node)
  | none =>
    match cutLast? separator.toList name with
    | some (left, right) =>
      if left.isEmpty || right.isEmpty then .other
      else .attr (String.ofList left) (String.ofList right)
    | none => .other

def ofString (name : String) : SymbolName := ofChars name.toList

theorem ofParent {node : String} (named : node ≠ "") : ofString (node ++ parentSuffix) = .parent node := by
  have found := beforeIff.mpr (String.toList_append (s := node) (t := parentSuffix))
  have filled : node.toList ≠ [] := by simpa using named
  rw [ofString, ofChars, found]
  simp [filled]

theorem parentIff {name node : String} :
    ofString name = .parent node ↔ node ≠ "" ∧ name = node ++ parentSuffix := by
  constructor
  · intro h
    simp only [ofString, ofChars] at h
    split at h
    · rename_i rest found
      split at h
      · contradiction
      · rename_i named
        cases h
        refine ⟨by simpa using named, String.toList_inj.mp ?_⟩
        rw [beforeIff.mp found, String.toList_append, String.toList_ofList]
    · split at h
      · split at h <;> contradiction
      · contradiction
  · intro h
    obtain ⟨named, rfl⟩ := h
    exact ofParent named

theorem attrIff {symbol node name : String} :
    ofString symbol = .attr node name ↔
      node ≠ "" ∧ name ≠ "" ∧ (∀ owner, symbol ≠ owner ++ parentSuffix) ∧
        cutLast? separator.toList symbol.toList = some (node.toList, name.toList) := by
  simp only [ofString, ofChars]
  split
  · rename_i rest found
    have same : symbol = String.ofList rest ++ parentSuffix :=
      String.toList_inj.mp (by rw [beforeIff.mp found, String.toList_append, String.toList_ofList])
    constructor
    · intro h
      split at h <;> contradiction
    · intro h
      obtain ⟨_, _, bare, _⟩ := h
      exact absurd same (bare _)
  · rename_i absent
    have bare : ∀ owner, symbol ≠ owner ++ parentSuffix := by
      rintro owner rfl
      rw [beforeIff.mpr (String.toList_append (s := owner) (t := parentSuffix))] at absent
      contradiction
    split
    · rename_i left right found
      rw [found]
      constructor
      · intro h
        split at h
        · contradiction
        · rename_i named
          cases h
          simp only [Bool.or_eq_true, List.isEmpty_iff, not_or] at named
          exact ⟨by simpa using named.1, by simpa using named.2, bare, by simp⟩
      · intro h
        obtain ⟨owned, named, _, same⟩ := h
        cases same
        simp [owned, named]
    · rename_i none
      simp [none]

end SymbolName
end Greybus.Devicetree
