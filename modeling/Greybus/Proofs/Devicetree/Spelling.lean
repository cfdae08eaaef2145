import Mathlib.Data.List.Infix
import Greybus.Devicetree.SymbolName

/-! One spelling for every place in a tree. The separators of a name may overlap
and a parent suffix goes before them, so not every attribute can be spelled; the
plain ones can, and no name spells two places. -/
namespace Greybus.Devicetree
open Text

/-- An attribute for which the last separator of a name is the one in front of it. -/
structure Plain (attr : String) : Prop where
  filled : attr ≠ ""
  uncut : ¬ separator.toList <:+: attr.toList
  apart : ¬ ['P', '_'] <+: attr.toList
  noLink : attr ≠ "PARENT"
  bare : ¬ parentSuffix.toList <:+ attr.toList

instance (attr : String) : Decidable (Plain attr) :=
  decidable_of_iff (attr ≠ "" ∧ ¬ separator.toList <:+: attr.toList ∧ ¬ ['P', '_'] <+: attr.toList ∧
      attr ≠ "PARENT" ∧ ¬ parentSuffix.toList <:+ attr.toList)
    ⟨fun ⟨filled, uncut, apart, noLink, bare⟩ => ⟨filled, uncut, apart, noLink, bare⟩,
      fun ⟨filled, uncut, apart, noLink, bare⟩ => ⟨filled, uncut, apart, noLink, bare⟩⟩

def attrSymbol (node attr : String) : String := node ++ separator ++ attr

def parentSymbol (node : String) : String := node ++ parentSuffix

theorem attrSymbolChars (node attr : String) :
    (attrSymbol node attr).toList = node.toList ++ separator.toList ++ attr.toList := by
  simp [attrSymbol]

theorem separatorChars : separator.toList = ['_', 'P', '_'] := rfl

theorem suffixChars : parentSuffix.toList = '_' :: "PARENT".toList := rfl

theorem separatorLast {node attr before after : List Char} (uncut : ¬ separator.toList <:+: attr)
    (apart : ¬ ['P', '_'] <+: attr)
    (same : node ++ separator.toList ++ attr = before ++ separator.toList ++ after) :
    before.length ≤ node.length := by
  refine Nat.le_of_not_lt fun later => ?_
  -- A later separator would begin one or two characters on, or inside the attribute.
  rw [List.append_assoc, List.append_assoc, List.append_eq_append_iff] at same
  rcases same with ⟨between, rfl, rest⟩ | ⟨between, rfl, _⟩
  · match between with
    | [] => simp at later
    | [c] => simp [separatorChars] at rest
    | [c, d] =>
      simp only [separatorChars, List.cons_append, List.nil_append, List.cons.injEq] at rest
      exact apart ⟨after, rest.2.2.2.symm⟩
    | c :: d :: e :: inner =>
      simp only [separatorChars, List.cons_append, List.nil_append, List.cons.injEq] at rest
      exact uncut ⟨inner, after, by rw [rest.2.2.2, separatorChars]; simp⟩
  · rw [List.length_append] at later
    omega

theorem suffixAfterSeparator {node attr owner : List Char}
    (same : node ++ separator.toList ++ attr = owner ++ parentSuffix.toList) :
    attr = "PARENT".toList ∨ parentSuffix.toList <:+ attr := by
  have cut : (node ++ ['_', 'P']) ++ ('_' :: attr) = owner ++ ('_' :: "PARENT".toList) := by
    simpa [separatorChars, suffixChars] using same
  -- The suffix can only begin at the last underscore of the separator, or later.
  rw [List.append_eq_append_iff] at cut
  rcases cut with ⟨between, _, rest⟩ | ⟨between, _, rest⟩
  · cases between with
    | nil => exact .inl (List.cons.inj rest).2
    | cons c inner => exact .inr ⟨inner, by rw [suffixChars]; exact (List.cons.inj rest).2.symm⟩
  · cases between with
    | nil => exact .inl (List.cons.inj rest).2.symm
    | cons c inner =>
      have within : '_' ∈ "PARENT".toList := by
        rw [(List.cons.inj rest).2]
        simp
      exact absurd within (by decide)

theorem plainAttr {symbol node attr : List Char} (named : attr ≠ [])
    (noLink : ∀ owner, symbol ≠ owner ++ parentSuffix.toList)
    (parts : symbol = node ++ separator.toList ++ attr)
    (latest : ∀ before after, symbol = before ++ separator.toList ++ after →
      before.length ≤ node.length) : Plain (String.ofList attr) := by
  subst parts
  constructor
  · simpa using named
  · intro h
    obtain ⟨inner, after, split⟩ := h
    rw [String.toList_ofList] at split
    have bound := latest (node ++ separator.toList ++ inner) after (by simp [← split])
    simp only [List.length_append, separatorChars, List.length_cons] at bound
    omega
  · intro h
    obtain ⟨after, split⟩ := h
    rw [String.toList_ofList] at split
    have bound := latest (node ++ ['_', 'P']) after (by simp [← split, separatorChars])
    simp only [List.length_append, List.length_cons] at bound
    omega
  · intro link
    have chars : attr = "PARENT".toList := by simpa using congrArg String.toList link
    exact noLink (node ++ ['_', 'P']) (by simp [chars, separatorChars, suffixChars])
  · intro h
    obtain ⟨inner, split⟩ := h
    rw [String.toList_ofList] at split
    exact noLink (node ++ separator.toList ++ inner) (by simp [← split])

theorem attrSpelled {symbol node attr : String} :
    SymbolName.ofString symbol = .attr node attr ↔
      node ≠ "" ∧ Plain attr ∧ symbol = attrSymbol node attr := by
  rw [SymbolName.attrIff, cutLastIff]
  constructor
  · intro h
    obtain ⟨owned, named, noParent, parts, latest⟩ := h
    have noLink (owner : List Char) : symbol.toList ≠ owner ++ parentSuffix.toList := fun same =>
      noParent (String.ofList owner) (String.toList_inj.mp (by simpa using same))
    have plain := plainAttr (by simpa using named) noLink parts latest
    rw [String.ofList_toList] at plain
    exact ⟨owned, plain, String.toList_inj.mp (parts.trans (attrSymbolChars node attr).symm)⟩
  · intro h
    obtain ⟨owned, plain, rfl⟩ := h
    refine ⟨owned, plain.filled, ?_, attrSymbolChars node attr, ?_⟩
    · intro owner same
      have chars := congrArg String.toList same
      rw [attrSymbolChars, String.toList_append] at chars
      rcases suffixAfterSeparator chars with link | ends
      · exact plain.noLink (String.toList_inj.mp link)
      · exact plain.bare ends
    · intro before after split
      rw [attrSymbolChars] at split
      exact separatorLast plain.uncut plain.apart split

theorem spelledOnce {left right : String} (same : SymbolName.ofString left = SymbolName.ofString right)
    (shaped : SymbolName.ofString left ≠ .other) : left = right := by
  cases place : SymbolName.ofString left with
  | other => exact absurd place shaped
  | parent node =>
    rw [(SymbolName.parentIff.mp place).2, (SymbolName.parentIff.mp (same.symm.trans place)).2]
  | attr node name =>
    rw [(attrSpelled.mp place).2.2, (attrSpelled.mp (same.symm.trans place)).2.2]

end Greybus.Devicetree
