import Greybus.Proofs.Layout.Entries

/-! Which symbols a layout depends on. Only the parent links and the bound attributes
of nodes count. Where two headers agree on these, either both have a layout or
neither has; the layouts have the same ids, and they are one unless an id is given
twice, for then the place of a node decides. -/
namespace Greybus
open Header (Symbols)

namespace Devicetree

def Relevant (name : String) : Prop :=
  (∃ node, name = node ++ "_PARENT") ∨ ∃ node, ∃ attr ∈ Binding.all, name = node ++ "_P_" ++ attr

theorem relevantIff {name : String} :
    Relevant name ↔ parentSuffix.toList <:+ name.toList ∨
      ∃ attr ∈ Binding.all, (separator ++ attr).toList <:+ name.toList := by
  have ends (suffix : String) : suffix.toList <:+ name.toList ↔ ∃ node, name = node ++ suffix := by
    constructor
    · intro h
      obtain ⟨node, same⟩ := h
      exact ⟨String.ofList node, String.toList_inj.mp (by simp [← same])⟩
    · intro h
      obtain ⟨node, rfl⟩ := h
      exact ⟨node.toList, by simp⟩
  simp only [ends, Relevant]
  constructor
  · intro h
    rcases h with parent | ⟨node, attr, bound, rfl⟩
    · exact .inl parent
    · exact .inr ⟨attr, bound, node, String.append_assoc⟩
  · intro h
    rcases h with parent | ⟨attr, bound, node, rfl⟩
    · exact .inl parent
    · exact .inr ⟨node, attr, bound, String.append_assoc.symm⟩

instance : DecidablePred Relevant := fun _ => decidable_of_iff _ relevantIff.symm

theorem agreeSymbols {s t : Symbols} (same : (s.toList.filter fun symbol => Relevant symbol.1).Perm
      (t.toList.filter fun symbol => Relevant symbol.1)) :
    ∀ name, Relevant name → s.get? name = t.get? name := by
  intro name relevant
  apply Option.ext
  intro value
  have member := same.mem_iff (a := (name, value))
  simpa [relevant, Table.getIff] using member

structure Alike (s t : Devicetree) : Prop where
  attr : ∀ node, ∀ name ∈ Binding.all, s.attr? node name = t.attr? node name
  parent : ∀ node, s.parent? node = t.parent? node

theorem alikeSymbols {s t : Symbols} (agree : ∀ name, Relevant name → s.get? name = t.get? name) :
    Alike (ofSymbols s) (ofSymbols t) := by
  constructor
  · intro node name bound
    apply Option.ext
    intro value
    rw [attrGet, attrGet, agree (attrSymbol node name) (.inr ⟨node, name, bound, rfl⟩)]
  · intro node
    apply Option.ext
    intro value
    rw [parentGet, parentGet, agree (parentSymbol node) (.inl ⟨node, rfl⟩)]

theorem Alike.symm {s t : Devicetree} (alike : Alike s t) : Alike t s :=
  ⟨fun node name bound => (alike.attr node name bound).symm, fun node => (alike.parent node).symm⟩

section
variable {s t : Devicetree} (alike : Alike s t)
include alike

theorem Alike.number {ν : Type} (read : String → Except Text.Number.Fault ν) (node : String)
    {name : String} (bound : name ∈ Binding.all) : s.number? read node name = t.number? read node name := by
  rw [number?, number?, alike.attr node name bound]

theorem Alike.id {ν : Type} (read : String → Except Text.Number.Fault ν) (node : String) :
    s.number? read node Binding.id = t.number? read node Binding.id :=
  alike.number read node (by decide)

theorem Alike.interface : Interface.at? s = Interface.at? t := by
  funext node
  simp only [Interface.at?, byte?, alike.attr _ Binding.vendorHandle (by decide),
    alike.attr _ Binding.productHandle (by decide), alike.id]

theorem Alike.string (owner : Option Interface) : StringEntry.at? s owner = StringEntry.at? t owner := by
  funext node
  simp only [StringEntry.at?, byte?, alike.attr _ Binding.text (by decide), alike.id]

theorem Alike.bundle : Bundle.at? s = Bundle.at? t := by
  funext node
  have code : Binding.bundleClass ∈ Binding.all := by decide
  simp only [Bundle.at?, byte?, alike.number _ _ code, alike.id]

theorem Alike.cport : CPort.at? s = CPort.at? t := by
  funext node
  have code : Binding.protocol ∈ Binding.all := by decide
  simp only [CPort.at?, byte?, word?, alike.parent, alike.number _ _ code, alike.id]

theorem Alike.names (kind : Kind) : (s.namesOf kind).Perm (t.namesOf kind) := by
  rw [List.perm_ext_iff_of_nodup (kindNodup s kind) (kindNodup t kind)]
  intro name
  rw [kindNamed, kindNamed, alike.attr name Binding.compatible (by decide)]

end
end Devicetree

namespace Layout
open Devicetree

theorem soundAlike {s t : Devicetree} (alike : Alike s t) (sound : Sound s) : Sound t where
  single := (alike.names .interface).length_eq ▸ sound.single
  interface node member :=
    alike.interface ▸ sound.interface node ((alike.names .interface).mem_iff.mpr member)
  strings node member :=
    alike.string none ▸ sound.strings node ((alike.names .string).mem_iff.mpr member)
  bundles node member :=
    alike.bundle ▸ sound.bundles node ((alike.names .bundle).mem_iff.mpr member)
  cports node member :=
    alike.cport ▸ sound.cports node ((alike.names .cport).mem_iff.mpr member)

theorem interfaceAlike {s t : Devicetree} (alike : Alike s t) (sound : Sound s) :
    (gather s).interface = (gather t).interface := by
  have names := alike.names .interface
  have same : s.namesOf .interface = t.namesOf .interface := by
    have few := sound.single
    cases nodes : s.namesOf .interface with
    | nil => exact (List.nil_perm.mp (nodes ▸ names)).symm
    | cons node rest =>
      have alone : rest = [] := by
        rw [nodes, List.length_cons] at few
        exact List.eq_nil_of_length_eq_zero (by omega)
      subst alone
      exact List.singleton_perm.mp (nodes ▸ names)
  simp only [gather, same, alike.interface]

def Distinct {κ : Type} (names : List String) (id? : String → Option κ) : Prop :=
  ∀ p ∈ names, ∀ q ∈ names, (id? p).isSome → id? p = id? q → p = q

instance {κ : Type} [DecidableEq κ] (names : List String) (id? : String → Option κ) :
    Decidable (Distinct names id?) := by
  unfold Distinct
  infer_instance

section
variable {κ α : Type} [Ord κ] [Std.TransOrd κ] [Std.LawfulEqOrd κ] [DecidableEq κ]
  {key : α → κ} {find : String → Option α} {xs ys : List String}

theorem keysPermuted (order : xs.Perm ys) {k : κ} :
    k ∈ byKey key (xs.filterMap find) ↔ k ∈ byKey key (ys.filterMap find) := by
  simp only [byKeyMem, (order.filterMap find).mem_iff]

theorem entriesPermuted (order : xs.Perm ys) {id? : String → Option κ}
    (keyed : ∀ node entry, find node = some entry → id? node = some (key entry))
    (distinct : Distinct xs id?) :
    byKey key (xs.filterMap find) = byKey key (ys.filterMap find) := by
  have entries := order.filterMap find
  have unique : ∀ a ∈ xs.filterMap find, ∀ b ∈ xs.filterMap find, key a = key b → a = b := by
    intro a first b second same
    obtain ⟨p, inside, found⟩ := List.mem_filterMap.mp first
    obtain ⟨q, inside', found'⟩ := List.mem_filterMap.mp second
    have left := keyed p a found
    have right := keyed q b found'
    rw [distinct p inside q inside' (left ▸ rfl) (by rw [left, right, same])] at found
    exact Option.some.inj (found.symm.trans found')
  apply Std.ExtTreeMap.ext_getElem?
  intro k
  apply Option.ext
  intro entry
  rw [byKeyGet unique, byKeyGet fun a first b second =>
    unique a (entries.mem_iff.mpr first) b (entries.mem_iff.mpr second), entries.mem_iff]

end

structure DistinctIds (tree : Devicetree) : Prop where
  strings : Distinct (tree.namesOf .string) fun node => tree.byte? node Binding.id
  bundles : Distinct (tree.namesOf .bundle) fun node => tree.byte? node Binding.id
  cports : Distinct (tree.namesOf .cport) fun node => tree.word? node Binding.id

instance (tree : Devicetree) : Decidable (DistinctIds tree) :=
  decidable_of_iff (Distinct (tree.namesOf .string) (fun node => tree.byte? node Binding.id) ∧
      Distinct (tree.namesOf .bundle) (fun node => tree.byte? node Binding.id) ∧
      Distinct (tree.namesOf .cport) fun node => tree.word? node Binding.id)
    ⟨fun ⟨strings, bundles, cports⟩ => ⟨strings, bundles, cports⟩,
      fun ⟨strings, bundles, cports⟩ => ⟨strings, bundles, cports⟩⟩

theorem gatherAlike {s t : Devicetree} (alike : Alike s t) (sound : Sound s)
    (distinct : DistinctIds s) : gather s = gather t := by
  have interface := interfaceAlike alike sound
  simp only [gather] at interface ⊢
  rw [← interface, ← alike.string, ← alike.bundle, ← alike.cport,
    entriesPermuted (alike.names .string) (fun _ _ => StringEntry.atId) distinct.strings,
    entriesPermuted (alike.names .bundle) (fun _ _ => Bundle.atId) distinct.bundles,
    entriesPermuted (alike.names .cport) (fun _ _ => CPort.atId) distinct.cports]

theorem relevantSymbols {s t : Symbols}
    (agree : ∀ name, Relevant name → s.get? name = t.get? name) :
    ((∃ layout, ofSymbols s = .ok layout) ↔ ∃ layout, ofSymbols t = .ok layout) ∧
    ∀ left right : Layout, ofSymbols s = .ok left → ofSymbols t = .ok right →
      left.interface = right.interface ∧
      (∀ id, id ∈ left.strings ↔ id ∈ right.strings) ∧
      (∀ id, id ∈ left.bundles ↔ id ∈ right.bundles) ∧
      (∀ id, id ∈ left.cports ↔ id ∈ right.cports) ∧
      (DistinctIds (Devicetree.ofSymbols s) → left = right) := by
  have alike := alikeSymbols agree
  simp only [ofSymbols, readIff]
  constructor
  · constructor
    · intro h
      obtain ⟨layout, sound, _⟩ := h
      exact ⟨_, soundAlike alike sound, rfl⟩
    · intro h
      obtain ⟨layout, sound, _⟩ := h
      exact ⟨_, soundAlike alike.symm sound, rfl⟩
  · intro left right one other
    obtain ⟨sound, rfl⟩ := one
    obtain ⟨_, rfl⟩ := other
    have interface := interfaceAlike alike sound
    refine ⟨interface, ?_, ?_, ?_, gatherAlike alike sound⟩
    · intro id
      simp only [gather] at interface ⊢
      rw [← interface, ← alike.string]
      exact keysPermuted (alike.names .string)
    · intro id
      simp only [gather]
      rw [← alike.bundle]
      exact keysPermuted (alike.names .bundle)
    · intro id
      simp only [gather]
      rw [← alike.cport]
      exact keysPermuted (alike.names .cport)

theorem relevantSymbolsMixed :
    let s : Symbols := Table.ofList
      [("a_P_compatible_IDX_0", "\"zephyr,greybus-bundle\""), ("a_P_id", "1"),
       ("a_P_bundle_class", "8"), ("b_P_compatible_IDX_0", "\"zephyr,greybus-bundle\""),
       ("b_P_id", "2"), ("b_P_bundle_class", "9")]
    let t : Symbols := Table.ofList
      [("b_P_status", "okay"), ("b_P_id", "2"), ("a_ORD", "7"), ("a_P_bundle_class", "8"),
       ("b_P_compatible_IDX_0", "\"zephyr,greybus-bundle\""), ("c_P_reg", "0"), ("a_P_id", "1"),
       ("b_P_bundle_class", "9"), ("a_P_compatible_IDX_0", "\"zephyr,greybus-bundle\"")]
    (∀ name, Relevant name → s.get? name = t.get? name) ∧
      DistinctIds (Devicetree.ofSymbols s) ∧
      ∃ layout, ofSymbols s = .ok layout ∧ ofSymbols t = .ok layout ∧
        layout.descriptors = [.bundle ⟨1, 8⟩, .bundle ⟨2, 9⟩] := by
  intro s t
  have agree : ∀ name, Relevant name → s.get? name = t.get? name := agreeSymbols (by decide +kernel)
  have distinct : DistinctIds (Devicetree.ofSymbols s) := by decide +kernel
  have entries : (ofSymbols s).toOption.map descriptors = some [.bundle ⟨1, 8⟩, .bundle ⟨2, 9⟩] := by
    decide +kernel
  obtain ⟨left, found, listed⟩ := Option.map_eq_some_iff.mp entries
  rw [toOptionIff] at found
  obtain ⟨both, content⟩ := relevantSymbols agree
  obtain ⟨right, other⟩ := both.mp ⟨left, found⟩
  obtain rfl := (content left right found other).2.2.2.2 distinct
  exact ⟨agree, distinct, left, found, other, listed⟩

end Layout
end Greybus
