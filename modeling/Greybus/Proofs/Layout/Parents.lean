import Greybus.Proofs.Source.Sections

/-! What an interface means to the strings of a layout. They are read alike for every
interface and for none: either the same defect ends the reading, or the same texts stand
under the same ids. Only the parents tell for which interface they were read, and since
no written form of a manifest tells the parents, it is the same for all of them. -/
namespace Greybus
open Devicetree

theorem mapMMap {ε α β γ : Type} (f : α → Except ε β) (change : β → γ) (xs : List α) :
    (xs.mapM fun x => (f x).map change) = (xs.mapM f).map (List.map change) := by
  induction xs with
  | nil => rfl
  | cons x xs ih =>
    rw [List.mapM_cons, List.mapM_cons, ih]
    cases f x with
    | error failure => rfl
    | ok y => cases xs.mapM f <;> rfl

namespace StringEntry

def adopt (owner : Option Interface) (entry : StringEntry) : StringEntry :=
  { entry with parent := owner.filter fun interface => interface.names entry.id }

theorem adoptNode (owner : Option Interface) (node : Node) :
    StringEntry.ofNode owner node = (StringEntry.ofNode none node).map (adopt owner) := by
  unfold StringEntry.ofNode
  cases node.byte Binding.id with
  | error defect => rfl
  | ok id => cases node.attr Binding.text <;> rfl

end StringEntry

namespace Layout

abbrev Strings := Std.ExtTreeMap UInt8 StringEntry

inductive Twins : Except Defect Strings → Except Defect Strings → Prop where
  | failed (defect : Defect) : Twins (.error defect) (.error defect)
  | found {left right : Strings} (keys : ∀ id, id ∈ left ↔ id ∈ right)
      (entries : ∀ (id : UInt8) (first second : StringEntry), left[id]? = some first →
        right[id]? = some second → first.id = second.id ∧ first.text = second.text) :
      Twins (.ok left) (.ok right)

def Parented (owner : Option Interface) (strings : Strings) : Prop :=
  ∀ (id : UInt8) (entry : StringEntry), strings[id]? = some entry → ∀ interface,
    entry.parent = some interface ↔
      owner = some interface ∧ (interface.vendor = id ∨ interface.product = id)

theorem byKeyMap {κ α : Type} [Ord κ] [Std.TransOrd κ] [Std.LawfulEqOrd κ] [DecidableEq κ] {key : α → κ}
    {change : α → α} (kept : ∀ entry, key (change entry) = key entry) (entries : List α) :
    byKey key (entries.map change) = (byKey key entries).map fun _ => change := by
  apply Std.ExtTreeMap.ext_getElem?
  intro k
  rw [Std.ExtTreeMap.getElem?_map, byKeyLast, byKeyLast, ← List.map_reverse, List.find?_map]
  simp only [Function.comp_def, kept]

def adoptAll (owner : Option Interface) (strings : Strings) : Strings :=
  strings.map fun _ => StringEntry.adopt owner

theorem readAdopted (tree : Devicetree) (owner : Option Interface) :
    readStrings tree owner = (readStrings tree none).map (adoptAll owner) := by
  have nodes : StringEntry.ofNode owner = fun node => (StringEntry.ofNode none node).map (.adopt owner) :=
    funext (StringEntry.adoptNode owner)
  rw [readStrings, readStrings, nodes, mapMMap]
  cases (tree.ofKind .string).mapM (StringEntry.ofNode none) with
  | error defect => rfl
  | ok entries =>
    have kept (entry : StringEntry) : (entry.adopt owner).id = entry.id := rfl
    exact congrArg Except.ok (byKeyMap kept entries)

theorem adoptedRead {tree : Devicetree} {owner : Option Interface} {strings : Strings} :
    readStrings tree owner = .ok strings ↔
      ∃ orphans, readStrings tree none = .ok orphans ∧ adoptAll owner orphans = strings := by
  rw [readAdopted, mapOkIff]

theorem adoptedAt {owner : Option Interface} {strings : Strings} {id : UInt8} {entry : StringEntry} :
    (adoptAll owner strings)[id]? = some entry ↔
      ∃ own, strings[id]? = some own ∧ own.adopt owner = entry := by
  rw [adoptAll, Std.ExtTreeMap.getElem?_map, Option.map_eq_some_iff]

theorem adoptedTwins (first second : Option Interface) (result : Except Defect Strings) :
    Twins (result.map (adoptAll first)) (result.map (adoptAll second)) := by
  cases result with
  | error defect => exact .failed defect
  | ok strings =>
    refine .found (fun id => by simp [adoptAll]) ?_
    intro id left right one other
    obtain ⟨own, kept, rfl⟩ := adoptedAt.mp one
    obtain ⟨again, kept', rfl⟩ := adoptedAt.mp other
    obtain rfl := Option.some.inj (kept.symm.trans kept')
    exact ⟨rfl, rfl⟩

theorem readKeyed {tree : Devicetree} {owner : Option Interface} {strings : Strings}
    (read : readStrings tree owner = .ok strings) {id : UInt8} {entry : StringEntry}
    (kept : strings[id]? = some entry) : entry.id = id := by
  obtain ⟨entries, _, rfl⟩ := mapOkIff.mp read
  rw [byKeyLast] at kept
  simpa using List.find?_some kept

theorem readParented {tree : Devicetree} {owner : Option Interface} {strings : Strings}
    (read : readStrings tree owner = .ok strings) : Parented owner strings := by
  intro id entry kept interface
  have keyed := readKeyed read kept
  obtain ⟨orphans, _, rfl⟩ := adoptedRead.mp read
  obtain ⟨own, _, rfl⟩ := adoptedAt.mp kept
  rw [StringEntry.adopt, Option.filter_eq_some_iff]
  simp [Interface.names, ← keyed, StringEntry.adopt]

theorem adoptedOrphans (layout : Layout) (owner : Option Interface) :
    { layout with strings := adoptAll owner layout.strings }.descriptors.map Descriptor.orphan =
      layout.descriptors.map Descriptor.orphan := by
  have strings : (adoptAll owner layout.strings).values = layout.strings.values.map (.adopt owner) := by
    simp [adoptAll, valuesPairs, Std.ExtTreeMap.toList_map]
  simp [descriptors, strings, Function.comp_def, Descriptor.orphan, StringEntry.adopt]

theorem adoptedWritten (layout : Layout) (owner : Option Interface) (version : Version) :
    let m := { layout with strings := adoptAll owner layout.strings }.toManifest version
    m.source = (layout.toManifest version).source ∧ m.blob = (layout.toManifest version).blob := by
  intro m
  have orphans : m.descriptors.toList.map Descriptor.orphan =
      (layout.toManifest version).descriptors.toList.map Descriptor.orphan := by
    simp only [m, toManifestParts, adoptedOrphans]
  have same : m.version = (layout.toManifest version).version := by
    simp only [m, toManifestParts]
  exact ⟨Manifest.sourceOrphans same orphans, Blob.blobOrphans same orphans⟩

theorem stringParents (tree : Devicetree) (first second : Option Interface) :
    Twins (readStrings tree first) (readStrings tree second) ∧
      (∀ owner strings, readStrings tree owner = .ok strings → Parented owner strings) ∧
      ∀ (left right : Strings), readStrings tree first = .ok left → readStrings tree second = .ok right →
        ∀ (layout : Layout) (version : Version),
          let one := { layout with strings := left }.toManifest version
          let other := { layout with strings := right }.toManifest version
          one.source = other.source ∧ one.blob = other.blob := by
  refine ⟨?_, fun owner strings => readParented, ?_⟩
  · rw [readAdopted tree first, readAdopted tree second]
    exact adoptedTwins first second _
  · intro left right read read' layout version one other
    obtain ⟨orphans, found, rfl⟩ := adoptedRead.mp read
    obtain ⟨again, found', rfl⟩ := adoptedRead.mp read'
    obtain rfl := Except.ok.inj (found.symm.trans found')
    have left := adoptedWritten { layout with strings := orphans } first version
    have right := adoptedWritten { layout with strings := orphans } second version
    exact ⟨left.1.trans right.1.symm, left.2.trans right.2.symm⟩

theorem stringParentsTwice :
    let symbols : Header.Symbols := Table.ofList
      [("w_P_compatible_IDX_0", "\"zephyr,greybus-string\""), ("w_P_id", "9"),
       ("w_P_greybus_string", "\"Widget\""), ("v_P_greybus_string", "\"Acme\""), ("v_P_id", "4"),
       ("x_P_id", "+9"), ("x_P_greybus_string", "\"Gadget\""),
       ("v_P_compatible_IDX_0", "\"zephyr,greybus-string\""),
       ("x_P_compatible_IDX_0", "\"zephyr,greybus-string\"")]
    let tree := Devicetree.ofSymbols symbols
    let owner : Interface := ⟨9, 3⟩
    ∃ left right : Strings, readStrings tree none = .ok left ∧ readStrings tree (some owner) = .ok right ∧
      left.values = [⟨4, "Acme", none⟩, ⟨9, "Gadget", none⟩] ∧
      right.values = [⟨4, "Acme", none⟩, ⟨9, "Gadget", some owner⟩] ∧
      Twins (readStrings tree none) (readStrings tree (some owner)) ∧ Parented (some owner) right ∧
      ∀ version, (Layout.toManifest { strings := left } version).blob =
        (Layout.toManifest { strings := right } version).blob := by
  intro symbols tree owner
  have alone : (readStrings tree none).toOption.map (·.values) =
      some [⟨4, "Acme", none⟩, ⟨9, "Gadget", none⟩] := by decide +kernel
  have owned : (readStrings tree (some owner)).toOption.map (·.values) =
      some [⟨4, "Acme", none⟩, ⟨9, "Gadget", some owner⟩] := by decide +kernel
  obtain ⟨left, found, one⟩ := Option.map_eq_some_iff.mp alone
  obtain ⟨right, found', other⟩ := Option.map_eq_some_iff.mp owned
  have read := toOptionIff.mp found
  have read' := toOptionIff.mp found'
  obtain ⟨twins, parented, written⟩ := stringParents tree none (some owner)
  exact ⟨left, right, read, read', one, other, twins, parented _ right read',
    fun version => (written left right read read' {} version).2⟩

end Layout
end Greybus
