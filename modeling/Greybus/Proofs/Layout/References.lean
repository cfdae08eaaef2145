import Greybus.Proofs.Layout.Content
import Greybus.Proofs.Layout.Relevance

/-! Where the references of a layout lead. The interface is read apart from the strings
and the CPorts apart from the bundles, and of several nodes with one id the last one is
kept; still, a number that a node of the right kind gave away is the number of an entry,
for this node or a later one has put it there. -/
namespace Greybus
open Devicetree
open Header (Symbols)

def Interface.references (entry : Interface) : List (String × UInt8) :=
  [(Binding.vendorHandle, entry.vendor), (Binding.productHandle, entry.product)]

structure Manifest.Closed (m : Manifest) : Prop where
  vendor : ∀ entry ∈ m.interfaces, ∃ string ∈ m.strings, string.id = entry.vendor
  product : ∀ entry ∈ m.interfaces, ∃ string ∈ m.strings, string.id = entry.product
  bundle : ∀ port ∈ m.cports, ∃ bundle ∈ m.bundles, bundle.id = port.bundle

namespace Devicetree

def HandlesLead (symbols : Symbols) : Prop :=
  ∀ node, OfKind symbols .interface node → ∀ handle ∈ [Binding.vendorHandle, Binding.productHandle],
    ∃ target, said? symbols node handle = some target ∧ OfKind symbols .string target

def PortsLead (symbols : Symbols) : Prop :=
  ∀ node, OfKind symbols .cport node →
    ∃ owner, owner? symbols node = some owner ∧ OfKind symbols .bundle owner

def StringsApart (symbols : Symbols) : Prop :=
  ∀ (first second : String) (id : UInt8), OfKind symbols .string first → OfKind symbols .string second →
    Counts symbols first Binding.id id.toNat → Counts symbols second Binding.id id.toNat →
    first = second

instance (symbols : Symbols) : Decidable (HandlesLead symbols) :=
  decidable_of_iff (∀ node ∈ nodesOf symbols .interface,
      ∀ handle ∈ [Binding.vendorHandle, Binding.productHandle],
        ∃ target ∈ said? symbols node handle, OfKind symbols .string target) <| by
    simp only [nodesIff, HandlesLead, Option.mem_def]

instance (symbols : Symbols) : Decidable (PortsLead symbols) :=
  decidable_of_iff (∀ node ∈ nodesOf symbols .cport,
      ∃ owner ∈ owner? symbols node, OfKind symbols .bundle owner) <| by
    simp only [nodesIff, PortsLead, Option.mem_def]

theorem apartIff {symbols : Symbols} : StringsApart symbols ↔
    Layout.Distinct (nodesOf symbols .string) fun node => (ofSymbols symbols).byte? node Binding.id := by
  have bound : Binding.id ∈ Binding.all := by decide
  simp only [Layout.Distinct, nodesIff]
  constructor
  · intro apart first one second other there same
    obtain ⟨id, found⟩ := Option.isSome_iff_exists.mp there
    exact apart first second id one other ((byteSaid bound).mp found).2
      ((byteSaid bound).mp (same ▸ found)).2
  · intro distinct first second id one other left right
    have here := (byteSaid bound).mpr ⟨one.1, left⟩
    have there := (byteSaid bound).mpr ⟨other.1, right⟩
    exact distinct first one second other (here ▸ rfl) (here.trans there.symm)

instance (symbols : Symbols) : Decidable (StringsApart symbols) := decidable_of_iff _ apartIff.symm

end Devicetree

namespace Layout

structure Referential (symbols : Symbols) (layout : Layout) : Prop where
  strings : HandlesLead symbols → ∀ entry, layout.interface = some entry →
    ∀ reference ∈ entry.references,
      ∃ string, layout.strings[reference.2]? = some string ∧ string.parent = layout.interface
  others : ∀ entry, layout.interface = some entry → ∀ (id : UInt8) (string : StringEntry),
    layout.strings[id]? = some string → id ≠ entry.vendor → id ≠ entry.product → string.parent = none
  texts : HandlesLead symbols → StringsApart symbols → ∀ entry, layout.interface = some entry →
    ∀ node, OfKind symbols .interface node → ∀ reference ∈ entry.references,
      ∀ target, said? symbols node reference.1 = some target →
        ∃ string value, layout.strings[reference.2]? = some string ∧
          said? symbols target Binding.text = some value ∧ Text.Unquoted value string.text
  bundles : PortsLead symbols → ∀ (id : UInt16) (port : CPort), layout.cports[id]? = some port →
    port.bundle ∈ layout.bundles
  manifest : HandlesLead symbols → PortsLead symbols → ∀ version, (layout.toManifest version).Closed

section
variable {symbols : Symbols} {layout : Layout} (content : Content symbols layout)
include content

theorem interfaceNode {entry : Interface} (found : layout.interface = some entry) :
    ∃ node, OfKind symbols .interface node := by
  obtain ⟨node, _, _, sole, _⟩ := content.interface entry found
  exact ⟨node, (sole node).mpr rfl⟩

theorem referenceNode {entry : Interface} (found : layout.interface = some entry) {node : String}
    (kinded : OfKind symbols .interface node) :
    ∀ reference ∈ entry.references, ∃ target, said? symbols node reference.1 = some target ∧
      Counts symbols target Binding.id reference.2.toNat := by
  obtain ⟨only, vendor, product, sole, first, second, left, right⟩ := content.interface entry found
  obtain rfl := (sole node).mp kinded
  simp only [Interface.references, List.forall_mem_cons]
  exact ⟨⟨vendor, first, left.2⟩, ⟨product, second, right.2⟩, by simp⟩

theorem referenceString (lead : HandlesLead symbols) {entry : Interface}
    (found : layout.interface = some entry) {node : String} (kinded : OfKind symbols .interface node)
    {reference : String × UInt8} (member : reference ∈ entry.references) :
    ∃ target, said? symbols node reference.1 = some target ∧ OfKind symbols .string target ∧
      Counts symbols target Binding.id reference.2.toNat := by
  have handle : reference.1 ∈ [Binding.vendorHandle, Binding.productHandle] :=
    List.mem_map_of_mem (f := Prod.fst) member
  obtain ⟨target, linked, numbered⟩ := referenceNode content found kinded reference member
  obtain ⟨other, linked', string⟩ := lead node kinded reference.1 handle
  cases linked.symm.trans linked'
  exact ⟨target, linked, string, numbered⟩

theorem referenceKept (lead : HandlesLead symbols) {entry : Interface}
    (found : layout.interface = some entry) {reference : String × UInt8}
    (member : reference ∈ entry.references) :
    ∃ string, layout.strings[reference.2]? = some string := by
  obtain ⟨node, kinded⟩ := interfaceNode content found
  obtain ⟨target, _, string, numbered⟩ := referenceString content lead found kinded member
  exact keptIff.mp ((content.stringIds reference.2).mpr ⟨target, string, numbered⟩)

theorem stringParent {entry : Interface} (found : layout.interface = some entry) {id : UInt8}
    {string : StringEntry} (kept : layout.strings[id]? = some string) :
    string.parent = if id = entry.vendor ∨ id = entry.product then layout.interface else none := by
  obtain ⟨_, _, _, _, _, _, parent⟩ := content.strings id string kept
  apply Option.ext
  intro owner
  rw [parent, found]
  split
  · rename_i named
    constructor
    · exact fun h => h.1
    · intro same
      obtain rfl := Option.some.inj same
      exact ⟨same, named.imp Eq.symm Eq.symm⟩
  · rename_i other
    constructor
    · intro h
      obtain ⟨same, named⟩ := h
      obtain rfl := Option.some.inj same
      exact absurd (named.imp Eq.symm Eq.symm) other
    · intro h
      contradiction

theorem stringText (apart : StringsApart symbols) {target : String} (kinded : OfKind symbols .string target)
    {id : UInt8} (numbered : Counts symbols target Binding.id id.toNat) {string : StringEntry}
    (kept : layout.strings[id]? = some string) :
    ∃ value, said? symbols target Binding.text = some value ∧ Text.Unquoted value string.text := by
  obtain ⟨_, node, value, last, found, unquoted, _⟩ := content.strings id string kept
  obtain ⟨_, _, _, ⟨other, again⟩, _⟩ := last
  rw [apart target node id kinded other numbered again]
  exact ⟨value, found, unquoted⟩

theorem bundleKept (lead : PortsLead symbols) {id : UInt16} {port : CPort}
    (kept : layout.cports[id]? = some port) : port.bundle ∈ layout.bundles := by
  obtain ⟨_, node, owner, last, _, linked, numbered⟩ := content.cports id port kept
  obtain ⟨_, _, _, ⟨kinded, _⟩, _⟩ := last
  obtain ⟨other, linked', bundle⟩ := lead node kinded
  cases linked.symm.trans linked'
  exact (content.bundleIds port.bundle).mpr ⟨owner, bundle, numbered.2⟩

theorem referenceManifest (lead : HandlesLead symbols) (version : Version) {entry : Interface}
    (member : entry ∈ (layout.toManifest version).interfaces) {reference : String × UInt8}
    (referred : reference ∈ entry.references) :
    ∃ string ∈ (layout.toManifest version).strings, string.id = reference.2 := by
  rw [manifestInterfaces, Option.mem_toList] at member
  obtain ⟨string, kept⟩ := referenceKept content lead member referred
  rw [manifestStrings]
  exact ⟨string, valuesIff.mpr ⟨_, kept⟩, (content.strings _ _ kept).1⟩

theorem bundleManifest (lead : PortsLead symbols) (version : Version) {port : CPort}
    (member : port ∈ (layout.toManifest version).cports) :
    ∃ bundle ∈ (layout.toManifest version).bundles, bundle.id = port.bundle := by
  rw [manifestCPorts] at member
  obtain ⟨id, kept⟩ := valuesIff.mp member
  obtain ⟨bundle, found⟩ := keptIff.mp (bundleKept content lead kept)
  rw [manifestBundles]
  exact ⟨bundle, valuesIff.mpr ⟨_, found⟩, (content.bundles _ _ found).1⟩

end

theorem layoutReferences {symbols : Symbols} {layout : Layout} (read : ofSymbols symbols = .ok layout) :
    Referential symbols layout := by
  obtain ⟨sound, rfl⟩ := readIff.mp read
  have content := gatherContent sound
  constructor
  · intro lead entry found reference member
    obtain ⟨string, kept⟩ := referenceKept content lead found member
    simp only [Interface.references, List.mem_cons, List.not_mem_nil, or_false] at member
    have named : reference.2 = entry.vendor ∨ reference.2 = entry.product :=
      member.imp (congrArg Prod.snd) (congrArg Prod.snd)
    exact ⟨string, kept, by rw [stringParent content found kept, if_pos named]⟩
  · intro entry found id string kept vendor product
    rw [stringParent content found kept, if_neg (by simp [vendor, product])]
  · intro lead apart entry found node kinded reference member target linked
    obtain ⟨string, kept⟩ := referenceKept content lead found member
    obtain ⟨other, linked', kind, numbered⟩ := referenceString content lead found kinded member
    cases linked.symm.trans linked'
    obtain ⟨value, stated, unquoted⟩ := stringText content apart kind numbered kept
    exact ⟨string, value, kept, stated, unquoted⟩
  · exact fun lead _ _ => bundleKept content lead
  · intro handles ports version
    constructor
    · exact fun entry member =>
        referenceManifest content handles version member List.mem_cons_self
    · exact fun entry member =>
        referenceManifest content handles version member (List.mem_cons_of_mem _ List.mem_cons_self)
    · exact fun port member => bundleManifest content ports version member

theorem layoutReferencesBundles :
    let symbols : Symbols := Table.ofList
      [("i_P_compatible_IDX_0", "\"zephyr,greybus-interface\""), ("c_PARENT", "b"),
       ("c_P_compatible_IDX_0", "\"zephyr,greybus-control\""), ("c_P_id", "0"),
       ("i_P_product_string_id_IDX_0_PH", "p"), ("i_P_vendor_string_id_IDX_0_PH", "v"),
       ("c_P_cport_protocol", "0"), ("p_P_id", "02"), ("v_P_id", "+1"), ("s_P_id", "3"),
       ("b_P_compatible_IDX_0", "\"zephyr,greybus-bundle\""), ("b_P_id", "1"), ("b_P_bundle_class", "0"),
       ("d_P_compatible_IDX_0", "\"zephyr,greybus-bundle\""), ("d_P_id", "001"),
       ("d_P_bundle_class", "8"), ("s_P_compatible_IDX_0", "\"zephyr,greybus-string\""),
       ("p_P_compatible_IDX_0", "\"zephyr,greybus-string\""), ("p_P_greybus_string", "\"Widget\""),
       ("v_P_compatible_IDX_0", "\"zephyr,greybus-string\""), ("v_P_greybus_string", "\"Acme\""),
       ("s_P_greybus_string", "\"spare\"")]
    HandlesLead symbols ∧ StringsApart symbols ∧ PortsLead symbols ∧
      ∃ layout, ofSymbols symbols = .ok layout ∧ Referential symbols layout ∧
        layout.descriptors = [.string ⟨1, "Acme", some ⟨1, 2⟩⟩, .string ⟨2, "Widget", some ⟨1, 2⟩⟩,
          .string ⟨3, "spare", none⟩, .interface ⟨1, 2⟩, .bundle ⟨1, 8⟩, .cport ⟨0, 1, 0⟩] := by
  intro symbols
  have kinds : HandlesLead symbols ∧ StringsApart symbols ∧ PortsLead symbols := by decide +kernel
  obtain ⟨handles, apart, ports⟩ := kinds
  have entries : (ofSymbols symbols).toOption.map descriptors =
      some [.string ⟨1, "Acme", some ⟨1, 2⟩⟩, .string ⟨2, "Widget", some ⟨1, 2⟩⟩,
        .string ⟨3, "spare", none⟩, .interface ⟨1, 2⟩, .bundle ⟨1, 8⟩, .cport ⟨0, 1, 0⟩] := by
    decide +kernel
  obtain ⟨layout, found, listed⟩ := Option.map_eq_some_iff.mp entries
  have read := toOptionIff.mp found
  exact ⟨handles, apart, ports, layout, read, layoutReferences read, listed⟩

end Layout
end Greybus
