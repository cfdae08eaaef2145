import Mathlib.Data.List.Basic
import Mathlib.Data.List.Induction
import Greybus.Conversion.Basic
import Greybus.Proofs.Devicetree.Slots
import Greybus.Proofs.Result

/-! What a layout takes from a tree, asked of nodes by their names. Reading ends in
a layout exactly when every entry can be had, and then it is made of these entries
alone: which defect came first and where a node stands among its kind only matter
to a failure and to ids that are given twice. -/
namespace Greybus

namespace Devicetree

def namesOf (tree : Devicetree) (kind : Kind) : List String := (tree.ofKind kind).map Node.name

def number? {ν : Type} (read : String → Except Text.Number.Fault ν) (tree : Devicetree)
    (node name : String) : Option ν :=
  (tree.attr? node name).bind fun value => (read value).toOption

def byte? (tree : Devicetree) (node name : String) : Option UInt8 :=
  tree.number? Text.Number.readByte node name

def word? (tree : Devicetree) (node name : String) : Option UInt16 :=
  tree.number? Text.Number.readWord node name

theorem nodeNamed {tree : Devicetree} {node : Node} (member : node ∈ tree.nodes) :
    tree.node? node.name = some node := nodeIff.mpr ⟨member, rfl⟩

theorem kindNamed {tree : Devicetree} {kind : Kind} {name : String} :
    name ∈ tree.namesOf kind ↔
      (tree.attr? name Binding.compatible).bind Kind.ofCompatible? = some kind := by
  simp only [namesOf, ofKind, List.mem_map, List.mem_filter, decide_eq_true_eq]
  constructor
  · intro h
    obtain ⟨node, ⟨member, kinded⟩, rfl⟩ := h
    rw [attr?, nodeNamed member]
    exact kinded
  · intro kinded
    obtain ⟨compatible, found, _⟩ := Option.bind_eq_some_iff.mp kinded
    obtain ⟨node, named, _⟩ := Option.bind_eq_some_iff.mp found
    rw [attr?, named] at kinded
    obtain ⟨member, rfl⟩ := nodeIff.mp named
    exact ⟨node, ⟨member, kinded⟩, rfl⟩

theorem kindNodup (tree : Devicetree) (kind : Kind) : (tree.namesOf kind).Nodup := by
  have names : (tree.nodes.map Node.name).Nodup := by
    rw [nodeNames]
    exact Table.keysNodup _
  exact names.sublist (List.Sublist.map _ List.filter_sublist)

theorem attrOption {tree : Devicetree} {node : Node} (member : node ∈ tree.nodes) (name : String) :
    (node.attr name).toOption = tree.attr? node.name name := by
  rw [attr?, nodeNamed member, Option.bind_some, Node.attr]
  cases node.attr? name <;> rfl

theorem numberOption {ν : Type} (read : String → Except Text.Number.Fault ν) {tree : Devicetree}
    {node : Node} (member : node ∈ tree.nodes) (name : String) :
    (node.number read name).toOption = tree.number? read node.name name := by
  rw [Node.number, toOptionBind, attrOption member, number?]
  congr 1
  funext value
  cases read value <;> rfl

theorem targetOption (tree : Devicetree) (node : Node) (link name : String) :
    (tree.target node link name).toOption = tree.node? name := by
  unfold target
  cases tree.node? name <;> rfl

theorem followOption {tree : Devicetree} {node : Node} (member : node ∈ tree.nodes) (name : String) :
    (Node.follow tree node name).toOption = (tree.attr? node.name name).bind tree.node? := by
  simp only [Node.follow, toOptionBind, attrOption member, targetOption]

theorem containerOption {tree : Devicetree} {node : Node} (member : node ∈ tree.nodes) :
    (Node.container tree node).toOption = (tree.parent? node.name).bind tree.node? := by
  rw [parent?, nodeNamed member, Option.bind_some, Node.container]
  cases node.parent with
  | none => rfl
  | some name => exact targetOption tree node Binding.parent name

theorem linkedOption {tree : Devicetree} {ν : Type} (read : String → Except Text.Number.Fault ν)
    (link attr : String) :
    ((tree.node? link).bind fun found => (found.number read attr).toOption) =
      tree.number? read link attr := by
  cases found : tree.node? link with
  | none => simp [number?, attr?, found]
  | some node =>
    obtain ⟨member, rfl⟩ := nodeIff.mp found
    exact numberOption read member attr

end Devicetree
open Devicetree

def Interface.at? (tree : Devicetree) (node : String) : Option Interface := do
  let vendor ← tree.attr? node Binding.vendorHandle
  let product ← tree.attr? node Binding.productHandle
  return ⟨← tree.byte? vendor Binding.id, ← tree.byte? product Binding.id⟩

def StringEntry.at? (tree : Devicetree) (owner : Option Interface) (node : String) :
    Option StringEntry := do
  let id ← tree.byte? node Binding.id
  let text ← tree.attr? node Binding.text
  return ⟨id, String.ofList (Text.stripQuotes text.toList), owner.filter fun entry => entry.names id⟩

def Bundle.at? (tree : Devicetree) (node : String) : Option Bundle := do
  return ⟨← tree.byte? node Binding.id, ← tree.byte? node Binding.bundleClass⟩

def CPort.at? (tree : Devicetree) (node : String) : Option CPort := do
  let id ← tree.word? node Binding.id
  let owner ← tree.parent? node
  return ⟨id, ← tree.byte? owner Binding.id, ← tree.byte? node Binding.protocol⟩

theorem StringEntry.atId {tree : Devicetree} {owner : Option Interface} {node : String}
    {entry : StringEntry} (found : StringEntry.at? tree owner node = some entry) :
    tree.byte? node Binding.id = some entry.id := by
  simp only [StringEntry.at?, Option.bind_eq_bind, Option.bind_eq_some_iff] at found
  obtain ⟨id, read, text, _, last⟩ := found
  cases last
  exact read

theorem Bundle.atId {tree : Devicetree} {node : String} {entry : Bundle}
    (found : Bundle.at? tree node = some entry) : tree.byte? node Binding.id = some entry.id := by
  simp only [Bundle.at?, Option.bind_eq_bind, Option.bind_eq_some_iff] at found
  obtain ⟨id, read, code, _, last⟩ := found
  cases last
  exact read

theorem CPort.atId {tree : Devicetree} {node : String} {entry : CPort}
    (found : CPort.at? tree node = some entry) : tree.word? node Binding.id = some entry.id := by
  simp only [CPort.at?, Option.bind_eq_bind, Option.bind_eq_some_iff] at found
  obtain ⟨id, read, owner, _, bundle, _, protocol, _, last⟩ := found
  cases last
  exact read

theorem interfaceOption {tree : Devicetree} {node : Node} (member : node ∈ tree.nodes) :
    (Interface.ofNode tree node).toOption = Interface.at? tree node.name := by
  simp only [Interface.ofNode, Interface.at?, toOptionBind, followOption member, Node.byte, byte?,
    ← linkedOption, Option.bind_eq_bind]
  cases tree.attr? node.name Binding.vendorHandle with
  | none => rfl
  | some vendor =>
    cases tree.attr? node.name Binding.productHandle with
    | none => simp
    | some product =>
      -- Reading needs both nodes before the first number, an entry only the numbers.
      cases left : tree.node? vendor with
      | none => simp [left]
      | some first =>
        cases right : tree.node? product with
        | none => simp [left, right]
        | some second =>
          simp only [Option.bind_some, left, right]
          rfl

theorem stringOption {tree : Devicetree} (owner : Option Interface) {node : Node}
    (member : node ∈ tree.nodes) :
    (StringEntry.ofNode owner node).toOption = StringEntry.at? tree owner node.name := by
  simp only [StringEntry.ofNode, StringEntry.at?, toOptionBind, Node.byte, numberOption _ member,
    attrOption member]
  rfl

theorem bundleOption {tree : Devicetree} {node : Node} (member : node ∈ tree.nodes) :
    (Bundle.ofNode node).toOption = Bundle.at? tree node.name := by
  simp only [Bundle.ofNode, Bundle.at?, toOptionBind, Node.byte, numberOption _ member]
  rfl

theorem cportOption {tree : Devicetree} {node : Node} (member : node ∈ tree.nodes) :
    (CPort.ofNode tree node).toOption = CPort.at? tree node.name := by
  simp only [CPort.ofNode, CPort.at?, toOptionBind, containerOption member, Node.byte, Node.word,
    numberOption _ member, byte?, word?, Option.bind_eq_bind]
  cases tree.number? Text.Number.readWord node.name Binding.id with
  | none => rfl
  | some id =>
    cases tree.parent? node.name with
    | none => rfl
    | some owner =>
      simp only [Option.bind_some]
      rw [← linkedOption _ owner]
      cases tree.node? owner <;> rfl

namespace Layout
variable {κ α : Type} [Ord κ] [Std.TransOrd κ] [Std.LawfulEqOrd κ] [DecidableEq κ]

omit [Std.LawfulEqOrd κ] [DecidableEq κ] in
theorem byKeyNext (key : α → κ) (before : List α) (entry : α) :
    byKey key (before ++ [entry]) = (byKey key before).insert (key entry) entry := by
  simp [byKey]

theorem byKeyLast (key : α → κ) (entries : List α) (k : κ) :
    (byKey key entries)[k]? = entries.reverse.find? fun entry => key entry = k := by
  induction entries using List.reverseRecOn with
  | nil => simp [byKey]
  | append_singleton before entry ih =>
    rw [byKeyNext, Std.ExtTreeMap.getElem?_insert, ih, List.reverse_concat, List.find?_cons]
    simp only [Std.compare_eq_iff_eq]
    by_cases same : key entry = k <;> simp [same]

theorem byKeyMem {key : α → κ} {entries : List α} {k : κ} :
    k ∈ byKey key entries ↔ ∃ entry ∈ entries, key entry = k := by
  rw [Std.ExtTreeMap.mem_iff_isSome_getElem?, byKeyLast, List.find?_isSome]
  simp

theorem byKeyGet {key : α → κ} {entries : List α}
    (unique : ∀ a ∈ entries, ∀ b ∈ entries, key a = key b → a = b) {k : κ} {entry : α} :
    (byKey key entries)[k]? = some entry ↔ entry ∈ entries ∧ key entry = k := by
  rw [byKeyLast, Table.foundLast fun a first b second left right =>
    unique a first b second (by simp_all)]
  simp

omit [Std.LawfulEqOrd κ] [DecidableEq κ] in
theorem valuesPairs (map : Std.ExtTreeMap κ α) : map.values = map.toList.map Prod.snd := by
  have folded : map.values = map.foldr (fun _ entry rest => entry :: rest) [] := by
    obtain ⟨inner⟩ := map
    induction inner using Std.ExtDTreeMap.inductionOn with
    | mk tree => rfl
  rw [folded, Std.ExtTreeMap.foldr_eq_foldr_toList]
  exact List.map_eq_foldr.symm

omit [DecidableEq κ] in
theorem valuesIff {map : Std.ExtTreeMap κ α} {entry : α} :
    entry ∈ map.values ↔ ∃ k : κ, map[k]? = some entry := by
  simp [valuesPairs, Std.ExtTreeMap.mem_toList_iff_getElem?_eq_some]

omit [Std.LawfulEqOrd κ] [DecidableEq κ] in
theorem keptIff {map : Std.ExtTreeMap κ α} {k : κ} : k ∈ map ↔ ∃ entry, map[k]? = some entry := by
  rw [Std.ExtTreeMap.mem_iff_isSome_getElem?, Option.isSome_iff_exists]

theorem manifestRead {symbols : Header.Symbols} {version : Version} {m : Manifest} :
    Manifest.ofSymbols symbols version = .ok m ↔
      ∃ layout, ofSymbols symbols = .ok layout ∧ layout.toManifest version = m := by
  rw [Manifest.ofSymbols, mapOkIff]

theorem manifestError {symbols : Header.Symbols} {version : Version} {defect : Defect} :
    Manifest.ofSymbols symbols version = .error defect ↔ ofSymbols symbols = .error defect := by
  unfold Manifest.ofSymbols
  cases ofSymbols symbols <;> simp [Except.map]

section
variable (layout : Layout) (version : Version)

theorem manifestInterfaces :
    (layout.toManifest version).interfaces = layout.interface.toList := by
  simp [toManifestParts, Manifest.interfaces, descriptors, Descriptor.interface?,
    List.filterMap_append, List.filterMap_map, Function.comp_def]

theorem manifestStrings : (layout.toManifest version).strings = layout.strings.values := by
  simp [toManifestParts, Manifest.strings, descriptors, Descriptor.string?,
    List.filterMap_append, List.filterMap_map, Function.comp_def]

theorem manifestBundles : (layout.toManifest version).bundles = layout.bundles.values := by
  simp [toManifestParts, Manifest.bundles, descriptors, Descriptor.bundle?,
    List.filterMap_append, List.filterMap_map, Function.comp_def]

theorem manifestCPorts : (layout.toManifest version).cports = layout.cports.values := by
  simp [toManifestParts, Manifest.cports, descriptors, Descriptor.cport?,
    List.filterMap_append, List.filterMap_map, Function.comp_def]

end

end Layout

theorem StringEntry.atOwner (tree : Devicetree) (owner : Option Interface) (node : String) :
    (StringEntry.at? tree owner node).isSome = (StringEntry.at? tree none node).isSome := by
  simp only [StringEntry.at?, Option.bind_eq_bind]
  cases tree.byte? node Binding.id with
  | none => rfl
  | some id => cases tree.attr? node Binding.text <;> rfl

namespace Layout

theorem kindNodes {tree : Devicetree} {kind : Kind} {node : Node} (member : node ∈ tree.ofKind kind) :
    node ∈ tree.nodes := (List.mem_filter.mp member).1

theorem kindEntries {α : Type} {tree : Devicetree} {kind : Kind} {read : Node → Except Defect α}
    {find : String → Option α} (same : ∀ node ∈ tree.nodes, (read node).toOption = find node.name)
    {entries : List α} :
    (tree.ofKind kind).mapM read = .ok entries ↔
      (∀ node ∈ tree.namesOf kind, (find node).isSome) ∧
        entries = (tree.namesOf kind).filterMap find := by
  have found : (tree.ofKind kind).filterMap (fun node => (read node).toOption) =
      (tree.namesOf kind).filterMap find := by
    rw [namesOf, List.filterMap_map]
    apply List.filterMap_congr
    intro node member
    exact same node (kindNodes member)
  rw [mapMIff, found, namesOf, List.forall_mem_map]
  constructor
  · intro h
    exact ⟨fun node member => same node (kindNodes member) ▸ h.1 node member, h.2⟩
  · intro h
    exact ⟨fun node member => (same node (kindNodes member)).symm ▸ h.1 node member, h.2⟩

theorem interfaceRead {tree : Devicetree} {found : Option Interface} :
    readInterface tree = .ok found ↔
      (tree.namesOf .interface).length ≤ 1 ∧
      (∀ node ∈ tree.namesOf .interface, (Interface.at? tree node).isSome) ∧
      found = ((tree.namesOf .interface).filterMap (Interface.at? tree)).head? := by
  unfold readInterface namesOf
  cases nodes : tree.ofKind .interface with
  | nil =>
    constructor
    · intro h
      cases h
      simp
    · intro h
      rw [h.2.2]
      rfl
  | cons node rest =>
    cases rest with
    | cons second others => simp
    | nil =>
      have member : node ∈ tree.nodes := kindNodes (nodes ▸ List.mem_cons_self)
      rw [← toOptionIff, toOptionMap, interfaceOption member]
      cases entry : Interface.at? tree node.name with
      | none => simp [entry]
      | some value =>
        simp only [List.map_cons, List.map_nil, List.forall_mem_singleton, entry, Option.map_some,
          List.filterMap_cons, List.filterMap_nil, List.head?_cons, Option.some.injEq]
        constructor
        · intro h
          exact ⟨by simp, by simp, h.symm⟩
        · intro h
          exact h.2.2.symm

structure Sound (tree : Devicetree) : Prop where
  single : (tree.namesOf .interface).length ≤ 1
  interface : ∀ node ∈ tree.namesOf .interface, (Interface.at? tree node).isSome
  strings : ∀ node ∈ tree.namesOf .string, (StringEntry.at? tree none node).isSome
  bundles : ∀ node ∈ tree.namesOf .bundle, (Bundle.at? tree node).isSome
  cports : ∀ node ∈ tree.namesOf .cport, (CPort.at? tree node).isSome

def gather (tree : Devicetree) : Layout :=
  let interface := ((tree.namesOf .interface).filterMap (Interface.at? tree)).head?
  { interface
    strings := byKey StringEntry.id ((tree.namesOf .string).filterMap (StringEntry.at? tree interface))
    bundles := byKey Bundle.id ((tree.namesOf .bundle).filterMap (Bundle.at? tree))
    cports := byKey CPort.id ((tree.namesOf .cport).filterMap (CPort.at? tree)) }

theorem kindRead {κ α : Type} [Ord κ] [Std.TransOrd κ] (key : α → κ) {tree : Devicetree} {kind : Kind}
    {read : Node → Except Defect α} {find : String → Option α}
    (same : ∀ node ∈ tree.nodes, (read node).toOption = find node.name)
    {map : Std.ExtTreeMap κ α} :
    ((tree.ofKind kind).mapM read).map (byKey key) = .ok map ↔
      (∀ node ∈ tree.namesOf kind, (find node).isSome) ∧
        map = byKey key ((tree.namesOf kind).filterMap find) := by
  rw [mapOkIff]
  simp only [kindEntries same]
  constructor
  · intro h
    obtain ⟨entries, ⟨all, rfl⟩, rfl⟩ := h
    exact ⟨all, rfl⟩
  · intro h
    obtain ⟨all, rfl⟩ := h
    exact ⟨_, ⟨all, rfl⟩, rfl⟩

theorem readIff {tree : Devicetree} {layout : Layout} :
    ofDevicetree tree = .ok layout ↔ Sound tree ∧ layout = gather tree := by
  unfold ofDevicetree
  simp only [bindOkIff, interfaceRead, readStrings, readBundles, readCPorts,
    kindRead StringEntry.id fun node member => stringOption _ member,
    kindRead Bundle.id fun node member => bundleOption member,
    kindRead CPort.id fun node member => cportOption member]
  constructor
  · intro h
    obtain ⟨_, ⟨single, interface, rfl⟩, _, ⟨strings, rfl⟩, _, ⟨bundles, rfl⟩, _, ⟨cports, rfl⟩, last⟩ := h
    simp only [StringEntry.atOwner] at strings
    exact ⟨⟨single, interface, strings, bundles, cports⟩, (Except.ok.inj last).symm⟩
  · intro h
    obtain ⟨sound, rfl⟩ := h
    have strings := sound.strings
    simp only [← StringEntry.atOwner _ ((tree.namesOf .interface).filterMap (Interface.at? tree)).head?]
      at strings
    exact ⟨_, ⟨sound.single, sound.interface, rfl⟩, _, ⟨strings, rfl⟩, _, ⟨sound.bundles, rfl⟩, _,
      ⟨sound.cports, rfl⟩, rfl⟩

end Layout
end Greybus
