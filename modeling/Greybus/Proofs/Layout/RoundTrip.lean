import Greybus.Proofs.Layout.Plan

/-! The layout of a header that was written for a plan. The symbols of the header are
those of the plan, so a node of the tree is a part of the plan and says what this
part says, and every entry that reading asks for can be had. -/
namespace Greybus.Layout
open Devicetree
open Text.Number (decimal)
open Header (Symbols)

def Tells (symbols : Symbols) {plan : Plan} (naming : plan.Naming) : Prop :=
  ∀ name value : String, symbols.get? name = some value ↔ (name, value) ∈ plan.symbols naming

theorem linesTell {plan : Plan} {naming : plan.Naming} {lines others : List String}
    (order : lines.Perm (plan.lines naming ++ others))
    (silent : ∀ line ∈ others, ¬ Header.Declares line ∧ '\n' ∉ line.toList) :
    Tells (Header.symbols (Header.text lines)) naming := by
  have declared : (Header.declarations (Header.text lines)).Perm (plan.symbols naming) :=
    Header.linesDeclare order Plan.symbolClean silent
  intro name value
  rw [Header.symbols, Table.getOfList, declared.mem_iff]
  intro left first right second
  exact Plan.symbolUnique left (declared.mem_iff.mp first) right (declared.mem_iff.mp second)

section
variable {symbols : Symbols} {plan : Plan} {naming : plan.Naming} (tells : Tells symbols naming)
include tells

theorem attrTold {node attr value : String} (bound : attr ∈ Binding.all) :
    (Devicetree.ofSymbols symbols).attr? node attr = some value ↔
      ∃ part ∈ plan.parts, naming.name part.key = node ∧ (attr, value) ∈ part.attrs naming.name := by
  have plain := boundPlain attr bound
  rw [attrGet, tells, Plan.memSymbols]
  constructor
  · intro h
    obtain ⟨owned, _, part, member, inside⟩ := h
    have spelled := attrSpelled.mpr ⟨owned, plain, rfl⟩
    rcases Plan.symbolPlace member inside with ⟨name, place, listed⟩ | ⟨place, _⟩
    · obtain ⟨named, rfl⟩ := SymbolName.attr.inj (place.symm.trans spelled)
      exact ⟨part, member, named, listed⟩
    · cases place.symm.trans spelled
  · intro h
    obtain ⟨part, member, rfl, listed⟩ := h
    exact ⟨naming.filled part member, plain, part, member, Part.attrListed listed⟩

theorem parentTold {part : Part} (member : part ∈ plan.parts) {owner : String}
    (linked : part.parent? naming.name = some owner) :
    (Devicetree.ofSymbols symbols).parent? (naming.name part.key) = some owner := by
  rw [parentGet, tells, Plan.memSymbols]
  exact ⟨naming.filled part member, part, member, Part.parentListed linked⟩

theorem kindTold {kind : Kind} {node : String} :
    node ∈ (Devicetree.ofSymbols symbols).namesOf kind ↔
      ∃ part ∈ plan.parts, naming.name part.key = node ∧ part.kind = kind := by
  have bound : Binding.compatible ∈ Binding.all := by decide
  rw [kindNamed, Option.bind_eq_some_iff]
  simp only [attrTold tells bound]
  constructor
  · intro h
    obtain ⟨value, ⟨part, member, named, listed⟩, kinded⟩ := h
    exact ⟨part, member, named, Option.some.inj ((Part.attrCompatible listed).symm.trans kinded)⟩
  · intro h
    obtain ⟨part, member, named, rfl⟩ := h
    obtain ⟨value, listed⟩ := Part.compatibleListed naming.name part
    exact ⟨value, ⟨part, member, named, listed⟩, Part.attrCompatible listed⟩

theorem textTold {part : Part} (member : part ∈ plan.parts) {attr value : String}
    (listed : (attr, value) ∈ part.attrs naming.name) :
    (Devicetree.ofSymbols symbols).attr? (naming.name part.key) attr = some value :=
  (attrTold tells (Part.attrBound listed)).mpr ⟨part, member, rfl, listed⟩

theorem byteTold {part : Part} (member : part ∈ plan.parts) {attr : String} {n : UInt8}
    (listed : (attr, decimal n.toNat) ∈ part.attrs naming.name) :
    (Devicetree.ofSymbols symbols).byte? (naming.name part.key) attr = some n := by
  have read : Text.Number.readByte (decimal n.toNat) = .ok n :=
    congrArg (Except.map UInt8.ofFin) (Text.Number.readDecimal n.toFin)
  rw [byte?, number?, textTold tells member listed, Option.bind_some, read]
  rfl

theorem wordTold {part : Part} (member : part ∈ plan.parts) {attr : String} {n : UInt16}
    (listed : (attr, decimal n.toNat) ∈ part.attrs naming.name) :
    (Devicetree.ofSymbols symbols).word? (naming.name part.key) attr = some n := by
  have read : Text.Number.readWord (decimal n.toNat) = .ok n :=
    congrArg (Except.map UInt16.ofFin) (Text.Number.readDecimal n.toFin)
  rw [word?, number?, textTold tells member listed, Option.bind_some, read]
  rfl

theorem stringId {id : UInt8} {text : String} (member : .string id text ∈ plan.parts) :
    (Devicetree.ofSymbols symbols).byte? (naming.name (.string id)) Binding.id = some id :=
  byteTold tells member (by simp [Part.attrs, Binding.id])

theorem stringTold (owner : Option Interface) {id : UInt8} {text : String}
    (member : .string id text ∈ plan.parts) :
    StringEntry.at? (Devicetree.ofSymbols symbols) owner (naming.name (.string id)) =
      some ⟨id, text, owner.filter fun entry => entry.names id⟩ := by
  have quoted : (Devicetree.ofSymbols symbols).attr? (naming.name (.string id)) Binding.text =
      some ("\"" ++ text ++ "\"") :=
    textTold tells member (by simp [Part.attrs, Binding.text])
  have bare : Text.stripQuotes ('"' :: (text.toList ++ ['"'])) = text.toList :=
    Text.stripQuote text.toList
  rw [StringEntry.at?, stringId tells member, quoted]
  simp [bare]

theorem bundleId {id classCode : UInt8} (member : .bundle id classCode ∈ plan.parts) :
    (Devicetree.ofSymbols symbols).byte? (naming.name (.bundle id)) Binding.id = some id :=
  byteTold tells member (by simp [Part.attrs, Binding.id])

theorem bundleTold {id classCode : UInt8} (member : .bundle id classCode ∈ plan.parts) :
    Bundle.at? (Devicetree.ofSymbols symbols) (naming.name (.bundle id)) = some ⟨id, classCode⟩ := by
  have code : (Devicetree.ofSymbols symbols).byte? (naming.name (.bundle id)) Binding.bundleClass =
      some classCode :=
    byteTold tells member (by simp [Part.attrs, Binding.bundleClass])
  rw [Bundle.at?, bundleId tells member, code]
  rfl

theorem portTold {id : UInt16} {device : Port} (member : .port id device ∈ plan.parts) :
    CPort.at? (Devicetree.ofSymbols symbols) (naming.name (.port id)) =
      some ⟨id, device.bundle, device.protocol⟩ := by
  obtain ⟨_, bundle⟩ := Plan.bundleOf member
  have number : (Devicetree.ofSymbols symbols).word? (naming.name (.port id)) Binding.id = some id :=
    wordTold tells member (by simp [Part.attrs, Binding.id])
  have code : (Devicetree.ofSymbols symbols).byte? (naming.name (.port id)) Binding.protocol =
      some device.protocol :=
    byteTold tells member (by simp [Part.attrs, Binding.protocol])
  have link : (Devicetree.ofSymbols symbols).parent? (naming.name (.port id)) =
      some (naming.name (.bundle device.bundle)) := parentTold tells member rfl
  rw [CPort.at?, number, link, code]
  simp [bundleId tells bundle]

theorem interfaceTold {entry : Interface} (member : .interface entry ∈ plan.parts) :
    Interface.at? (Devicetree.ofSymbols symbols) (naming.name .interface) = some entry := by
  obtain ⟨⟨_, vendor⟩, _, product⟩ := Plan.stringsOf member
  have first : (Devicetree.ofSymbols symbols).attr? (naming.name .interface) Binding.vendorHandle =
      some (naming.name (.string entry.vendor)) :=
    textTold tells member (by simp [Part.attrs, Binding.vendorHandle])
  have second : (Devicetree.ofSymbols symbols).attr? (naming.name .interface) Binding.productHandle =
      some (naming.name (.string entry.product)) :=
    textTold tells member (by simp [Part.attrs, Binding.productHandle])
  rw [Interface.at?, first, second]
  simp [stringId tells vendor, stringId tells product]

theorem namesTold {ι : Type} {kind : Kind} {make : ι → Part}
    (made : ∀ part : Part, part.kind = kind ↔ ∃ i, make i = part) {node : String} :
    node ∈ (Devicetree.ofSymbols symbols).namesOf kind ↔
      ∃ i, make i ∈ plan.parts ∧ naming.name (make i).key = node := by
  simp only [kindTold tells, made]
  constructor
  · intro h
    obtain ⟨_, member, named, i, rfl⟩ := h
    exact ⟨i, member, named⟩
  · intro h
    obtain ⟨i, member, named⟩ := h
    exact ⟨_, member, named, i, rfl⟩

theorem stringNames {node : String} : node ∈ (Devicetree.ofSymbols symbols).namesOf .string ↔
    ∃ id text, plan.strings[id]? = some text ∧ naming.name (.string id) = node := by
  have made (part : Part) :
      part.kind = .string ↔ ∃ entry : UInt8 × String, .string entry.1 entry.2 = part := by
    cases part <;> simp [Part.kind]
  simp only [namesTold tells made, Plan.stringPart, Part.key, Prod.exists]

theorem bundleNames {node : String} : node ∈ (Devicetree.ofSymbols symbols).namesOf .bundle ↔
    ∃ id classCode, plan.bundles[id]? = some classCode ∧ naming.name (.bundle id) = node := by
  have made (part : Part) :
      part.kind = .bundle ↔ ∃ entry : UInt8 × UInt8, .bundle entry.1 entry.2 = part := by
    cases part <;> simp [Part.kind]
  simp only [namesTold tells made, Plan.bundlePart, Part.key, Prod.exists]

theorem portNames {node : String} : node ∈ (Devicetree.ofSymbols symbols).namesOf .cport ↔
    ∃ id device, plan.ports[id]? = some device ∧ naming.name (.port id) = node := by
  have made (part : Part) :
      part.kind = .cport ↔ ∃ entry : UInt16 × Port, .port entry.1 entry.2 = part := by
    cases part <;> simp [Part.kind]
  simp only [namesTold tells made, Plan.portPart, Part.key, Prod.exists]

theorem interfaceNames : (Devicetree.ofSymbols symbols).namesOf .interface =
    (plan.interface.map fun _ => naming.name .interface).toList := by
  have made (part : Part) : part.kind = .interface ↔ ∃ entry, .interface entry = part := by
    cases part <;> simp [Part.kind]
  have names (node : String) : node ∈ (Devicetree.ofSymbols symbols).namesOf .interface ↔
      ∃ entry, plan.interface = some entry ∧ naming.name .interface = node := by
    simp only [namesTold tells made, Plan.interfacePart, Part.key]
  cases planned : plan.interface with
  | none =>
    refine List.eq_nil_iff_forall_not_mem.mpr fun node member => ?_
    obtain ⟨entry, there, _⟩ := (names node).mp member
    cases planned.symm.trans there
  | some entry =>
    apply List.perm_singleton.mp
    rw [List.perm_ext_iff_of_nodup (kindNodup _ _) (List.nodup_singleton _)]
    intro node
    rw [names, planned, List.mem_singleton]
    simp [eq_comm]

end

theorem mapTold {κ α β : Type} [Ord κ] [Std.TransOrd κ] [Std.LawfulEqOrd κ] [DecidableEq κ]
    (key : β → κ) {source : Std.ExtTreeMap κ α} {names : List String} {place : κ → String}
    {find : String → Option β} {make : κ → α → β}
    (named : ∀ node, node ∈ names ↔ ∃ k a, source[k]? = some a ∧ place k = node)
    (found : ∀ k a, source[k]? = some a → find (place k) = some (make k a))
    (keyed : ∀ k a, key (make k a) = k) :
    (∀ node ∈ names, (find node).isSome) ∧ byKey key (names.filterMap find) = source.map make := by
  have entries (entry : β) : entry ∈ names.filterMap find ↔
      ∃ k a, source[k]? = some a ∧ make k a = entry := by
    simp only [List.mem_filterMap, named]
    constructor
    · intro h
      obtain ⟨_, ⟨k, a, there, rfl⟩, read⟩ := h
      exact ⟨k, a, there, Option.some.inj ((found k a there).symm.trans read)⟩
    · intro h
      obtain ⟨k, a, there, rfl⟩ := h
      exact ⟨_, ⟨k, a, there, rfl⟩, found k a there⟩
  have unique : ∀ x ∈ names.filterMap find, ∀ y ∈ names.filterMap find, key x = key y → x = y := by
    intro x first y second same
    obtain ⟨k, a, there, rfl⟩ := (entries x).mp first
    obtain ⟨l, b, there', rfl⟩ := (entries y).mp second
    rw [keyed, keyed] at same
    subst same
    rw [Option.some.inj (there.symm.trans there')]
  constructor
  · intro node member
    obtain ⟨k, a, there, rfl⟩ := (named node).mp member
    exact found k a there ▸ rfl
  · apply Std.ExtTreeMap.ext_getElem?
    intro k
    apply Option.ext
    intro entry
    rw [byKeyGet unique, entries, Std.ExtTreeMap.getElem?_map, Option.map_eq_some_iff]
    constructor
    · intro h
      obtain ⟨⟨l, a, there, rfl⟩, same⟩ := h
      rw [keyed] at same
      exact same ▸ ⟨a, there, rfl⟩
    · intro h
      obtain ⟨a, there, rfl⟩ := h
      exact ⟨⟨k, a, there, rfl⟩, keyed k a⟩

theorem planRead {symbols : Symbols} {plan : Plan} {naming : plan.Naming}
    (tells : Tells symbols naming) : ofSymbols symbols = .ok plan.layout := by
  have strings (owner : Option Interface) := mapTold StringEntry.id (fun _ => stringNames tells)
    (fun _ _ there => stringTold tells owner (Plan.stringPart.mpr there)) fun _ _ => rfl
  have bundles := mapTold Bundle.id (fun _ => bundleNames tells)
    (fun _ _ there => bundleTold tells (Plan.bundlePart.mpr there)) fun _ _ => rfl
  have cports := mapTold CPort.id (fun _ => portNames tells)
    (fun _ _ there => portTold tells (Plan.portPart.mpr there)) fun _ _ => rfl
  have names := interfaceNames tells
  have interface : ((plan.interface.map fun _ => naming.name .interface).toList.filterMap
      (Interface.at? (Devicetree.ofSymbols symbols))) = plan.interface.toList := by
    cases planned : plan.interface with
    | none => rfl
    | some entry => simp [interfaceTold tells (Plan.interfacePart.mpr planned)]
  rw [ofSymbols, readIff]
  constructor
  · refine ⟨?_, ?_, (strings none).1, bundles.1, cports.1⟩
    · rw [names]
      cases plan.interface <;> simp
    · intro node member
      rw [names, Option.mem_toList, Option.map_eq_some_iff] at member
      obtain ⟨entry, planned, rfl⟩ := member
      exact interfaceTold tells (Plan.interfacePart.mpr planned) ▸ rfl
  · simp only [gather, names, interface, Option.head?_toList, (strings _).2, bundles.2, cports.2]
    rfl

theorem planRoundTrip (plan : Plan) (naming : plan.Naming) {lines others : List String}
    (order : lines.Perm (plan.lines naming ++ others))
    (silent : ∀ line ∈ others, ¬ Header.Declares line ∧ '\n' ∉ line.toList) :
    ofSymbols (Header.symbols (Header.text lines)) = .ok plan.layout :=
  planRead (linesTell order silent)

def gpioPort : Port where
  controller := "\"zephyr,greybus-gpio-controller\""
  protocol := 2
  bundle := 0
  known := by decide

def suffixPlan : Plan where
  interface := some ⟨1, 2⟩
  strings := .ofList [(1, "Acme"), (2, "a \"b\" _P_id")] compare
  bundles := .ofList [(0, 8)] compare
  ports := .ofList [(300, gpioPort)] compare
  oneLine := by decide +kernel
  named := by
    intro entry planned
    cases planned
    decide +kernel
  owned := by decide +kernel

def suffixNaming : suffixPlan.Naming where
  name
    | .interface => "_P_"
    | .string 1 => "_PARENT"
    | .string _ => "x_P"
    | .bundle _ => "x_P_P_id"
    | .port _ => "x"
  filled := by decide +kernel
  solid := by decide +kernel
  apart := by decide +kernel

theorem suffixRoundTrip :
    let lines := ["#ifndef x_P_id", "#define x_PARENT x_P_P_id", "#define x_P_id 300",
      "#define x_P_P_id_P_bundle_class 8", "#define x_P_P_greybus_string \"a \"b\" _P_id\"", "",
      "#define _P__P_product_string_id_IDX_0_PH x_P", "#define _PARENT_P_id 1",
      "#define x_P_P_compatible_IDX_0 \"zephyr,greybus-string\"", "// #define x_P_id 1",
      "#define _P__P_compatible_IDX_0 \"zephyr,greybus-interface\"", "#define x_P_P_id_P_id 0",
      "#define _PARENT_P_greybus_string \"Acme\"", "#define x_P_cport_protocol 2",
      "#define _P__P_vendor_string_id_IDX_0_PH _PARENT", "#define x_P_P_id 2", "#define",
      "#define x_P_compatible_IDX_0 \"zephyr,greybus-gpio-controller\"",
      "#define x_P_P_id_P_compatible_IDX_0 \"zephyr,greybus-bundle\"",
      "#define _PARENT_P_compatible_IDX_0 \"zephyr,greybus-string\""]
    let others := ["#ifndef x_P_id", "", "// #define x_P_id 1", "#define"]
    lines.Perm (suffixPlan.lines suffixNaming ++ others) ∧
      (∀ line ∈ others, ¬ Header.Declares line ∧ '\n' ∉ line.toList) ∧
      ofSymbols (Header.symbols (Header.text lines)) = .ok suffixPlan.layout := by
  intro lines others
  have order : lines.Perm (suffixPlan.lines suffixNaming ++ others) := by decide +kernel
  have silent : ∀ line ∈ others, ¬ Header.Declares line ∧ '\n' ∉ line.toList := by decide +kernel
  exact ⟨order, silent, planRoundTrip suffixPlan suffixNaming order silent⟩

end Greybus.Layout
