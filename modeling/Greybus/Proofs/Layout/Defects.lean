import Greybus.Proofs.Layout.Demands

/-! Which defect a header without a layout is said to have: one that the symbols
themselves have, whether of the node that it names or of a link to it, and the first
one in the order of the demands. -/
namespace Greybus
open Devicetree
open Header (Symbols)
open Text

namespace Layout

def required : Kind → List String
  | .interface => [Binding.vendorHandle, Binding.productHandle]
  | .string => [Binding.id, Binding.text]
  | .bundle => [Binding.id, Binding.bundleClass]
  | .cport => [Binding.id, Binding.protocol]

def bytes : Kind → List String
  | .interface => []
  | .string => [Binding.id]
  | .bundle => [Binding.id, Binding.bundleClass]
  | .cport => [Binding.protocol]

theorem bytesRequired : ∀ kind, ∀ attr ∈ bytes kind, attr ∈ required kind := by
  intro kind
  cases kind <;> decide

def Known (symbols : Symbols) (node : String) : Prop :=
  ∃ symbol value, symbols.get? symbol = some value ∧ (SymbolName.ofString symbol).node? = some node

theorem knownIff {symbols : Symbols} {node : String} : node ∈ mentioned symbols ↔ Known symbols node := by
  simp [mentioned, Known, Table.getIff]

def Referred (symbols : Symbols) (node : String) : Prop :=
  (∃ interface, Sole symbols interface ∧
    ∃ handle ∈ required .interface, said? symbols interface handle = some node) ∨
  ∃ cport, OfKind symbols .cport cport ∧ owner? symbols cport = some node

def Asked (listed : Kind → List String) (symbols : Symbols) (node attr : String) : Prop :=
  (∃ kind, OfKind symbols kind node ∧ attr ∈ listed kind) ∨ attr = Binding.id ∧ Referred symbols node

inductive Genuine (symbols : Symbols) : Defect → Prop where
  | noAttribute {node attr : String} (known : Known symbols node)
      (needed : Asked required symbols node attr) (absent : said? symbols node attr = none) :
      Genuine symbols (.noAttribute node attr)
  | noParent {node : String} (kind : OfKind symbols .cport node) (absent : owner? symbols node = none) :
      Genuine symbols (.noParent node)
  | danglingHandle {node handle target : String} (sole : Sole symbols node)
      (listed : handle ∈ required .interface) (said : said? symbols node handle = some target)
      (unknown : ¬ Known symbols target) : Genuine symbols (.danglingLink node handle target)
  | danglingParent {node target : String} (kind : OfKind symbols .cport node)
      (said : owner? symbols node = some target) (unknown : ¬ Known symbols target) :
      Genuine symbols (.danglingLink node "PARENT" target)
  | badByte {node attr value : String} {fault : Number.Fault} (needed : Asked bytes symbols node attr)
      (said : said? symbols node attr = some value)
      (bad : ∀ n : UInt8, ¬ Number.Spells value.toList n.toNat) :
      Genuine symbols (.badNumber node attr value fault)
  | badWord {node value : String} {fault : Number.Fault} (kind : OfKind symbols .cport node)
      (said : said? symbols node Binding.id = some value)
      (bad : ∀ n : UInt16, ¬ Number.Spells value.toList n.toNat) :
      Genuine symbols (.badNumber node Binding.id value fault)
  | twoInterfaces {first second : String} {others : List String} (apart : first ≠ second)
      (order : nodesOf symbols .interface = first :: second :: others) :
      Genuine symbols (.twoInterfaces first second)

section
variable {symbols : Symbols} {node attr : String} {defect : Defect}

theorem misreadSome {ν : Type} {read : String → Except Number.Fault ν}
    (unmet : misread? read symbols node attr = some defect) :
    said? symbols node attr = none ∧ defect = .noAttribute node attr ∨
      ∃ value fault, said? symbols node attr = some value ∧ read value = .error fault ∧
        defect = .badNumber node attr value fault := by
  unfold misread? at unmet
  split at unmet
  · rename_i absent
    exact .inl ⟨absent, (Option.some.inj unmet).symm⟩
  · rename_i value said
    obtain ⟨fault, failed, same⟩ := Option.map_eq_some_iff.mp unmet
    exact .inr ⟨value, fault, said, failureIff.mp failed, same.symm⟩

theorem danglingSome {link target : String} (unmet : dangling? symbols node link target = some defect) :
    ¬ Known symbols target ∧ defect = .danglingLink node link target := by
  unfold dangling? at unmet
  split at unmet
  · contradiction
  · rename_i unknown
    exact ⟨mt knownIff.mpr unknown, (Option.some.inj unmet).symm⟩

theorem textGenuine (known : Known symbols node) (needed : Asked required symbols node attr)
    (unmet : (Demand.text node attr).defect? symbols = some defect) : Genuine symbols defect := by
  simp only [Demand.defect?] at unmet
  split at unmet
  · rename_i absent
    cases unmet
    exact .noAttribute known needed absent
  · contradiction

theorem byteGenuine (known : Known symbols node) (needed : Asked bytes symbols node attr)
    (unmet : (Demand.byte node attr).defect? symbols = some defect) : Genuine symbols defect := by
  rcases misreadSome unmet with ⟨absent, rfl⟩ | ⟨value, fault, said, failed, rfl⟩
  · refine .noAttribute known (needed.imp_left ?_) absent
    intro h
    obtain ⟨kind, kinded, listed⟩ := h
    exact ⟨kind, kinded, bytesRequired kind attr listed⟩
  · refine .badByte needed said ?_
    intro n spelled
    rw [Number.readByteIff.mpr spelled] at failed
    contradiction

theorem wordGenuine (known : Known symbols node) (kind : OfKind symbols .cport node)
    (unmet : (Demand.word node Binding.id).defect? symbols = some defect) : Genuine symbols defect := by
  rcases misreadSome unmet with ⟨absent, rfl⟩ | ⟨value, fault, said, failed, rfl⟩
  · exact .noAttribute known (.inl ⟨.cport, kind, by decide⟩) absent
  · refine .badWord kind said ?_
    intro n spelled
    rw [Number.readWordIff.mpr spelled] at failed
    contradiction

theorem handleGenuine (known : Known symbols node) (sole : Sole symbols node)
    (listed : attr ∈ required .interface)
    (unmet : (Demand.handle node attr).defect? symbols = some defect) : Genuine symbols defect := by
  simp only [Demand.defect?] at unmet
  split at unmet
  · rename_i absent
    cases unmet
    exact .noAttribute known (.inl ⟨.interface, (sole node).mpr rfl, listed⟩) absent
  · rename_i target said
    obtain ⟨unknown, rfl⟩ := danglingSome unmet
    exact .danglingHandle sole listed said unknown

theorem ownerGenuine (kind : OfKind symbols .cport node)
    (unmet : (Demand.owner node).defect? symbols = some defect) : Genuine symbols defect := by
  simp only [Demand.defect?] at unmet
  split at unmet
  · rename_i absent
    cases unmet
    exact .noParent kind absent
  · rename_i target said
    obtain ⟨unknown, rfl⟩ := danglingSome unmet
    exact .danglingParent kind said unknown

theorem demandGenuine {kind : Kind} {demand : Demand} (member : node ∈ nodesOf symbols kind)
    (sole : kind = .interface → Sole symbols node) (listed : demand ∈ nodeDemands symbols kind node)
    (unmet : demand.defect? symbols = some defect) : Genuine symbols defect := by
  have known : Known symbols node := knownIff.mp (List.mem_filter.mp member).1
  have kinded : OfKind symbols kind node := by simpa using (List.mem_filter.mp member).2
  have named (kind : Kind) (kinded : OfKind symbols kind node) {attr : String} (listed : attr ∈ bytes kind) :
      Asked bytes symbols node attr := .inl ⟨kind, kinded, listed⟩
  cases kind with
  | interface =>
    rcases List.mem_append.mp listed with link | number
    · obtain ⟨handle, bound, rfl⟩ := List.mem_map.mp link
      exact handleGenuine known (sole rfl) bound unmet
    · obtain ⟨target, led, rfl⟩ := List.mem_map.mp number
      obtain ⟨handle, bound, said⟩ := List.mem_filterMap.mp led
      obtain ⟨said, there⟩ := Option.filter_eq_some_iff.mp said
      have referred : Referred symbols target := .inl ⟨node, sole rfl, handle, bound, said⟩
      exact byteGenuine (knownIff.mp (by simpa using there)) (.inr ⟨rfl, referred⟩) unmet
  | string =>
    simp only [nodeDemands, List.mem_cons, List.not_mem_nil, or_false] at listed
    rcases listed with rfl | rfl
    · exact byteGenuine known (named .string kinded (by decide)) unmet
    · exact textGenuine known (.inl ⟨.string, kinded, by decide⟩) unmet
  | bundle =>
    simp only [nodeDemands, List.mem_cons, List.not_mem_nil, or_false] at listed
    rcases listed with rfl | rfl
    · exact byteGenuine known (named .bundle kinded (by decide)) unmet
    · exact byteGenuine known (named .bundle kinded (by decide)) unmet
  | cport =>
    simp only [nodeDemands, List.mem_append, List.mem_cons, List.not_mem_nil, or_false, List.mem_map,
      Option.mem_toList] at listed
    rcases listed with ((rfl | rfl) | ⟨target, led, rfl⟩) | rfl
    · exact wordGenuine known kinded unmet
    · exact ownerGenuine kinded unmet
    · obtain ⟨linked, there⟩ := Option.filter_eq_some_iff.mp led
      have referred : Referred symbols target := .inr ⟨node, kinded, linked⟩
      exact byteGenuine (knownIff.mp (by simpa using there)) (.inr ⟨rfl, referred⟩) unmet
    · exact byteGenuine known (named .cport kinded (by decide)) unmet

theorem soleCases (symbols : Symbols) :
    (soleDemands symbols = [] ∧ ∀ node ∈ nodesOf symbols .interface, Sole symbols node) ∨
      ∃ first second others, nodesOf symbols .interface = first :: second :: others ∧
        soleDemands symbols = [.sole first second] := by
  unfold soleDemands
  match interfaces : nodesOf symbols .interface with
  | [] => exact .inl ⟨rfl, by simp⟩
  | [node] =>
    refine .inl ⟨rfl, ?_⟩
    intro one member other
    rw [← nodesIff, interfaces, List.mem_singleton, List.mem_singleton.mp member]
  | first :: second :: others => exact .inr ⟨first, second, others, rfl, rfl⟩

def First (symbols : Symbols) (defect : Defect) : Prop :=
  ∃ before demand after, demands symbols = before ++ demand :: after ∧
    demand.defect? symbols = some defect ∧ ∀ earlier ∈ before, earlier.defect? symbols = none

theorem firstIff : firstDefect? symbols (demands symbols) = some defect ↔ First symbols defect :=
  List.findSome?_eq_some_iff

theorem firstGenuine (first : First symbols defect) : Genuine symbols defect := by
  rcases soleCases symbols with ⟨none, sole⟩ | ⟨one, other, others, interfaces, two⟩
  · obtain ⟨before, demand, after, order, unmet, _⟩ := first
    have listed : demand ∈ demands symbols := by simp [order]
    rw [demands, none, List.nil_append] at listed
    obtain ⟨kind, _, within⟩ := List.mem_flatMap.mp listed
    obtain ⟨node, member, asked⟩ := List.mem_flatMap.mp within
    refine demandGenuine member ?_ asked unmet
    rintro rfl
    exact sole node member
  · -- Nothing else is looked at if there are two interfaces.
    have found := firstIff.mpr first
    rw [demands, two, firstDefect?, List.singleton_append, firstCons] at found
    cases found
    have apart := nodesNodup symbols .interface
    rw [interfaces, List.nodup_cons] at apart
    exact .twoInterfaces (fun same => apart.1 (by simp [same])) interfaces

theorem layoutDefect (failed : ofSymbols symbols = .error defect) :
    Genuine symbols defect ∧ First symbols defect := by
  rw [← failureIff, layoutFailure, firstIff] at failed
  exact ⟨firstGenuine failed, failed⟩

end

theorem layoutDefectReferred :
    let symbols : Symbols := Table.ofList
      [("c_P_compatible_IDX_0", "\"zephyr,greybus-control\""), ("c_P_id", "5"),
       ("v_P_compatible_IDX_0", "\"zephyr,greybus-string\""), ("v_P_id", "1"),
       ("b_P_compatible_IDX_0", "\"zephyr,greybus-bundle\""), ("b_P_id", "300"),
       ("i_P_compatible_IDX_0", "\"zephyr,greybus-interface\""),
       ("i_P_vendor_string_id_IDX_0_PH", "v"), ("i_P_product_string_id_IDX_0_PH", "b")]
    let defect : Defect := .badNumber "b" "id" "300" .tooLarge
    ofSymbols symbols = .error defect ∧ Genuine symbols defect ∧ First symbols defect := by
  intro symbols defect
  have found : failure? (ofSymbols symbols) = some defect := by decide +kernel
  have failed := failureIff.mp found
  exact ⟨failed, layoutDefect failed⟩

end Layout
end Greybus
