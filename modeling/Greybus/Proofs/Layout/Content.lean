import Greybus.Proofs.Devicetree.Statements

/-! What a layout holds, in terms of the symbols alone. There is an entry for a number
exactly if a node of the kind has it as its id, and the entry is made of what the last
of these nodes states. Handles and parent links are followed by name, wherever they
lead, and the interface is the parent of the strings that have its numbers. -/
namespace Greybus
open Header (Symbols)
open Devicetree

def Text.Unquoted (value text : String) : Prop :=
  value = "\"" ++ text ++ "\"" ∨ (∀ inner, value ≠ "\"" ++ inner ++ "\"") ∧ text = value

theorem Text.unquotedStrip (value : String) :
    Unquoted value (String.ofList (stripQuotes value.toList)) := by
  by_cases quoted : ∃ inner, value = "\"" ++ inner ++ "\""
  · obtain ⟨inner, rfl⟩ := quoted
    have chars : ("\"" ++ inner ++ "\"").toList = quote inner.toList := by simp [quote]
    rw [chars, stripQuote, String.ofList_toList]
    exact .inl rfl
  · have bare : ∀ inner, value.toList ≠ quote inner := by
      intro inner same
      exact quoted ⟨String.ofList inner, String.toList_inj.mp (by simpa [quote] using same)⟩
    rw [stripBare bare, String.ofList_toList]
    exact .inr ⟨fun inner same => quoted ⟨inner, same⟩, rfl⟩

def Devicetree.Numbered (symbols : Symbols) (node : String) (n : Nat) : Prop :=
  node ≠ "" ∧ Counts symbols node Binding.id n

section
variable {symbols : Symbols} {node : String}

theorem Interface.atSaid {entry : Interface} :
    Interface.at? (Devicetree.ofSymbols symbols) node = some entry ↔
      node ≠ "" ∧ ∃ vendor product, said? symbols node Binding.vendorHandle = some vendor ∧
        said? symbols node Binding.productHandle = some product ∧
        Numbered symbols vendor entry.vendor.toNat ∧ Numbered symbols product entry.product.toNat := by
  simp (disch := decide) only [Interface.at?, Option.bind_eq_bind, Option.bind_eq_some_iff,
    Option.pure_def, attrSaid, byteSaid, Numbered]
  constructor
  · intro h
    obtain ⟨vendor, ⟨named, first⟩, product, ⟨_, second⟩, m, left, n, right, same⟩ := h
    cases same
    exact ⟨named, vendor, product, first, second, left, right⟩
  · intro h
    obtain ⟨named, vendor, product, first, second, left, right⟩ := h
    exact ⟨vendor, ⟨named, first⟩, product, ⟨named, second⟩, _, left, _, right, rfl⟩

theorem StringEntry.atSaid {owner : Option Interface} {entry : StringEntry} :
    StringEntry.at? (Devicetree.ofSymbols symbols) owner node = some entry ↔
      Numbered symbols node entry.id.toNat ∧ ∃ value, said? symbols node Binding.text = some value ∧
        entry.text = String.ofList (Text.stripQuotes value.toList) ∧
        entry.parent = owner.filter fun interface => interface.names entry.id := by
  simp (disch := decide) only [StringEntry.at?, Option.bind_eq_bind, Option.bind_eq_some_iff,
    Option.pure_def, attrSaid, byteSaid, Numbered]
  constructor
  · intro h
    obtain ⟨id, numbered, value, ⟨_, found⟩, same⟩ := h
    cases same
    exact ⟨numbered, value, found, rfl, rfl⟩
  · intro h
    obtain ⟨numbered, value, found, text, parent⟩ := h
    exact ⟨_, numbered, value, ⟨numbered.1, found⟩, by rw [← text, ← parent]⟩

theorem Bundle.atSaid {entry : Bundle} :
    Bundle.at? (Devicetree.ofSymbols symbols) node = some entry ↔
      Numbered symbols node entry.id.toNat ∧
        Counts symbols node Binding.bundleClass entry.classCode.toNat := by
  simp (disch := decide) only [Bundle.at?, Option.bind_eq_bind, Option.bind_eq_some_iff,
    Option.pure_def, byteSaid, Numbered]
  constructor
  · intro h
    obtain ⟨id, numbered, code, ⟨_, counted⟩, same⟩ := h
    cases same
    exact ⟨numbered, counted⟩
  · intro h
    exact ⟨_, h.1, _, ⟨h.1.1, h.2⟩, rfl⟩

theorem CPort.atSaid {entry : CPort} :
    CPort.at? (Devicetree.ofSymbols symbols) node = some entry ↔
      Numbered symbols node entry.id.toNat ∧
        Counts symbols node Binding.protocol entry.protocol.toNat ∧
        ∃ owner, owner? symbols node = some owner ∧ Numbered symbols owner entry.bundle.toNat := by
  simp (disch := decide) only [CPort.at?, Option.bind_eq_bind, Option.bind_eq_some_iff,
    Option.pure_def, ownerSaid, byteSaid, wordSaid, Numbered]
  constructor
  · intro h
    obtain ⟨id, numbered, owner, ⟨_, linked⟩, bundle, led, protocol, ⟨_, counted⟩, same⟩ := h
    cases same
    exact ⟨numbered, counted, owner, linked, led⟩
  · intro h
    obtain ⟨numbered, counted, owner, linked, led⟩ := h
    exact ⟨_, numbered, owner, ⟨numbered.1, linked⟩, _, led, _, ⟨numbered.1, counted⟩, rfl⟩

end

namespace Layout

def Last (names : List String) (p : String → Prop) (node : String) : Prop :=
  ∃ before after, names = before ++ node :: after ∧ p node ∧ ∀ later ∈ after, ¬ p later

theorem lastFiltered {names : List String} {kept : String → Bool} {p : String → Prop} {node : String}
    (last : Last (names.filter kept) p node) : Last names (fun node => kept node ∧ p node) node := by
  obtain ⟨before, after, cut, holds, none⟩ := last
  obtain ⟨front, back, rfl, _, tail⟩ := List.filter_eq_append_iff.mp cut
  obtain ⟨between, later, rfl, _, inside, rest⟩ := List.filter_eq_cons_iff.mp tail
  refine ⟨front ++ between, later, by simp, ⟨inside, holds⟩, ?_⟩
  intro other member h
  obtain ⟨passes, again⟩ := h
  refine none other ?_ again
  rw [← rest]
  exact List.mem_filter.mpr ⟨member, passes⟩

section
variable {κ α : Type} [Ord κ] [Std.TransOrd κ] [Std.LawfulEqOrd κ] [DecidableEq κ]
  {key : α → κ} {find : String → Option α} {id? : String → Option κ} {names : List String}
  (complete : ∀ node ∈ names, (find node).isSome)
  (keyed : ∀ node entry, find node = some entry → id? node = some (key entry))
include complete keyed

theorem keptKeys {k : κ} : k ∈ byKey key (names.filterMap find) ↔ ∃ node ∈ names, id? node = some k := by
  simp only [byKeyMem, List.mem_filterMap]
  constructor
  · intro h
    obtain ⟨entry, ⟨node, member, found⟩, rfl⟩ := h
    exact ⟨node, member, keyed node entry found⟩
  · intro h
    obtain ⟨node, member, counted⟩ := h
    obtain ⟨entry, found⟩ := Option.isSome_iff_exists.mp (complete node member)
    have same := (keyed node entry found).symm.trans counted
    exact ⟨entry, ⟨node, member, found⟩, Option.some.inj same⟩

theorem keptLast {k : κ} {entry : α} (kept : (byKey key (names.filterMap find))[k]? = some entry) :
    key entry = k ∧ ∃ node, Last names (fun node => id? node = some k) node ∧ find node = some entry := by
  rw [byKeyLast] at kept
  induction names using List.reverseRecOn with
  | nil => simp at kept
  | append_singleton before node ih =>
    obtain ⟨newest, found⟩ := Option.isSome_iff_exists.mp (complete node (by simp))
    have number := keyed node newest found
    rw [List.filterMap_append, List.filterMap_cons_some found, List.filterMap_nil,
      List.reverse_concat, List.find?_cons] at kept
    by_cases same : key newest = k
    · simp only [same, decide_true, Option.some.injEq] at kept
      subst kept
      subst same
      exact ⟨rfl, node, ⟨before, [], rfl, number, by simp⟩, found⟩
    · simp only [same, decide_false] at kept
      have earlier := ih (fun node member => complete node (by simp [member])) kept
      obtain ⟨keyed, other, ⟨start, after, rfl, counted, none⟩, read⟩ := earlier
      refine ⟨keyed, other, ⟨start, after ++ [node], by simp, counted, ?_⟩, read⟩
      intro later member
      rcases List.mem_append.mp member with between | newer
      · exact none later between
      · simpa [List.mem_singleton.mp newer, number] using same

end

def LastOf (symbols : Symbols) (kind : Kind) (n : Nat) (node : String) : Prop :=
  Last (mentioned symbols)
    (fun name => OfKind symbols kind name ∧ Counts symbols name Binding.id n) node

theorem lastOfKind {symbols : Symbols} {kind : Kind} {n : Nat} {node : String} {p : String → Prop}
    (counted : ∀ name, p name ↔ name ≠ "" ∧ Counts symbols name Binding.id n)
    (last : Last ((Devicetree.ofSymbols symbols).namesOf kind) p node) : LastOf symbols kind n node := by
  rw [kindMentioned, nodesOf] at last
  have same : (fun name => decide (OfKind symbols kind name) = true ∧ p name) =
      fun name => OfKind symbols kind name ∧ Counts symbols name Binding.id n := by
    funext name
    rw [counted, decide_eq_true_eq, eq_iff_iff]
    constructor
    · intro h
      exact ⟨h.1, h.2.2⟩
    · intro h
      exact ⟨h.1, h.1.1, h.2⟩
  rw [LastOf, ← same]
  exact lastFiltered last

theorem keptSaid {κ α : Type} [Ord κ] [Std.TransOrd κ] [Std.LawfulEqOrd κ] [DecidableEq κ]
    {symbols : Symbols} {kind : Kind} {key : α → κ} (find : String → Option α)
    {id? : String → Option κ} (value : κ → Nat)
    (complete : ∀ node ∈ (Devicetree.ofSymbols symbols).namesOf kind, (find node).isSome)
    (keyed : ∀ node entry, find node = some entry → id? node = some (key entry))
    (counted : ∀ node k, id? node = some k ↔ node ≠ "" ∧ Counts symbols node Binding.id (value k)) :
    let map := byKey key (((Devicetree.ofSymbols symbols).namesOf kind).filterMap find)
    (∀ k, k ∈ map ↔ ∃ node, OfKind symbols kind node ∧ Counts symbols node Binding.id (value k)) ∧
      ∀ k entry, map[k]? = some entry →
        key entry = k ∧ ∃ node, LastOf symbols kind (value k) node ∧ find node = some entry := by
  constructor
  · intro k
    rw [keptKeys complete keyed]
    simp only [kindSaid, counted]
    constructor
    · intro h
      obtain ⟨node, kinded, _, number⟩ := h
      exact ⟨node, kinded, number⟩
    · intro h
      obtain ⟨node, kinded, number⟩ := h
      exact ⟨node, kinded, kinded.1, number⟩
  · intro k entry kept
    obtain ⟨same, node, last, found⟩ := keptLast complete keyed kept
    exact ⟨same, node, lastOfKind (fun name => counted name k) last, found⟩

structure Content (symbols : Symbols) (layout : Layout) : Prop where
  noInterface : layout.interface = none ↔ ∀ node, ¬ OfKind symbols .interface node
  interface : ∀ entry, layout.interface = some entry → ∃ node vendor product, Sole symbols node ∧
    said? symbols node Binding.vendorHandle = some vendor ∧
    said? symbols node Binding.productHandle = some product ∧
    Numbered symbols vendor entry.vendor.toNat ∧ Numbered symbols product entry.product.toNat
  stringIds : ∀ id : UInt8, id ∈ layout.strings ↔
    ∃ node, OfKind symbols .string node ∧ Counts symbols node Binding.id id.toNat
  strings : ∀ (id : UInt8) (entry : StringEntry), layout.strings[id]? = some entry → entry.id = id ∧
    ∃ node value, LastOf symbols .string id.toNat node ∧
      said? symbols node Binding.text = some value ∧ Text.Unquoted value entry.text ∧
      ∀ owner, entry.parent = some owner ↔
        layout.interface = some owner ∧ (owner.vendor = id ∨ owner.product = id)
  bundleIds : ∀ id : UInt8, id ∈ layout.bundles ↔
    ∃ node, OfKind symbols .bundle node ∧ Counts symbols node Binding.id id.toNat
  bundles : ∀ (id : UInt8) (entry : Bundle), layout.bundles[id]? = some entry → entry.id = id ∧
    ∃ node, LastOf symbols .bundle id.toNat node ∧
      Counts symbols node Binding.bundleClass entry.classCode.toNat
  cportIds : ∀ id : UInt16, id ∈ layout.cports ↔
    ∃ node, OfKind symbols .cport node ∧ Counts symbols node Binding.id id.toNat
  cports : ∀ (id : UInt16) (entry : CPort), layout.cports[id]? = some entry → entry.id = id ∧
    ∃ node owner, LastOf symbols .cport id.toNat node ∧
      Counts symbols node Binding.protocol entry.protocol.toNat ∧
      owner? symbols node = some owner ∧ Numbered symbols owner entry.bundle.toNat

section
variable {symbols : Symbols} (sound : Sound (Devicetree.ofSymbols symbols))
include sound

theorem soleInterface {node : String} (member : node ∈ (Devicetree.ofSymbols symbols).namesOf .interface) :
    (Devicetree.ofSymbols symbols).namesOf .interface = [node] := by
  have single := sound.single
  cases names : (Devicetree.ofSymbols symbols).namesOf .interface with
  | nil => simp [names] at member
  | cons first rest =>
    have alone : rest = [] := by
      rw [names, List.length_cons] at single
      exact List.eq_nil_of_length_eq_zero (by omega)
    subst alone
    rw [names, List.mem_singleton] at member
    rw [member]

theorem noInterfaceSaid : (gather (Devicetree.ofSymbols symbols)).interface = none ↔
    ∀ node, ¬ OfKind symbols .interface node := by
  simp only [gather, List.head?_eq_none_iff, List.filterMap_eq_nil_iff, ← kindSaid]
  constructor
  · intro none node member
    have entry := sound.interface node member
    rw [none node member] at entry
    contradiction
  · intro none node member
    exact absurd member (none node)

theorem interfaceSaid {entry : Interface}
    (found : (gather (Devicetree.ofSymbols symbols)).interface = some entry) :
    ∃ node, Sole symbols node ∧ Interface.at? (Devicetree.ofSymbols symbols) node = some entry := by
  obtain ⟨node, member, read⟩ := List.mem_filterMap.mp (List.mem_of_head? found)
  refine ⟨node, ?_, read⟩
  intro other
  rw [← kindSaid, soleInterface sound member, List.mem_singleton]

end

theorem gatherContent {symbols : Symbols} (sound : Sound (Devicetree.ofSymbols symbols)) :
    Content symbols (gather (Devicetree.ofSymbols symbols)) := by
  have bound : Binding.id ∈ Binding.all := by decide
  have strings (owner : Option Interface) :=
    keptSaid (StringEntry.at? (Devicetree.ofSymbols symbols) owner) UInt8.toNat
      (fun node member => (StringEntry.atOwner _ owner node).trans (sound.strings node member))
      (fun _ _ => StringEntry.atId) fun _ _ => byteSaid bound
  have bundles := keptSaid _ UInt8.toNat sound.bundles (fun _ _ => Bundle.atId)
    fun _ _ => byteSaid bound
  have cports := keptSaid _ UInt16.toNat sound.cports (fun _ _ => CPort.atId)
    fun _ _ => wordSaid bound
  constructor
  · exact noInterfaceSaid sound
  · intro entry found
    obtain ⟨node, sole, read⟩ := interfaceSaid sound found
    obtain ⟨_, vendor, product, rest⟩ := Interface.atSaid.mp read
    exact ⟨node, vendor, product, sole, rest⟩
  · exact (strings _).1
  · intro id entry kept
    obtain ⟨rfl, node, last, read⟩ := (strings _).2 id entry kept
    obtain ⟨_, value, found, text, parent⟩ := StringEntry.atSaid.mp read
    refine ⟨rfl, node, value, last, found, text ▸ Text.unquotedStrip value, ?_⟩
    intro owner
    rw [parent, Option.filter_eq_some_iff]
    simp [Interface.names, gather]
  · exact bundles.1
  · intro id entry kept
    obtain ⟨rfl, node, last, read⟩ := bundles.2 id entry kept
    exact ⟨rfl, node, last, (Bundle.atSaid.mp read).2⟩
  · exact cports.1
  · intro id entry kept
    obtain ⟨rfl, node, last, read⟩ := cports.2 id entry kept
    obtain ⟨_, counted, owner, linked, led⟩ := CPort.atSaid.mp read
    exact ⟨rfl, node, owner, last, counted, linked, led⟩

theorem layoutContent {symbols : Symbols} {layout : Layout} (read : ofSymbols symbols = .ok layout) :
    Content symbols layout := by
  obtain ⟨sound, rfl⟩ := readIff.mp read
  exact gatherContent sound

theorem layoutContentTangled :
    let symbols : Symbols := Table.ofList
      [("v_P_compatible_IDX_0", "\"zephyr,greybus-string\""), ("b_P_id", "7"), ("v_P_id", "+01"),
       ("i_P_vendor_string_id_IDX_0_PH", "v"), ("w_P_greybus_string", "\"\"new\""),
       ("i_P_compatible_IDX_0", "\"zephyr,greybus-interface\""), ("v_P_greybus_string", "\"old\""),
       ("w_P_compatible_IDX_0", "\"zephyr,greybus-string\""), ("w_P_id", "1"),
       ("i_P_product_string_id_IDX_0_PH", "b"), ("b_P_bundle_class", "8"),
       ("c_P_compatible_IDX_0", "\"zephyr,greybus-control\""), ("c_PARENT", "c"), ("c_P_id", "5"),
       ("b_P_compatible_IDX_0", "\"zephyr,greybus-bundle\""), ("c_P_cport_protocol", "2")]
    ∃ layout, ofSymbols symbols = .ok layout ∧ Content symbols layout ∧
      layout.descriptors = [.string ⟨1, "\"new", some ⟨1, 7⟩⟩, .interface ⟨1, 7⟩, .bundle ⟨7, 8⟩,
        .cport ⟨5, 5, 2⟩] := by
  intro symbols
  have entries : (ofSymbols symbols).toOption.map descriptors =
      some [.string ⟨1, "\"new", some ⟨1, 7⟩⟩, .interface ⟨1, 7⟩, .bundle ⟨7, 8⟩, .cport ⟨5, 5, 2⟩] := by
    decide +kernel
  obtain ⟨layout, found, listed⟩ := Option.map_eq_some_iff.mp entries
  have read := toOptionIff.mp found
  exact ⟨layout, read, layoutContent read, listed⟩

end Layout
end Greybus
