import Greybus.Proofs.Layout.WellFormed
import Greybus.Proofs.Table.Insertion

/-! One more node in a header that has a layout. All that was said before is still said,
the new node comes last among those of its kind, and nothing that was read refers to it.
So it makes one entry, perhaps in the place of another, and leaves the rest as it was. -/
namespace Greybus
open Devicetree
open Header (Symbols)
open Text.Number (Spells)

def Kept {α : Type} (before after : Option α) : Prop := ∀ a, before = some a → after = some a

theorem keptBind {α β : Type} {before after : Option α} {f g : α → Option β} (first : Kept before after)
    (rest : ∀ a, Kept (f a) (g a)) : Kept (before.bind f) (after.bind g) := by
  intro b found
  obtain ⟨a, here, there⟩ := Option.bind_eq_some_iff.mp found
  exact Option.bind_eq_some_iff.mpr ⟨a, first a here, rest a b there⟩

theorem keptSame {α : Type} (x : Option α) : Kept x x := fun _ => id

namespace Devicetree

structure Extends (tree grown : Devicetree) : Prop where
  attr : ∀ node name, Kept (tree.attr? node name) (grown.attr? node name)
  parent : ∀ node, Kept (tree.parent? node) (grown.parent? node)

section
variable {tree grown : Devicetree} (more : Extends tree grown)
include more

theorem numberKept {ν : Type} (read : String → Except Text.Number.Fault ν) (node name : String) :
    Kept (tree.number? read node name) (grown.number? read node name) :=
  keptBind (more.attr node name) fun _ => keptSame _

end
end Devicetree

section
variable {tree grown : Devicetree} (more : Extends tree grown)
include more

theorem Interface.atKept (node : String) : Kept (Interface.at? tree node) (Interface.at? grown node) :=
  keptBind (more.attr _ _) fun _ => keptBind (more.attr _ _) fun _ =>
    keptBind (numberKept more _ _ _) fun _ => keptBind (numberKept more _ _ _) fun _ => keptSame _

theorem StringEntry.atKept (owner : Option Interface) (node : String) :
    Kept (StringEntry.at? tree owner node) (StringEntry.at? grown owner node) :=
  keptBind (numberKept more _ _ _) fun _ => keptBind (more.attr _ _) fun _ => keptSame _

theorem Bundle.atKept (node : String) : Kept (Bundle.at? tree node) (Bundle.at? grown node) :=
  keptBind (numberKept more _ _ _) fun _ => keptBind (numberKept more _ _ _) fun _ => keptSame _

theorem CPort.atKept (node : String) : Kept (CPort.at? tree node) (CPort.at? grown node) :=
  keptBind (numberKept more _ _ _) fun _ => keptBind (more.parent _) fun _ =>
    keptBind (numberKept more _ _ _) fun _ => keptBind (numberKept more _ _ _) fun _ => keptSame _

end

namespace Devicetree

structure Fresh (symbols : Symbols) (node : String) (new : List (String × String)) : Prop where
  filled : new ≠ []
  once : (new.map Prod.fst).Nodup
  own : ∀ symbol ∈ new, (SymbolName.ofString symbol.1).node? = some node
  absent : node ∉ mentioned symbols

section
variable {symbols : Symbols} {node : String} {new : List (String × String)}
  (fresh : Fresh symbols node new)
include fresh

theorem grownList : (symbols.insertAll new).toList = symbols.toList ++ new := by
  apply Table.insertAllNew fresh.once
  intro symbol member old
  obtain ⟨entry, listed, same⟩ := List.mem_map.mp old
  apply fresh.absent
  simp only [mentioned, List.mem_eraseDups, List.mem_filterMap]
  exact ⟨entry, listed, same ▸ fresh.own symbol member⟩

theorem grownGet {name value : String} : (symbols.insertAll new).get? name = some value ↔
    symbols.get? name = some value ∨ (name, value) ∈ new := by
  rw [Table.getIff, grownList fresh, List.mem_append, ← Table.getIff]

theorem grownExtends : Extends (ofSymbols symbols) (ofSymbols (symbols.insertAll new)) := by
  constructor
  · intro other name value said
    obtain ⟨named, plain, found⟩ := attrGet.mp said
    exact attrGet.mpr ⟨named, plain, (grownGet fresh).mpr (.inl found)⟩
  · intro other value said
    obtain ⟨named, found⟩ := parentGet.mp said
    exact parentGet.mpr ⟨named, (grownGet fresh).mpr (.inl found)⟩

theorem grownOther {other : String} (apart : other ≠ node) (name : String) :
    (ofSymbols (symbols.insertAll new)).attr? other name = (ofSymbols symbols).attr? other name := by
  apply Option.ext
  intro value
  refine ⟨fun said => ?_, (grownExtends fresh).attr other name value⟩
  obtain ⟨named, plain, found⟩ := attrGet.mp said
  rcases (grownGet fresh).mp found with old | listed
  · exact attrGet.mpr ⟨named, plain, old⟩
  · have owned := fresh.own _ listed
    rw [attrSpelled.mpr ⟨named, plain, rfl⟩] at owned
    exact absurd (Option.some.inj owned) apart

theorem grownMentioned : mentioned (symbols.insertAll new) = mentioned symbols ++ [node] := by
  rw [mentioned, grownList fresh, List.filterMap_append]
  apply Table.distinctRun
  · simpa [mentioned] using fresh.absent
  · obtain ⟨symbol, rest, rfl⟩ := List.exists_cons_of_ne_nil fresh.filled
    simp [fresh.own symbol List.mem_cons_self]
  · intro name member
    obtain ⟨symbol, listed, owned⟩ := List.mem_filterMap.mp member
    exact Option.some.inj (owned.symm.trans (fresh.own symbol listed))

theorem grownNames {own : Kind}
    (kinded : ((ofSymbols (symbols.insertAll new)).attr? node Binding.compatible).bind
      Kind.ofCompatible? = some own) (kind : Kind) :
    (ofSymbols (symbols.insertAll new)).namesOf kind =
      (ofSymbols symbols).namesOf kind ++ if own = kind then [node] else [] := by
  rw [kindMentioned, kindMentioned, nodesOf, nodesOf, grownMentioned fresh, List.filter_append]
  congr 1
  · apply List.filter_congr
    intro other member
    have apart : other ≠ node := fun same => fresh.absent (same ▸ member)
    rw [decide_eq_decide, ← kindSaid, ← kindSaid, kindNamed, kindNamed, grownOther fresh apart]
  · have here : OfKind (symbols.insertAll new) kind node ↔ own = kind := by
      rw [← kindSaid, kindNamed, kinded, Option.some.injEq]
    by_cases same : own = kind <;> simp [here, same]

end
end Devicetree

namespace Layout

section
variable {tree grown : Devicetree} {node : String} {own : Kind} (more : Extends tree grown)
  (names : ∀ kind, grown.namesOf kind = tree.namesOf kind ++ if own = kind then [node] else [])

include names in
theorem grownEntries {α : Type} {kind : Kind} {find found : String → Option α}
    (complete : ∀ other ∈ tree.namesOf kind, (find other).isSome)
    (kept : ∀ other, Kept (find other) (found other)) (last : own = kind → (found node).isSome) :
    (∀ other ∈ grown.namesOf kind, (found other).isSome) ∧
      (grown.namesOf kind).filterMap found =
        (tree.namesOf kind).filterMap find ++ if own = kind then (found node).toList else [] := by
  have same : ∀ other ∈ tree.namesOf kind, found other = find other := by
    intro other member
    obtain ⟨entry, there⟩ := Option.isSome_iff_exists.mp (complete other member)
    rw [there, kept other entry there]
  constructor
  · intro other member
    rw [names, List.mem_append] at member
    rcases member with old | new
    · exact same other old ▸ complete other old
    · split at new
      · rename_i here
        exact List.mem_singleton.mp new ▸ last here
      · contradiction
  · rw [names, List.filterMap_append, List.filterMap_congr same]
    congr 1
    split
    · cases there : found node <;> simp [there]
    · rfl

include more names

theorem grownLayout (sound : Sound tree) (plain : own ≠ .interface)
    (string : own = .string → (StringEntry.at? grown (gather tree).interface node).isSome)
    (bundle : own = .bundle → (Bundle.at? grown node).isSome)
    (cport : own = .cport → (CPort.at? grown node).isSome) :
    Sound grown ∧ gather grown =
      { interface := (gather tree).interface
        strings := byKey StringEntry.id
          ((tree.namesOf .string).filterMap (StringEntry.at? tree (gather tree).interface) ++
            if own = .string then (StringEntry.at? grown (gather tree).interface node).toList else [])
        bundles := byKey Bundle.id ((tree.namesOf .bundle).filterMap (Bundle.at? tree) ++
          if own = .bundle then (Bundle.at? grown node).toList else [])
        cports := byKey CPort.id ((tree.namesOf .cport).filterMap (CPort.at? tree) ++
          if own = .cport then (CPort.at? grown node).toList else []) } := by
  have complete (other : String) (member : other ∈ tree.namesOf .string) :
      (StringEntry.at? tree (gather tree).interface other).isSome :=
    (StringEntry.atOwner _ _ other).trans (sound.strings other member)
  obtain ⟨interfaces, interface⟩ := grownEntries names sound.interface (Interface.atKept more)
    fun same => absurd same plain
  obtain ⟨strings, listed⟩ := grownEntries names complete (StringEntry.atKept more _) string
  obtain ⟨bundles, listed'⟩ := grownEntries names sound.bundles (Bundle.atKept more) bundle
  obtain ⟨cports, listed''⟩ := grownEntries names sound.cports (CPort.atKept more) cport
  rw [if_neg plain, List.append_nil] at interface
  constructor
  · refine ⟨?_, interfaces, ?_, bundles, cports⟩
    · rw [names, if_neg plain, List.append_nil]
      exact sound.single
    · intro other member
      rw [← StringEntry.atOwner _ (gather tree).interface]
      exact strings other member
  · have same : ((grown.namesOf .interface).filterMap (Interface.at? grown)).head? =
        (gather tree).interface := by rw [interface, gather]
    rw [gather, same, listed, listed', listed'']

end

section
variable {tree grown : Devicetree} {layout : Layout} (more : Extends tree grown)
  (read : ofDevicetree tree = .ok layout) {node : String}
include more read

theorem stringGrown {entry : StringEntry}
    (names : ∀ kind, grown.namesOf kind = tree.namesOf kind ++ if .string = kind then [node] else [])
    (found : StringEntry.at? grown layout.interface node = some entry) :
    ofDevicetree grown = .ok { layout with strings := layout.strings.insert entry.id entry } := by
  obtain ⟨sound, rfl⟩ := readIff.mp read
  obtain ⟨sound, same⟩ := grownLayout more names sound nofun
    (fun _ => Option.isSome_of_eq_some found) nofun nofun
  refine readIff.mpr ⟨sound, ?_⟩
  rw [same, if_pos rfl, if_neg nofun, if_neg nofun, found, Option.toList_some, byKeyNext]
  simp only [List.append_nil]
  rfl

theorem bundleGrown {entry : Bundle}
    (names : ∀ kind, grown.namesOf kind = tree.namesOf kind ++ if .bundle = kind then [node] else [])
    (found : Bundle.at? grown node = some entry) :
    ofDevicetree grown = .ok { layout with bundles := layout.bundles.insert entry.id entry } := by
  obtain ⟨sound, rfl⟩ := readIff.mp read
  obtain ⟨sound, same⟩ := grownLayout more names sound nofun nofun
    (fun _ => Option.isSome_of_eq_some found) nofun
  refine readIff.mpr ⟨sound, ?_⟩
  rw [same, if_pos rfl, if_neg nofun, if_neg nofun, found, Option.toList_some, byKeyNext]
  simp only [List.append_nil]
  rfl

theorem cportGrown {entry : CPort}
    (names : ∀ kind, grown.namesOf kind = tree.namesOf kind ++ if .cport = kind then [node] else [])
    (found : CPort.at? grown node = some entry) :
    ofDevicetree grown = .ok { layout with cports := layout.cports.insert entry.id entry } := by
  obtain ⟨sound, rfl⟩ := readIff.mp read
  obtain ⟨sound, same⟩ := grownLayout more names sound nofun nofun nofun
    (fun _ => Option.isSome_of_eq_some found)
  refine readIff.mpr ⟨sound, ?_⟩
  rw [same, if_pos rfl, if_neg nofun, if_neg nofun, found, Option.toList_some, byKeyNext]
  simp only [List.append_nil]
  rfl

end

inductive Leaf where
  | string (id text : String)
  | bundle (id classCode : String)
  | cport (controller id protocol owner : String)

namespace Leaf

def kind : Leaf → Kind
  | .string .. => .string
  | .bundle .. => .bundle
  | .cport .. => .cport

def attrs : Leaf → List (String × String)
  | .string id text =>
    [("compatible_IDX_0", "\"zephyr,greybus-string\""), ("id", id), ("greybus_string", text)]
  | .bundle id classCode =>
    [("compatible_IDX_0", "\"zephyr,greybus-bundle\""), ("id", id), ("bundle_class", classCode)]
  | .cport controller id protocol _ =>
    [("compatible_IDX_0", controller), ("id", id), ("cport_protocol", protocol)]

def owner? : Leaf → Option String
  | .cport _ _ _ owner => some owner
  | _ => none

def symbols (node : String) (leaf : Leaf) : List (String × String) :=
  nodeSymbols node leaf.attrs leaf.owner?

def Valid (symbols : Symbols) : Leaf → Prop
  | .string id _ => ∃ n : UInt8, Spells id.toList n.toNat
  | .bundle id classCode =>
    (∃ n : UInt8, Spells id.toList n.toNat) ∧ ∃ n : UInt8, Spells classCode.toList n.toNat
  | .cport controller id protocol owner =>
    controller ∈ Kind.cport.compatibles ∧ (∃ n : UInt16, Spells id.toList n.toNat) ∧
      (∃ n : UInt8, Spells protocol.toList n.toNat) ∧ Identified symbols owner

end Leaf

inductive Grows (symbols : Symbols) (layout : Layout) : Leaf → Layout → Prop where
  | string {id value : String} {entry : StringEntry} (number : Spells id.toList entry.id.toNat)
      (unquoted : Text.Unquoted value entry.text)
      (parent : ∀ owner, entry.parent = some owner ↔
        layout.interface = some owner ∧ (owner.vendor = entry.id ∨ owner.product = entry.id)) :
      Grows symbols layout (.string id value)
        { layout with strings := layout.strings.insert entry.id entry }
  | bundle {id classCode : String} {entry : Bundle} (number : Spells id.toList entry.id.toNat)
      (code : Spells classCode.toList entry.classCode.toNat) :
      Grows symbols layout (.bundle id classCode)
        { layout with bundles := layout.bundles.insert entry.id entry }
  | cport {controller id protocol owner : String} {entry : CPort}
      (number : Spells id.toList entry.id.toNat) (code : Spells protocol.toList entry.protocol.toNat)
      (led : Numbered symbols owner entry.bundle.toNat) :
      Grows symbols layout (.cport controller id protocol owner)
        { layout with cports := layout.cports.insert entry.id entry }

theorem leafAttrs (leaf : Leaf) : (leaf.attrs.map Prod.fst).Nodup ∧
    ∀ attr ∈ leaf.attrs.map Prod.fst, attr ∈ Binding.all := by
  cases leaf <;> simp only [Leaf.attrs, List.map_cons, List.map_nil] <;> decide

section
variable {symbols : Symbols} {node : String} {leaf : Leaf} {new : List (String × String)}
  (named : node ≠ "") (order : new.Perm (leaf.symbols node))
  (absent : (Devicetree.ofSymbols symbols).node? node = none)
include named order absent

theorem leafFresh : Fresh symbols node new := by
  obtain ⟨apart, all⟩ := leafAttrs leaf
  have bound : ∀ attr ∈ leaf.attrs, attr.1 ∈ Binding.all := fun attr listed =>
    all attr.1 (List.mem_map_of_mem listed)
  constructor
  · rintro rfl
    have none := order.length_eq
    cases leaf <;> simp [Leaf.symbols, nodeSymbols, Leaf.attrs] at none
  · rw [(order.map Prod.fst).nodup_iff]
    exact nodeNodup named bound apart
  · intro symbol member
    rcases nodePlace named bound (order.mem_iff.mp member) with ⟨attr, place, _⟩ | ⟨place, _⟩
    · exact congrArg SymbolName.node? place
    · exact congrArg SymbolName.node? place
  · rw [← nodeKnown, absent]
    simp

theorem leafSaid {attr value : String} (listed : (attr, value) ∈ leaf.attrs) :
    said? (symbols.insertAll new) node attr = some value := by
  have inside : (node ++ "_P_" ++ attr, value) ∈ leaf.symbols node :=
    List.mem_append_left _ (List.mem_map_of_mem listed)
  exact (grownGet (leafFresh named order absent)).mpr (.inr (order.mem_iff.mpr inside))

theorem leafCounts {attr value : String} (listed : (attr, value) ∈ leaf.attrs) {n : Nat}
    (spelled : Spells value.toList n) : Counts (symbols.insertAll new) node attr n :=
  ⟨value, leafSaid named order absent listed, spelled⟩

theorem leafOwner {owner : String} (linked : leaf.owner? = some owner) :
    Devicetree.owner? (symbols.insertAll new) node = some owner := by
  have inside : (node ++ "_PARENT", owner) ∈ leaf.symbols node :=
    List.mem_append_right _ (List.mem_map.mpr ⟨owner, Option.mem_toList.mpr linked, rfl⟩)
  exact (grownGet (leafFresh named order absent)).mpr (.inr (order.mem_iff.mpr inside))

theorem leafKind (valid : leaf.Valid symbols) :
    ((Devicetree.ofSymbols (symbols.insertAll new)).attr? node Binding.compatible).bind
      Kind.ofCompatible? = some leaf.kind := by
  rw [attrNamed named (by decide)]
  have compatible : ∃ value ∈ leaf.kind.compatibles, (Binding.compatible, value) ∈ leaf.attrs := by
    cases leaf with
    | string id text => exact ⟨_, List.mem_singleton_self _, List.mem_cons_self⟩
    | bundle id classCode => exact ⟨_, List.mem_singleton_self _, List.mem_cons_self⟩
    | cport controller id protocol owner => exact ⟨controller, valid.1, List.mem_cons_self⟩
  obtain ⟨value, kinded, listed⟩ := compatible
  rw [leafSaid named order absent listed]
  exact Kind.ofCompatibleIff.mpr kinded

theorem ownerKept {owner : String} {n : Nat} (led : Numbered symbols owner n) :
    Numbered (symbols.insertAll new) owner n := by
  obtain ⟨filled, value, found, spelled⟩ := led
  exact ⟨filled, value, (grownGet (leafFresh named order absent)).mpr (.inl found), spelled⟩

end

theorem layoutGrown {symbols : Symbols} {layout : Layout} (read : ofSymbols symbols = .ok layout)
    {node : String} (named : node ≠ "") (absent : (Devicetree.ofSymbols symbols).node? node = none)
    {leaf : Leaf} (valid : leaf.Valid symbols) {new : List (String × String)}
    (order : new.Perm (leaf.symbols node)) :
    ∃ grown, Grows symbols layout leaf grown ∧ ofSymbols (symbols.insertAll new) = .ok grown := by
  have fresh := leafFresh named order absent
  have names := grownNames fresh (leafKind named order absent valid)
  have more := grownExtends fresh
  have said {attr value : String} := @leafSaid symbols node leaf new named order absent attr value
  have counts {attr value : String} := @leafCounts symbols node leaf new named order absent attr value
  cases leaf with
  | string id value =>
    obtain ⟨n, number⟩ := valid
    let entry : StringEntry := ⟨n, String.ofList (Text.stripQuotes value.toList),
      layout.interface.filter fun interface => interface.names n⟩
    have found : StringEntry.at? _ layout.interface node = some entry := StringEntry.atSaid.mpr
      ⟨⟨named, counts (by simp [Leaf.attrs, Binding.id]) number⟩, value,
        said (by simp [Leaf.attrs, Binding.text]), rfl, rfl⟩
    have parent : ∀ owner, entry.parent = some owner ↔
        layout.interface = some owner ∧ (owner.vendor = n ∨ owner.product = n) := by
      intro owner
      rw [Option.filter_eq_some_iff]
      simp [Interface.names]
    exact ⟨_, @Grows.string _ _ _ _ entry number (Text.unquotedStrip value) parent,
      stringGrown more read names found⟩
  | bundle id classCode =>
    obtain ⟨⟨n, number⟩, m, code⟩ := valid
    have found : Bundle.at? _ node = some ⟨n, m⟩ := Bundle.atSaid.mpr
      ⟨⟨named, counts (by simp [Leaf.attrs, Binding.id]) number⟩,
        counts (by simp [Leaf.attrs, Binding.bundleClass]) code⟩
    exact ⟨_, .bundle number code, bundleGrown more read names found⟩
  | cport controller id protocol owner =>
    obtain ⟨_, ⟨n, number⟩, ⟨m, code⟩, k, led⟩ := valid
    have found : CPort.at? _ node = some ⟨n, k, m⟩ := CPort.atSaid.mpr
      ⟨⟨named, counts (by simp [Leaf.attrs, Binding.id]) number⟩,
        counts (by simp [Leaf.attrs, Binding.protocol]) code, owner,
        leafOwner named order absent rfl, ownerKept named order absent led⟩
    exact ⟨_, .cport number code led, cportGrown more read names found⟩

theorem layoutGrownReplaced :
    let symbols : Symbols := Table.ofList
      [("v_P_compatible_IDX_0", "\"zephyr,greybus-string\""), ("v_P_id", "1"),
       ("v_P_greybus_string", "\"old\""), ("i_P_vendor_string_id_IDX_0_PH", "v"),
       ("i_P_product_string_id_IDX_0_PH", "b"), ("b_P_id", "2"),
       ("i_P_compatible_IDX_0", "\"zephyr,greybus-interface\"")]
    let new := [("i_PARENT_P_greybus_string", "\"new\""), ("i_PARENT_P_id", "+01"),
      ("i_PARENT_P_compatible_IDX_0", "\"zephyr,greybus-string\"")]
    ∃ layout grown, ofSymbols symbols = .ok layout ∧
      Grows symbols layout (.string "+01" "\"new\"") grown ∧
      ofSymbols (symbols.insertAll new) = .ok grown ∧
      layout.descriptors = [.string ⟨1, "old", some ⟨1, 2⟩⟩, .interface ⟨1, 2⟩] ∧
      grown.descriptors = [.string ⟨1, "new", some ⟨1, 2⟩⟩, .interface ⟨1, 2⟩] := by
  intro symbols new
  have entries : (ofSymbols symbols).toOption.map descriptors =
      some [.string ⟨1, "old", some ⟨1, 2⟩⟩, .interface ⟨1, 2⟩] := by decide +kernel
  have replaced : (ofSymbols (symbols.insertAll new)).toOption.map descriptors =
      some [.string ⟨1, "new", some ⟨1, 2⟩⟩, .interface ⟨1, 2⟩] := by decide +kernel
  have absent : ((Devicetree.ofSymbols symbols).node? "i_PARENT").isNone := by decide +kernel
  have number : Text.Number.readByte "+01" = .ok 1 := by decide +kernel
  obtain ⟨layout, found, listed⟩ := Option.map_eq_some_iff.mp entries
  have read := toOptionIff.mp found
  obtain ⟨grown, grows, again⟩ := @layoutGrown symbols layout read "i_PARENT" (by decide)
    (Option.isNone_iff_eq_none.mp absent) (.string "+01" "\"new\"")
    ⟨1, Text.Number.readByteIff.mp number⟩ new (by decide)
  rw [again] at replaced
  exact ⟨layout, grown, read, grows, again, listed, Option.some.inj replaced⟩

end Layout
end Greybus
