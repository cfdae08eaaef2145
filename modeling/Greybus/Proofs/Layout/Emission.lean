import Mathlib.Data.List.Perm.Subperm
import Greybus.Proofs.Layout.Content

/-! What a layout tells a sink, and in which order. The entries of a map come by rising
key, whatever they say themselves. In a layout that was read they say their own keys,
so that the manifest made of it has rising ids, and no more entries than there are ids. -/
namespace Greybus
open Header (Symbols)

def Sink.tell {σ : Type} [Sink σ] (sink : σ) : Sink.Call → σ
  | .setVersion version => Sink.setVersion sink version
  | .append descriptor => Sink.append sink descriptor

theorem Sink.tellLog (calls : List Sink.Call) (log : Array Sink.Call) :
    calls.foldl Sink.tell log = log ++ calls := by
  induction calls generalizing log with
  | nil => simp
  | cons call rest ih =>
    have pushed : Sink.tell log call = log.push call := by cases call <;> rfl
    rw [List.foldl_cons, ih, pushed]
    simp

structure Manifest.Ordered (m : Manifest) : Prop where
  strings : (m.strings.map StringEntry.id).Pairwise (· < ·)
  bundles : (m.bundles.map Bundle.id).Pairwise (· < ·)
  cports : (m.cports.map CPort.id).Pairwise (· < ·)
  single : m.interfaces.length ≤ 1
  interface : ∀ before entry after, m.descriptors.toList = before ++ .interface entry :: after →
    (∀ other ∈ before, other.kind = .string) ∧
      ∀ other ∈ after, other.kind = .bundle ∨ other.kind = .cport
  parents : ∀ string ∈ m.strings, ∀ owner, string.parent = some owner → m.interfaces = [owner]
  fewStrings : m.strings.length ≤ 256
  fewBundles : m.bundles.length ≤ 256
  fewCPorts : m.cports.length ≤ 65536

namespace Layout

section
variable {κ α : Type} [Ord κ] [Std.TransOrd κ] [Std.LawfulEqOrd κ] [LT κ]

structure Rising (map : Std.ExtTreeMap κ α) (entries : List (κ × α)) : Prop where
  order : (entries.map Prod.fst).Pairwise (· < ·)
  all : ∀ key entry, (key, entry) ∈ entries ↔ map[key]? = some entry

variable [LE κ] [Std.LawfulOrderOrd κ] [Std.LawfulOrderLT κ]

theorem entriesRising (map : Std.ExtTreeMap κ α) : Rising map map.toList := by
  constructor
  · rw [List.pairwise_map]
    apply map.ordered_keys_toList.imp
    intro left right less
    exact Std.compare_eq_lt.mp less
  · intro key entry
    exact Std.ExtTreeMap.mem_toList_iff_getElem?_eq_some

theorem idsRising {map : Std.ExtTreeMap κ α} {id : α → κ}
    (keyed : ∀ key entry, map[key]? = some entry → id entry = key) :
    (map.values.map id).Pairwise (· < ·) := by
  have ids : map.values.map id = map.toList.map Prod.fst := by
    rw [valuesPairs, List.map_map]
    apply List.map_congr_left
    intro entry member
    exact keyed _ _ (Std.ExtTreeMap.mem_toList_iff_getElem?_eq_some.mp member)
  rw [ids]
  exact (entriesRising map).order

end

theorem risingFew {α ν : Type} [LT ν] {entries : List α} {id : α → ν} {value : ν → Nat} {bound : Nat}
    (rises : ∀ m n : ν, m < n → value m < value n) (small : ∀ n, value n < bound)
    (rising : (entries.map id).Pairwise (· < ·)) : entries.length ≤ bound := by
  have apart : (entries.map fun entry => value (id entry)).Nodup := by
    rw [List.nodup_iff_pairwise_ne, List.pairwise_map]
    rw [List.pairwise_map] at rising
    exact rising.imp fun less => Nat.ne_of_lt (rises _ _ less)
  have inside : (entries.map fun entry => value (id entry)) ⊆ List.range bound := by
    intro n member
    obtain ⟨entry, _, rfl⟩ := List.mem_map.mp member
    exact List.mem_range.mpr (small _)
  simpa using (List.subperm_of_subset apart inside).length_le

def listing (layout : Layout) : List Descriptor :=
  layout.strings.toList.map (fun entry => .string entry.2) ++
    layout.interface.toList.map .interface ++
    layout.bundles.toList.map (fun entry => .bundle entry.2) ++
    layout.cports.toList.map fun entry => .cport entry.2

def calls (layout : Layout) (version : Version) : List Sink.Call :=
  .setVersion version :: layout.listing.map .append

structure Assembled (layout : Layout) (version : Version) : Prop where
  strings : Rising layout.strings layout.strings.toList
  bundles : Rising layout.bundles layout.bundles.toList
  cports : Rising layout.cports layout.cports.toList
  told : ∀ {σ : Type} [Sink σ] (sink : σ),
    layout.emit version sink = (layout.calls version).foldl Sink.tell sink
  logged : ∀ log : Array Sink.Call, layout.emit version log = log ++ layout.calls version
  manifest : layout.toManifest version = ⟨version, layout.listing.toArray⟩
  interfaceParts : (layout.toManifest version).interfaces = layout.interface.toList
  stringParts : (layout.toManifest version).strings = layout.strings.toList.map Prod.snd
  bundleParts : (layout.toManifest version).bundles = layout.bundles.toList.map Prod.snd
  cportParts : (layout.toManifest version).cports = layout.cports.toList.map Prod.snd

theorem descriptorsListed (layout : Layout) : layout.descriptors = layout.listing := by
  simp only [descriptors, listing, valuesPairs, List.map_map, Function.comp_def]

theorem emitTold (layout : Layout) (version : Version) {σ : Type} [Sink σ] (sink : σ) :
    layout.emit version sink = (layout.calls version).foldl Sink.tell sink := by
  rw [emit, descriptorsListed, calls, List.foldl_cons, List.foldl_map]
  rfl

theorem layoutAssembled (layout : Layout) (version : Version) : Assembled layout version where
  strings := entriesRising _
  bundles := entriesRising _
  cports := entriesRising _
  told := emitTold layout version
  logged log := by rw [emitTold, Sink.tellLog]
  manifest := by rw [toManifestParts, descriptorsListed]
  interfaceParts := manifestInterfaces layout version
  stringParts := by rw [manifestStrings, valuesPairs]
  bundleParts := by rw [manifestBundles, valuesPairs]
  cportParts := by rw [manifestCPorts, valuesPairs]

theorem soleCut {β : Type} {p : β → Prop} {left right before after : List β} {a b : β}
    (front : ∀ c ∈ left, ¬ p c) (back : ∀ c ∈ right, ¬ p c) (here : p b)
    (cut : left ++ a :: right = before ++ b :: after) : before = left ∧ after = right := by
  rw [List.append_eq_append_iff] at cut
  rcases cut with ⟨between, rfl, rest⟩ | ⟨between, rfl, rest⟩
  · cases between with
    | nil => exact ⟨List.append_nil left, (List.cons.inj rest).2.symm⟩
    | cons c inner =>
      have inside : b ∈ right := by simp [(List.cons.inj rest).2]
      exact absurd here (back b inside)
  · cases between with
    | nil => exact ⟨(List.append_nil before).symm, (List.cons.inj rest).2⟩
    | cons c inner =>
      have inside : b ∈ before ++ c :: inner := by simp [(List.cons.inj rest).1]
      exact absurd here (front b inside)

theorem interfaceBetween {layout : Layout} {before after : List Descriptor} {entry : Interface}
    (cut : layout.descriptors = before ++ .interface entry :: after) :
    before = layout.strings.values.map .string ∧
      after = layout.bundles.values.map .bundle ++ layout.cports.values.map .cport := by
  have listed : .interface entry ∈ layout.descriptors := by simp [cut]
  cases found : layout.interface with
  | none => simp [descriptors, found] at listed
  | some interface =>
    have parts : layout.strings.values.map .string ++ .interface interface ::
        (layout.bundles.values.map .bundle ++ layout.cports.values.map .cport) =
          before ++ .interface entry :: after := by
      rw [← cut]
      simp [descriptors, found]
    apply soleCut (p := fun descriptor => descriptor.kind = .interface) ?_ ?_ rfl parts
    · simp [Descriptor.kind]
    · simp [Descriptor.kind, or_imp, forall_and]

theorem manifestOrdered {symbols : Symbols} {layout : Layout} (content : Content symbols layout)
    (version : Version) : (layout.toManifest version).Ordered := by
  have strings := idsRising fun id entry kept => (content.strings id entry kept).1
  have bundles := idsRising fun id entry kept => (content.bundles id entry kept).1
  have cports := idsRising fun id entry kept => (content.cports id entry kept).1
  have interfaces := manifestInterfaces layout version
  constructor
  · rwa [manifestStrings]
  · rwa [manifestBundles]
  · rwa [manifestCPorts]
  · rw [interfaces]
    cases layout.interface <;> simp
  · intro before entry after cut
    rw [toManifestParts] at cut
    obtain ⟨rfl, rfl⟩ := interfaceBetween cut
    simp [Descriptor.kind, or_imp, forall_and]
  · intro string member owner linked
    rw [manifestStrings] at member
    obtain ⟨id, kept⟩ := valuesIff.mp member
    obtain ⟨_, _, _, _, _, _, parent⟩ := content.strings id string kept
    rw [interfaces, ((parent owner).mp linked).1, Option.toList_some]
  · rw [manifestStrings]
    exact risingFew (fun _ _ => UInt8.lt_iff_toNat_lt.mp) UInt8.toNat_lt strings
  · rw [manifestBundles]
    exact risingFew (fun _ _ => UInt8.lt_iff_toNat_lt.mp) UInt8.toNat_lt bundles
  · rw [manifestCPorts]
    exact risingFew (fun _ _ => UInt16.lt_iff_toNat_lt.mp) UInt16.toNat_lt cports

theorem manifestOrder :
    (∀ (layout : Layout) (version : Version), Assembled layout version) ∧
      ∀ (symbols : Symbols) (version : Version) (m : Manifest),
        Manifest.ofSymbols symbols version = .ok m → m.Ordered := by
  refine ⟨layoutAssembled, ?_⟩
  intro symbols version m made
  obtain ⟨layout, read, rfl⟩ := manifestRead.mp made
  obtain ⟨sound, rfl⟩ := readIff.mp read
  exact manifestOrdered (gatherContent sound) version

theorem manifestOrderFalling :
    let symbols : Symbols := Table.ofList
      [("w_P_compatible_IDX_0", "\"zephyr,greybus-string\""), ("w_P_id", "9"),
       ("w_P_greybus_string", "\"Widget\""), ("b_P_id", "3"), ("b_P_bundle_class", "8"),
       ("b_P_compatible_IDX_0", "\"zephyr,greybus-bundle\""), ("a_P_id", "1"),
       ("a_P_compatible_IDX_0", "\"zephyr,greybus-bundle\""), ("a_P_bundle_class", "2"),
       ("v_P_compatible_IDX_0", "\"zephyr,greybus-string\""), ("v_P_id", "4"),
       ("v_P_greybus_string", "\"Acme\""), ("x_P_compatible_IDX_0", "\"zephyr,greybus-string\""),
       ("x_P_id", "9"), ("x_P_greybus_string", "\"Gadget\""),
       ("i_P_compatible_IDX_0", "\"zephyr,greybus-interface\""),
       ("i_P_vendor_string_id_IDX_0_PH", "v"), ("i_P_product_string_id_IDX_0_PH", "w")]
    let m : Manifest := ⟨⟨1, 0⟩, #[.string ⟨4, "Acme", some ⟨4, 9⟩⟩, .string ⟨9, "Gadget", some ⟨4, 9⟩⟩,
      .interface ⟨4, 9⟩, .bundle ⟨1, 2⟩, .bundle ⟨3, 8⟩]⟩
    Manifest.ofSymbols symbols ⟨1, 0⟩ = .ok m ∧ m.Ordered := by
  intro symbols m
  have read : (Manifest.ofSymbols symbols ⟨1, 0⟩).toOption = some m := by decide +kernel
  have made := toOptionIff.mp read
  exact ⟨made, manifestOrder.2 symbols ⟨1, 0⟩ m made⟩

end Layout
end Greybus
