import Mathlib.Data.List.Nodup
import Greybus.Proofs.Header.Lines
import Greybus.Proofs.Layout.Entries

/-! Layouts written down as headers. A plan says what a layout should hold, a naming
gives every node of it a name, and the symbols of the plan, one to a line, make a
header. Whatever the order of these lines, and whatever silent lines stand among
them, the header has the layout that was planned. -/
namespace Greybus.Layout
open Devicetree
open Text (NoBlank Trimmed)
open Text.Number (decimal)
open Header (Symbols)

structure Port where
  controller : String
  protocol : UInt8
  bundle : UInt8
  known : controller ∈ Kind.cport.compatibles

inductive Key where
  | interface
  | string (id : UInt8)
  | bundle (id : UInt8)
  | port (id : UInt16)
  deriving DecidableEq

inductive Part where
  | interface (entry : Interface)
  | string (id : UInt8) (text : String)
  | bundle (id classCode : UInt8)
  | port (id : UInt16) (device : Port)

namespace Part

def key : Part → Key
  | .interface _ => .interface
  | .string id _ => .string id
  | .bundle id _ => .bundle id
  | .port id _ => .port id

def kind : Part → Kind
  | .interface _ => .interface
  | .string .. => .string
  | .bundle .. => .bundle
  | .port .. => .cport

def attrs (name : Key → String) : Part → List (String × String)
  | .interface entry =>
    [("compatible_IDX_0", "\"zephyr,greybus-interface\""),
     ("vendor_string_id_IDX_0_PH", name (.string entry.vendor)),
     ("product_string_id_IDX_0_PH", name (.string entry.product))]
  | .string id text =>
    [("compatible_IDX_0", "\"zephyr,greybus-string\""), ("id", decimal id.toNat),
     ("greybus_string", "\"" ++ text ++ "\"")]
  | .bundle id classCode =>
    [("compatible_IDX_0", "\"zephyr,greybus-bundle\""), ("id", decimal id.toNat),
     ("bundle_class", decimal classCode.toNat)]
  | .port id device =>
    [("compatible_IDX_0", device.controller), ("id", decimal id.toNat),
     ("cport_protocol", decimal device.protocol.toNat)]

def parent? (name : Key → String) : Part → Option String
  | .port _ device => some (name (.bundle device.bundle))
  | _ => none

def symbols (name : Key → String) (part : Part) : List (String × String) :=
  (part.attrs name).map (fun attr => (name part.key ++ "_P_" ++ attr.1, attr.2)) ++
    (part.parent? name).toList.map fun owner => (name part.key ++ "_PARENT", owner)

theorem attrListed {name : Key → String} {part : Part} {attr value : String}
    (listed : (attr, value) ∈ part.attrs name) :
    (attrSymbol (name part.key) attr, value) ∈ part.symbols name :=
  List.mem_append_left _ (List.mem_map.mpr ⟨(attr, value), listed, rfl⟩)

theorem parentListed {name : Key → String} {part : Part} {owner : String}
    (linked : part.parent? name = some owner) :
    (parentSymbol (name part.key), owner) ∈ part.symbols name :=
  List.mem_append_right _ (List.mem_map.mpr ⟨owner, Option.mem_toList.mpr linked, rfl⟩)

theorem attrNames (name : Key → String) (part : Part) :
    ((part.attrs name).map Prod.fst).Nodup ∧
      ∀ attr ∈ (part.attrs name).map Prod.fst, attr ∈ Binding.all := by
  cases part <;> simp only [attrs, List.map_cons, List.map_nil] <;> decide

theorem attrBound {name : Key → String} {part : Part} {attr : String × String}
    (inside : attr ∈ part.attrs name) : attr.1 ∈ Binding.all :=
  (attrNames name part).2 _ (List.mem_map.mpr ⟨attr, inside, rfl⟩)

theorem attrUnique {name : Key → String} {part : Part} {attr left right : String}
    (first : (attr, left) ∈ part.attrs name) (second : (attr, right) ∈ part.attrs name) :
    left = right :=
  congrArg Prod.snd (List.inj_on_of_nodup_map (attrNames name part).1 first second rfl)

theorem attrCompatible {name : Key → String} {part : Part} {value : String}
    (inside : (Binding.compatible, value) ∈ part.attrs name) :
    Kind.ofCompatible? value = some part.kind := by
  have ports : ∀ controller ∈ Kind.cport.compatibles, Kind.ofCompatible? controller = some .cport := by
    decide
  cases part with
  | port id device =>
    simp [attrs, Binding.compatible] at inside
    exact inside ▸ ports _ device.known
  | _ =>
    simp [attrs, Binding.compatible] at inside
    rw [inside, kind]
    decide

theorem compatibleListed (name : Key → String) (part : Part) :
    ∃ value, (Binding.compatible, value) ∈ part.attrs name := by
  cases part <;> exact ⟨_, List.mem_cons_self⟩

end Part

structure Plan where
  interface : Option Interface
  strings : Std.ExtTreeMap UInt8 String
  bundles : Std.ExtTreeMap UInt8 UInt8
  ports : Std.ExtTreeMap UInt16 Port
  oneLine : ∀ entry ∈ strings.toList, '\n' ∉ entry.2.toList
  named : ∀ entry ∈ interface, entry.vendor ∈ strings ∧ entry.product ∈ strings
  owned : ∀ entry ∈ ports.toList, entry.2.bundle ∈ bundles

namespace Plan

def parts (plan : Plan) : List Part :=
  plan.interface.toList.map .interface ++
    plan.strings.toList.map (fun entry => .string entry.1 entry.2) ++
    plan.bundles.toList.map (fun entry => .bundle entry.1 entry.2) ++
    plan.ports.toList.map fun entry => .port entry.1 entry.2

structure Naming (plan : Plan) where
  name : Key → String
  filled : ∀ part ∈ plan.parts, name part.key ≠ ""
  solid : ∀ part ∈ plan.parts, NoBlank (name part.key).toList
  apart : ∀ left ∈ plan.parts, ∀ right ∈ plan.parts,
    name left.key = name right.key → left.key = right.key

variable {plan : Plan}

def symbols (plan : Plan) (naming : plan.Naming) : List (String × String) :=
  plan.parts.flatMap (Part.symbols naming.name)

def lines (plan : Plan) (naming : plan.Naming) : List String :=
  (plan.symbols naming).map Header.line

def layout (plan : Plan) : Layout where
  interface := plan.interface
  strings := plan.strings.map fun id text =>
    ⟨id, text, plan.interface.filter fun entry => entry.vendor = id || entry.product = id⟩
  bundles := plan.bundles.map fun id classCode => ⟨id, classCode⟩
  cports := plan.ports.map fun id port => ⟨id, port.bundle, port.protocol⟩

theorem stringPart {id : UInt8} {text : String} :
    .string id text ∈ plan.parts ↔ plan.strings[id]? = some text := by
  simp only [parts, List.mem_append, List.mem_map, Prod.exists,
    Std.ExtTreeMap.mem_toList_iff_getElem?_eq_some]
  simp

theorem bundlePart {id classCode : UInt8} :
    .bundle id classCode ∈ plan.parts ↔ plan.bundles[id]? = some classCode := by
  simp only [parts, List.mem_append, List.mem_map, Prod.exists,
    Std.ExtTreeMap.mem_toList_iff_getElem?_eq_some]
  simp

theorem portPart {id : UInt16} {device : Port} :
    .port id device ∈ plan.parts ↔ plan.ports[id]? = some device := by
  simp only [parts, List.mem_append, List.mem_map, Prod.exists,
    Std.ExtTreeMap.mem_toList_iff_getElem?_eq_some]
  simp

theorem interfacePart {entry : Interface} :
    .interface entry ∈ plan.parts ↔ plan.interface = some entry := by
  simp [parts]

def part? (plan : Plan) : Key → Option Part
  | .interface => plan.interface.map .interface
  | .string id => plan.strings[id]?.map (.string id)
  | .bundle id => plan.bundles[id]?.map (.bundle id)
  | .port id => plan.ports[id]?.map (.port id)

theorem partAt {part : Part} (member : part ∈ plan.parts) : plan.part? part.key = some part := by
  cases part with
  | interface entry => simp [part?, Part.key, interfacePart.mp member]
  | string id text => simp [part?, Part.key, stringPart.mp member]
  | bundle id classCode => simp [part?, Part.key, bundlePart.mp member]
  | port id device => simp [part?, Part.key, portPart.mp member]

theorem partUnique {left right : Part} (first : left ∈ plan.parts) (second : right ∈ plan.parts)
    (same : left.key = right.key) : left = right := by
  have found := partAt second
  rw [← same, partAt first] at found
  exact Option.some.inj found

theorem memSymbols {naming : plan.Naming} {symbol : String × String} :
    symbol ∈ plan.symbols naming ↔ ∃ part ∈ plan.parts, symbol ∈ part.symbols naming.name :=
  List.mem_flatMap

theorem symbolPlace {naming : plan.Naming} {part : Part} (member : part ∈ plan.parts)
    {symbol : String × String} (inside : symbol ∈ part.symbols naming.name) :
    (∃ attr, SymbolName.ofString symbol.1 = .attr (naming.name part.key) attr ∧
        (attr, symbol.2) ∈ part.attrs naming.name) ∨
      (SymbolName.ofString symbol.1 = .parent (naming.name part.key) ∧
        part.parent? naming.name = some symbol.2) :=
  nodePlace (naming.filled part member) (fun _ => Part.attrBound) inside

theorem symbolUnique {naming : plan.Naming} :
    ∀ left ∈ plan.symbols naming, ∀ right ∈ plan.symbols naming, left.1 = right.1 → left = right := by
  intro left first right second same
  obtain ⟨part, member, inside⟩ := memSymbols.mp first
  obtain ⟨part', member', inside'⟩ := memSymbols.mp second
  have place := symbolPlace member inside
  have place' := symbolPlace member' inside'
  rw [← same] at place'
  have one (names : naming.name part.key = naming.name part'.key) : part = part' :=
    partUnique member member' (naming.apart part member part' member' names)
  rcases place with ⟨attr, spelled, listed⟩ | ⟨spelled, linked⟩
  · rcases place' with ⟨attr', spelled', listed'⟩ | ⟨spelled', _⟩
    · obtain ⟨names, rfl⟩ := SymbolName.attr.inj (spelled.symm.trans spelled')
      cases one names
      exact Prod.ext same (Part.attrUnique listed listed')
    · cases spelled.symm.trans spelled'
  · rcases place' with ⟨_, spelled', _⟩ | ⟨spelled', linked'⟩
    · cases spelled.symm.trans spelled'
    · cases one (SymbolName.parent.inj (spelled.symm.trans spelled'))
      exact Prod.ext same (Option.some.inj (linked.symm.trans linked'))

theorem stringsOf {entry : Interface} (member : .interface entry ∈ plan.parts) :
    (∃ text, .string entry.vendor text ∈ plan.parts) ∧
      ∃ text, .string entry.product text ∈ plan.parts := by
  have present {id : UInt8} (there : id ∈ plan.strings) : ∃ text, .string id text ∈ plan.parts := by
    obtain ⟨text, found⟩ :=
      Option.isSome_iff_exists.mp (Std.ExtTreeMap.mem_iff_isSome_getElem?.mp there)
    exact ⟨text, stringPart.mpr found⟩
  obtain ⟨vendor, product⟩ := plan.named entry (interfacePart.mp member)
  exact ⟨present vendor, present product⟩

theorem bundleOf {id : UInt16} {device : Port} (member : .port id device ∈ plan.parts) :
    ∃ classCode, .bundle device.bundle classCode ∈ plan.parts := by
  have entry := Std.ExtTreeMap.mem_toList_iff_getElem?_eq_some.mpr (portPart.mp member)
  have there := Std.ExtTreeMap.mem_iff_isSome_getElem?.mp (plan.owned (id, device) entry)
  obtain ⟨classCode, found⟩ := Option.isSome_iff_exists.mp there
  exact ⟨classCode, bundlePart.mpr found⟩

end Plan

def Fitting (value : String) : Prop := Trimmed value.toList ∧ '\n' ∉ value.toList

theorem fittingSolid {value : String} (solid : NoBlank value.toList) : Fitting value :=
  ⟨Text.trimmedNoBlank solid, fun member => absurd (solid _ member) (by decide)⟩

theorem fittingCompatible : ∀ kind ∈ Kind.all, ∀ value ∈ kind.compatibles, Fitting value := by
  have solid : ∀ kind ∈ Kind.all, ∀ value ∈ kind.compatibles, NoBlank value.toList := by
    decide +kernel
  intro kind known value listed
  exact fittingSolid (solid kind known value listed)

theorem digitSolid {c : Char} (digit : c.isDigit) : Text.isBlank c = false := by
  simp only [Char.isDigit, Bool.and_eq_true, decide_eq_true_eq, ge_iff_le,
    UInt32.le_iff_toNat_le] at digit
  simp [Text.isBlank, Text.blankRanges]
  have low : '0'.val.toNat = 48 := rfl
  have high : '9'.val.toNat = 57 := rfl
  have same : c.toNat = c.val.toNat := rfl
  omega

theorem fittingDecimal (n : Nat) : Fitting (decimal n) := by
  apply fittingSolid
  intro c member
  rw [decimal, String.toList_ofList] at member
  exact digitSolid (Nat.isDigit_of_mem_toDigits (by decide) (by decide) member)

theorem fittingQuoted {text : String} (whole : '\n' ∉ text.toList) : Fitting ("\"" ++ text ++ "\"") := by
  refine ⟨⟨?_, ?_⟩, by simpa using whole⟩
  · intro c first
    have quote : c = '"' := by simpa using first.symm
    exact quote ▸ by decide
  · intro c last
    rw [String.toList_append, Header.lastAppend (by simp)] at last
    have quote : c = '"' := by simpa using last.symm
    exact quote ▸ by decide

namespace Plan
variable {plan : Plan}

theorem nameFitting (naming : plan.Naming) {part : Part} (member : part ∈ plan.parts) :
    Fitting (naming.name part.key) := fittingSolid (naming.solid part member)

theorem attrFitting {naming : plan.Naming} {part : Part} (member : part ∈ plan.parts)
    {attr : String × String} (listed : attr ∈ part.attrs naming.name) : Fitting attr.2 := by
  cases part with
  | interface entry =>
    obtain ⟨⟨_, vendor⟩, _, product⟩ := stringsOf member
    simp only [Part.attrs, List.mem_cons, List.not_mem_nil, or_false] at listed
    rcases listed with rfl | rfl | rfl
    · exact fittingCompatible .interface (by decide) _ (by decide)
    · exact nameFitting naming vendor
    · exact nameFitting naming product
  | string id text =>
    simp only [Part.attrs, List.mem_cons, List.not_mem_nil, or_false] at listed
    rcases listed with rfl | rfl | rfl
    · exact fittingCompatible .string (by decide) _ (by decide)
    · exact fittingDecimal _
    · have entry := Std.ExtTreeMap.mem_toList_iff_getElem?_eq_some.mpr (stringPart.mp member)
      exact fittingQuoted (plan.oneLine (id, text) entry)
  | bundle id classCode =>
    simp only [Part.attrs, List.mem_cons, List.not_mem_nil, or_false] at listed
    rcases listed with rfl | rfl | rfl
    · exact fittingCompatible .bundle (by decide) _ (by decide)
    · exact fittingDecimal _
    · exact fittingDecimal _
  | port id device =>
    simp only [Part.attrs, List.mem_cons, List.not_mem_nil, or_false] at listed
    rcases listed with rfl | rfl | rfl
    · exact fittingCompatible .cport (by decide) _ device.known
    · exact fittingDecimal _
    · exact fittingDecimal _

theorem parentFitting {naming : plan.Naming} {part : Part} (member : part ∈ plan.parts)
    {owner : String} (linked : part.parent? naming.name = some owner) : Fitting owner := by
  cases part with
  | port id device =>
    obtain ⟨_, bundle⟩ := bundleOf member
    cases linked
    exact nameFitting naming bundle
  | _ => contradiction

theorem solidAppend {left right : String} (first : NoBlank left.toList)
    (second : NoBlank right.toList) : NoBlank (left ++ right).toList := by
  intro c member
  rw [String.toList_append, List.mem_append] at member
  exact member.elim (first c) (second c)

theorem boundSolid : ∀ attr ∈ Binding.all, NoBlank ("_P_" ++ attr).toList := by
  decide +kernel

theorem symbolParts {naming : plan.Naming} {part : Part} (member : part ∈ plan.parts)
    {symbol : String × String} (inside : symbol ∈ part.symbols naming.name) :
    ∃ rest, symbol.1 = naming.name part.key ++ rest ∧ NoBlank rest.toList ∧ Fitting symbol.2 := by
  rcases List.mem_append.mp inside with said | link
  · obtain ⟨⟨attr, value⟩, listed, rfl⟩ := List.mem_map.mp said
    have fits := attrFitting member listed
    exact ⟨"_P_" ++ attr, String.append_assoc, boundSolid attr (Part.attrBound listed), fits⟩
  · obtain ⟨owner, linked, rfl⟩ := List.mem_map.mp link
    have suffix : NoBlank "_PARENT".toList := by decide
    exact ⟨"_PARENT", rfl, suffix, parentFitting member (Option.mem_toList.mp linked)⟩

theorem symbolClean {naming : plan.Naming} : ∀ symbol ∈ plan.symbols naming, Header.Declarable symbol := by
  intro symbol listed
  obtain ⟨part, member, inside⟩ := memSymbols.mp listed
  obtain ⟨rest, spelled, ends, fits⟩ := symbolParts member inside
  have solid : NoBlank symbol.1.toList := spelled ▸ solidAppend (naming.solid part member) ends
  have filled : symbol.1 ≠ "" := by
    have named := naming.filled part member
    simp_all
  exact ⟨filled, solid, fits.1, fits.2⟩

end Plan
end Greybus.Layout
