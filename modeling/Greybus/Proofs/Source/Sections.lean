import Mathlib.Data.List.Forall2
import Greybus.Conversion.Basic
import Greybus.Proofs.Blob.Walk
import Greybus.Proofs.Header.Lines
import Greybus.Proofs.Layout.Content

/-! The source text of a manifest by its lines. Texts of strings stand in it as they
are, and since they have no line feed in them they cannot pretend to be a section:
the lines that begin with a bracket are the titles. Whoever knows the text knows the
manifest, up to the parents of its strings, of which it says nothing. -/
namespace Greybus
open Text.Number (decimal hexadecimal decimalDigits decimalUnique hexadecimalUnique)

namespace Source

def lines? (text : String) : Option (List String) :=
  let pieces := Text.split '\n' text.toList
  if pieces.getLast? = some [] then some (pieces.dropLast.map String.ofList) else none

theorem linesEnded {lines : List String} (whole : ∀ line ∈ lines, '\n' ∉ line.toList) :
    lines? (String.join (lines.map fun line => line ++ "\n")) = some lines := by
  have chars : (String.join (lines.map fun line => line ++ "\n")).toList =
      (lines.map String.toList).flatMap fun piece => piece ++ ['\n'] := by
    simp [String.toList_join, List.flatMap_map]
  have pieces := Text.splitEnded (List.forall_mem_map.mpr whole)
  rw [lines?, chars, pieces]
  simp [List.map_map, Function.comp_def]

def Bracketed (line : String) : Prop := line.toList.head? = some '['

instance : DecidablePred Bracketed := fun _ => inferInstanceAs (Decidable (_ = _))

inductive Section : Descriptor → String → List String → Prop where
  | interface (vendor product : UInt8) :
      Section (.interface ⟨vendor, product⟩) "[interface-descriptor]"
        ["vendor-string-id = " ++ decimal vendor.toNat,
         "product-string-id = " ++ decimal product.toNat]
  | string (id : UInt8) (text : String) (parent : Option Interface) :
      Section (.string ⟨id, text, parent⟩) ("[string-descriptor " ++ decimal id.toNat ++ "]")
        ["string = " ++ text]
  | bundle (id classCode : UInt8) :
      Section (.bundle ⟨id, classCode⟩) ("[bundle-descriptor " ++ decimal id.toNat ++ "]")
        ["class = " ++ hexadecimal classCode]
  | cport (id : UInt16) (bundle protocol : UInt8) :
      Section (.cport ⟨id, bundle, protocol⟩) ("[cport-descriptor " ++ decimal id.toNat ++ "]")
        ["bundle = " ++ decimal bundle.toNat, "protocol = " ++ hexadecimal protocol]

theorem sectionLines (descriptor : Descriptor) :
    ∃ title fields, Section descriptor title fields ∧ descriptor.sourceLines = title :: fields := by
  cases descriptor with
  | interface entry => exact ⟨_, _, .interface entry.vendor entry.product, rfl⟩
  | string entry =>
    refine ⟨_, _, .string entry.id entry.text entry.parent, ?_⟩
    simp [Descriptor.sourceLines, numbered, title, field, ← String.append_assoc]
  | bundle entry =>
    refine ⟨_, _, .bundle entry.id entry.classCode, ?_⟩
    simp [Descriptor.sourceLines, numbered, title, field, ← String.append_assoc]
  | cport entry =>
    refine ⟨_, _, .cport entry.id entry.bundle entry.protocol, ?_⟩
    simp [Descriptor.sourceLines, numbered, title, field, ← String.append_assoc]

theorem sectionBracketed {descriptor : Descriptor} {title : String} {fields : List String}
    (written : Section descriptor title fields) :
    Bracketed title ∧ ∀ field ∈ fields, ¬ Bracketed field := by
  cases written <;> simp [Bracketed]

theorem sectionsFound (descriptors : List Descriptor) :
    ∃ sections : List (String × List String),
      (descriptors.flatMap fun descriptor => "" :: descriptor.sourceLines) =
          (sections.flatMap fun part => "" :: part.1 :: part.2) ∧
        List.Forall₂ (fun descriptor part => Section descriptor part.1 part.2) descriptors sections := by
  induction descriptors with
  | nil => exact ⟨[], rfl, .nil⟩
  | cons descriptor rest ih =>
    obtain ⟨sections, lines, each⟩ := ih
    obtain ⟨title, fields, written, first⟩ := sectionLines descriptor
    exact ⟨(title, fields) :: sections, by simp [lines, first], .cons written each⟩

theorem titlesFound {descriptors : List Descriptor} {sections : List (String × List String)}
    (each : List.Forall₂ (fun descriptor part => Section descriptor part.1 part.2) descriptors sections) :
    (sections.flatMap fun part => "" :: part.1 :: part.2).filter (fun line => Bracketed line) =
      sections.map Prod.fst := by
  induction each with
  | nil => rfl
  | cons written rest ih =>
    obtain ⟨title, fields⟩ := sectionBracketed written
    have bare : ¬ Bracketed "" := by decide
    rw [List.flatMap_cons, List.filter_append, ih]
    simpa [bare, title] using fields

/-- How lines tell a manifest: its header and, one after another and each behind an
empty line, the sections of its descriptors. No other line looks like a title. -/
structure Tells (lines : List String) (m : Manifest) (sections : List (String × List String)) : Prop where
  whole : lines = ["[manifest-header]", "version-major = " ++ decimal m.version.major.toNat,
    "version-minor = " ++ decimal m.version.minor.toNat] ++
      sections.flatMap fun part => "" :: part.1 :: part.2
  each : List.Forall₂ (fun descriptor part => Section descriptor part.1 part.2)
    m.descriptors.toList sections
  titles : lines.filter (fun line => Bracketed line) = "[manifest-header]" :: sections.map Prod.fst
  count : (lines.filter fun line => Bracketed line).length = 1 + m.descriptors.size

theorem sourceTells (m : Manifest) : ∃ sections, Tells m.sourceLines m sections := by
  obtain ⟨sections, lines, each⟩ := sectionsFound m.descriptors.toList
  have whole : m.sourceLines = ["[manifest-header]",
      "version-major = " ++ decimal m.version.major.toNat,
      "version-minor = " ++ decimal m.version.minor.toNat] ++
        sections.flatMap fun part => "" :: part.1 :: part.2 := by
    rw [Manifest.sourceLines, lines]
    rfl
  have titles : m.sourceLines.filter (fun line => Bracketed line) =
      "[manifest-header]" :: sections.map Prod.fst := by
    rw [whole, List.filter_append, titlesFound each]
    simp [Bracketed]
  refine ⟨sections, whole, each, titles, ?_⟩
  rw [titles, List.length_cons, List.length_map, ← each.length_eq, Array.length_toList, Nat.add_comm]

theorem decimalFeed (n : Nat) : '\n' ∉ (decimal n).toList := by
  intro feed
  exact absurd (decimalDigits n '\n' feed) (by decide)

theorem hexadecimalFeed (byte : UInt8) : '\n' ∉ (hexadecimal byte).toList := by
  have digits : ∀ n < 16, '\n' ≠ Nat.digitChar n := by decide
  have size := byte.toNat_lt
  have high := digits (byte.toNat / 16) (by omega)
  have low := digits (byte.toNat % 16) (by omega)
  simp [hexadecimal, high, low]

theorem sectionWhole {descriptor : Descriptor} {title : String} {fields : List String}
    (written : Section descriptor title fields)
    (text : ∀ entry, descriptor.string? = some entry → '\n' ∉ entry.text.toList) :
    ∀ line ∈ title :: fields, '\n' ∉ line.toList := by
  cases written with
  | string id value parent =>
    have value := text _ rfl
    simpa [decimalFeed] using value
  | _ => simp [decimalFeed, hexadecimalFeed]

theorem fieldUnique {name left right : String} (same : field name left = field name right) :
    left = right := by
  simpa [field] using same

theorem numberedUnique {name : String} {left right : Nat}
    (same : numbered name left = numbered name right) : left = right := by
  apply decimalUnique
  simpa [numbered, title] using same

end Source
open Source

namespace Descriptor

theorem titleKind (descriptor : Descriptor) :
    ∃ title fields rest, descriptor.sourceLines = title :: fields ∧
      title.toList = '[' :: (descriptor.kind.name.toList ++ '-' :: rest) := by
  cases descriptor with
  | interface entry => exact ⟨_, _, "descriptor]".toList, rfl, by simp [title, kind, Kind.name]⟩
  | string entry =>
    refine ⟨_, _, "descriptor ".toList ++ (decimal entry.id.toNat).toList ++ [']'], rfl, ?_⟩
    simp [numbered, title, kind, Kind.name]
  | bundle entry =>
    refine ⟨_, _, "descriptor ".toList ++ (decimal entry.id.toNat).toList ++ [']'], rfl, ?_⟩
    simp [numbered, title, kind, Kind.name]
  | cport entry =>
    refine ⟨_, _, "descriptor ".toList ++ (decimal entry.id.toNat).toList ++ [']'], rfl, ?_⟩
    simp [numbered, title, kind, Kind.name]

theorem kindUnique {left right : Descriptor} {before after : List String}
    (same : left.sourceLines ++ before = right.sourceLines ++ after) : left.kind = right.kind := by
  obtain ⟨title, fields, rest, lines, chars⟩ := titleKind left
  obtain ⟨title', fields', rest', lines', chars'⟩ := titleKind right
  rw [lines, lines', List.cons_append, List.cons_append, List.cons.injEq] at same
  rw [same.1, chars'] at chars
  have names := (List.cons.inj chars).2
  cases one : left.kind <;> cases other : right.kind <;> simp [one, other, Kind.name] at names ⊢

theorem sectionUnique {left right : Descriptor} {before after : List String}
    (same : left.sourceLines ++ before = right.sourceLines ++ after) :
    left.orphan = right.orphan ∧ before = after := by
  have kind := kindUnique same
  cases left with
  | interface entry =>
    cases right with
    | interface again =>
      simp only [sourceLines, List.cons_append, List.nil_append, List.cons.injEq, true_and] at same
      obtain ⟨vendor, product, rest⟩ := same
      have first := UInt8.toNat_inj.mp (decimalUnique (fieldUnique vendor))
      have second := UInt8.toNat_inj.mp (decimalUnique (fieldUnique product))
      cases entry
      cases again
      simp_all [orphan]
    | _ => contradiction
  | string entry =>
    cases right with
    | string again =>
      simp only [sourceLines, List.cons_append, List.nil_append, List.cons.injEq] at same
      obtain ⟨title, text, rest⟩ := same
      have id := UInt8.toNat_inj.mp (numberedUnique title)
      simp [orphan, id, fieldUnique text, rest]
    | _ => contradiction
  | bundle entry =>
    cases right with
    | bundle again =>
      simp only [sourceLines, List.cons_append, List.nil_append, List.cons.injEq] at same
      obtain ⟨title, code, rest⟩ := same
      have id := UInt8.toNat_inj.mp (numberedUnique title)
      have codes := hexadecimalUnique (fieldUnique code)
      cases entry
      cases again
      simp_all [orphan]
    | _ => contradiction
  | cport entry =>
    cases right with
    | cport again =>
      simp only [sourceLines, List.cons_append, List.nil_append, List.cons.injEq] at same
      obtain ⟨title, bundle, protocol, rest⟩ := same
      have id := UInt16.toNat_inj.mp (numberedUnique title)
      have bundles := UInt8.toNat_inj.mp (decimalUnique (fieldUnique bundle))
      have protocols := hexadecimalUnique (fieldUnique protocol)
      cases entry
      cases again
      simp_all [orphan]
    | _ => contradiction

theorem sectionsUnique {left right : List Descriptor}
    (same : (left.flatMap fun descriptor => "" :: descriptor.sourceLines) =
      right.flatMap fun descriptor => "" :: descriptor.sourceLines) :
    left.map orphan = right.map orphan := by
  induction left generalizing right with
  | nil =>
    cases right with
    | nil => rfl
    | cons descriptor rest => simp at same
  | cons descriptor rest ih =>
    cases right with
    | nil => simp at same
    | cons other others =>
      simp only [List.flatMap_cons, List.cons_append, List.cons.injEq, true_and] at same
      obtain ⟨first, tail⟩ := sectionUnique same
      rw [List.map_cons, List.map_cons, first, ih tail]

theorem orphanLines (descriptor : Descriptor) : descriptor.orphan.sourceLines = descriptor.sourceLines := by
  cases descriptor <;> rfl

end Descriptor

theorem Version.linesUnique {left right : Version} (same : left.sourceLines = right.sourceLines) :
    left = right := by
  simp only [sourceLines, List.cons.injEq, true_and, and_true] at same
  have major := UInt8.toNat_inj.mp (decimalUnique (fieldUnique same.1))
  have minor := UInt8.toNat_inj.mp (decimalUnique (fieldUnique same.2))
  cases left
  cases right
  simp_all

namespace Manifest

def OneLine (m : Manifest) : Prop := ∀ entry ∈ m.strings, '\n' ∉ entry.text.toList

instance (m : Manifest) : Decidable m.OneLine := inferInstanceAs (Decidable (∀ _ ∈ _, _))

theorem linesWhole {m : Manifest} (one : m.OneLine) : ∀ line ∈ m.sourceLines, '\n' ∉ line.toList := by
  intro line member
  rcases List.mem_append.mp member with header | inside
  · simp only [Version.sourceLines, List.mem_cons, List.not_mem_nil, or_false] at header
    rcases header with rfl | rfl | rfl <;> simp [title, field, decimalFeed]
  · obtain ⟨descriptor, listed, within⟩ := List.mem_flatMap.mp inside
    rcases List.mem_cons.mp within with rfl | own
    · simp
    · obtain ⟨title, fields, written, lines⟩ := sectionLines descriptor
      rw [lines] at own
      refine sectionWhole written ?_ line own
      intro entry kind
      exact one entry (List.mem_filterMap.mpr ⟨descriptor, listed, kind⟩)

theorem sourceEnded {m : Manifest} (one : m.OneLine) : lines? m.source = some m.sourceLines :=
  linesEnded (linesWhole one)

theorem linesUnique {left right : Manifest} (same : left.sourceLines = right.sourceLines) :
    left.version = right.version ∧
      left.descriptors.toList.map Descriptor.orphan = right.descriptors.toList.map Descriptor.orphan := by
  obtain ⟨header, sections⟩ := List.append_inj same rfl
  exact ⟨Version.linesUnique header, Descriptor.sectionsUnique sections⟩

theorem linesOrphan (m : Manifest) : m.sourceLines = m.version.sourceLines ++
    (m.descriptors.toList.map Descriptor.orphan).flatMap fun descriptor =>
      "" :: descriptor.sourceLines := by
  simp [sourceLines, List.flatMap_map, Descriptor.orphanLines]

theorem sourceOrphans {left right : Manifest} (version : left.version = right.version)
    (descriptors : left.descriptors.toList.map Descriptor.orphan =
      right.descriptors.toList.map Descriptor.orphan) : left.source = right.source := by
  rw [source, source, linesOrphan left, linesOrphan right, version, descriptors]

theorem sourceUnique {left right : Manifest} (one : left.OneLine) (other : right.OneLine) :
    left.source = right.source ↔ left.version = right.version ∧
      left.descriptors.toList.map Descriptor.orphan = right.descriptors.toList.map Descriptor.orphan := by
  constructor
  · intro same
    have lines := sourceEnded one
    rw [same, sourceEnded other] at lines
    exact linesUnique (Option.some.inj lines).symm
  · intro h
    exact sourceOrphans h.1 h.2

end Manifest

theorem Text.unquotedInside {value text : String} (unquoted : Unquoted value text) {c : Char}
    (member : c ∈ text.toList) : c ∈ value.toList := by
  rcases unquoted with rfl | ⟨_, rfl⟩
  · simp [member]
  · exact member

namespace Layout

theorem readOneLine {source : String} {layout : Layout}
    (read : ofSymbols (Header.symbols source) = .ok layout) (version : Version) :
    (layout.toManifest version).OneLine := by
  obtain ⟨sound, rfl⟩ := readIff.mp read
  intro entry member feed
  rw [manifestStrings] at member
  obtain ⟨id, kept⟩ := valuesIff.mp member
  obtain ⟨_, node, value, _, said, unquoted, _⟩ := (gatherContent sound).strings id entry kept
  exact Header.valueWhole said (Text.unquotedInside unquoted feed)

end Layout

theorem Source.sourceReadBack :
    (∀ (source : String) (version : Version) (m : Manifest),
      Manifest.ofSymbols (Header.symbols source) version = .ok m →
        m.version = version ∧ m.OneLine ∧
          ∃ lines sections, lines? m.source = some lines ∧ Tells lines m sections) ∧
    ∀ left right : Manifest, left.OneLine → right.OneLine →
      (left.source = right.source ↔ left.version = right.version ∧
        left.descriptors.toList.map Descriptor.orphan =
          right.descriptors.toList.map Descriptor.orphan) := by
  constructor
  · intro source version m read
    obtain ⟨layout, found, rfl⟩ := Layout.manifestRead.mp read
    have one := Layout.readOneLine found version
    obtain ⟨sections, tells⟩ := sourceTells (layout.toManifest version)
    exact ⟨by rw [Layout.toManifestParts], one, _, sections, Manifest.sourceEnded one, tells⟩
  · intro left right one other
    exact Manifest.sourceUnique one other

theorem Source.sourceReadBackTitle :
    let source := "#define a_P_compatible_IDX_0 \"zephyr,greybus-string\"\n#define a_P_id 1\n" ++
      "#define a_P_greybus_string \"[bundle-descriptor 1]\""
    let m : Manifest := ⟨⟨0, 1⟩, #[.string ⟨1, "[bundle-descriptor 1]", none⟩]⟩
    let other : Manifest := ⟨⟨0, 1⟩, #[.string ⟨1, "", none⟩, .bundle ⟨1, 0⟩]⟩
    let text := "[manifest-header]\nversion-major = 0\nversion-minor = 1\n\n" ++
      "[string-descriptor 1]\nstring = [bundle-descriptor 1]\n"
    Manifest.ofSymbols (Header.symbols source) ⟨0, 1⟩ = .ok m ∧ m.source = text ∧ m.OneLine ∧
      (∃ lines sections, lines? m.source = some lines ∧ Tells lines m sections) ∧
      other.OneLine ∧ m.source ≠ other.source := by
  intro source m other text
  have read : (Manifest.ofSymbols (Header.symbols source) ⟨0, 1⟩).toOption = some m := by decide +kernel
  obtain ⟨back, unique⟩ := sourceReadBack
  obtain ⟨_, one, told⟩ := back source ⟨0, 1⟩ m (toOptionIff.mp read)
  have one' : other.OneLine := by decide
  refine ⟨toOptionIff.mp read, by decide +kernel, one, told, one', ?_⟩
  intro same
  exact absurd ((unique m other one one').mp same).2 (by decide)

end Greybus
