import Mathlib.Data.List.Forall2
import Greybus.Manifest.Blob

/-! The records of a packed manifest by their own sizes. Whoever knows only where
the first record begins comes to each record in its turn, ends where the blob
ends, and finds in every record all that its descriptor says. Of the parent of a
string a blob tells nothing, so two manifests that differ there look the same. -/
namespace Greybus

theorem Kind.codeUnique {left right : Kind} (same : left.code = right.code) : left = right := by
  cases left <;> cases right <;> simp_all [code]

namespace Blob

def wordAt? (bytes : Bytes) (offset : Nat) : Option Nat := do
  let low ← bytes[offset]?
  let high ← bytes[offset + 1]?
  return low.toNat + 256 * high.toNat

theorem wordInside {bytes : Bytes} {offset n : Nat} (found : wordAt? bytes offset = some n) :
    offset < bytes.length := by
  obtain ⟨low, first, _⟩ := Option.bind_eq_some_iff.mp found
  exact (List.getElem?_eq_some_iff.mp first).1

structure Visit where
  offset : Nat
  size : Nat
  deriving DecidableEq, Repr

structure Walk where
  visits : List Visit
  stop : Nat
  deriving DecidableEq, Repr

/-- Goes on by the size found at each offset. It stops where there is no size, or
where the size is zero and would lead nowhere. -/
def walk (bytes : Bytes) (offset : Nat) : Walk :=
  match found : wordAt? bytes offset with
  | none => ⟨[], offset⟩
  | some size =>
    have := wordInside found
    if 0 < size then
      let rest := walk bytes (offset + size)
      ⟨⟨offset, size⟩ :: rest.visits, rest.stop⟩
    else ⟨[], offset⟩
termination_by bytes.length - offset

theorem walkEnd {bytes : Bytes} {offset : Nat} (none : wordAt? bytes offset = none) :
    walk bytes offset = ⟨[], offset⟩ := by
  unfold walk
  split
  · rfl
  · simp_all

theorem walkOn {bytes : Bytes} {offset size : Nat} (found : wordAt? bytes offset = some size)
    (positive : 0 < size) :
    walk bytes offset =
      ⟨⟨offset, size⟩ :: (walk bytes (offset + size)).visits, (walk bytes (offset + size)).stop⟩ := by
  rw [walk]
  split
  · simp_all
  · rename_i other again
    rw [found] at again
    cases Option.some.inj again
    rw [if_pos positive]

theorem wordValue (n : UInt16) : n.toUInt8.toNat + 256 * (n >>> 8).toUInt8.toNat = n.toNat := by
  have bound := n.toNat_lt
  have low : n.toUInt8.toNat = n.toNat % 256 := rfl
  have high : (n >>> 8).toUInt8.toNat = n.toNat / 256 := by
    simp [Nat.shiftRight_eq_div_pow]
    omega
  rw [low, high, Nat.mod_add_div]

theorem wordPlaced (before after : Bytes) (n : UInt16) :
    wordAt? (before ++ (word n ++ after)) before.length = some n.toNat := by
  have placed : wordAt? (before ++ (word n ++ after)) before.length =
      some (n.toUInt8.toNat + 256 * (n >>> 8).toUInt8.toNat) := by
    simp [wordAt?, word]
  rw [placed, wordValue]

theorem wordNone (bytes : Bytes) : wordAt? bytes bytes.length = none := by
  simp [wordAt?]

theorem alignWhole (n : Nat) : align n % 4 = 0 := by
  unfold align
  omega

theorem alignBounds (n : Nat) : n ≤ align n ∧ align n < n + 4 := by
  unfold align
  omega

theorem textUnique {left right : String} (same : textBytes left = textBytes right) : left = right :=
  String.toByteArray_inj.mp (ByteArray.ext (Array.toList_inj.mp same))

theorem textLength (text : String) : (textBytes text).length = text.utf8ByteSize := by
  simp [textBytes]

end Blob
open Blob

namespace Descriptor

/-- The longest text whose record, filled up, still has the largest size. -/
def longestText : Nat := 254

def Fits : Descriptor → Prop
  | .string entry => entry.text.utf8ByteSize ≤ longestText
  | _ => True

theorem packedFits {descriptor : Descriptor} {bytes : Bytes} (ok : descriptor.packed = .ok bytes) :
    bytes = descriptor.record ∧ descriptor.Fits := by
  cases descriptor with
  | string entry =>
    simp only [packed] at ok
    split at ok
    · rename_i small
      cases ok
      have aligned := small.2
      simp only [align, headSize, maxTextRecord, maxText] at aligned
      refine ⟨rfl, ?_⟩
      simp only [Fits, longestText]
      omega
    · contradiction
  | interface entry => cases ok; exact ⟨rfl, trivial⟩
  | bundle entry => cases ok; exact ⟨rfl, trivial⟩
  | cport entry => cases ok; exact ⟨rfl, trivial⟩

theorem recordLength (descriptor : Descriptor) :
    descriptor.record.length = align (headSize + descriptor.body.length) := by
  have enough := (alignBounds (headSize + descriptor.body.length)).1
  simp only [record, word, List.length_append, List.length_cons, List.length_nil, List.length_replicate]
  unfold headSize at enough ⊢
  omega

theorem bodyLength {descriptor : Descriptor} (fits : descriptor.Fits) :
    1 ≤ descriptor.body.length ∧ descriptor.body.length ≤ 2 + longestText := by
  cases descriptor with
  | string entry =>
    simp only [Fits] at fits
    simp only [body, List.length_cons, textLength]
    omega
  | _ => simp [body, word, longestText]

theorem recordBounds {descriptor : Descriptor} (fits : descriptor.Fits) :
    8 ≤ descriptor.record.length ∧ descriptor.record.length < 65536 := by
  have bounds := bodyLength fits
  rw [recordLength]
  unfold align headSize longestText at *
  omega

def In (body : Bytes) : Descriptor → Prop
  | .interface entry => body = [entry.vendor, entry.product, 0, 0]
  | .string entry => ∃ (length : UInt8) (filling : Bytes),
      body = length :: entry.id :: textBytes entry.text ++ filling ∧
        length.toNat = entry.text.utf8ByteSize ∧ filling.length < 4 ∧ ∀ byte ∈ filling, byte = 0
  | .bundle entry => body = [entry.id, entry.classCode, 0, 0]
  | .cport entry => ∃ low high : UInt8,
      body = [low, high, entry.bundle, entry.protocol] ∧
        low.toNat + 256 * high.toNat = entry.id.toNat

theorem bodyIn {descriptor : Descriptor} (fits : descriptor.Fits) {n : Nat} (few : n < 4)
    (whole : (headSize + descriptor.body.length + n) % 4 = 0) :
    descriptor.In (descriptor.body ++ List.replicate n 0) := by
  have filled (four : descriptor.body.length = 4) : n = 0 := by
    unfold headSize at whole
    omega
  cases descriptor with
  | string entry =>
    simp only [Fits, longestText] at fits
    refine ⟨_, _, rfl, ?_, by simpa using few, fun byte member => List.eq_of_mem_replicate member⟩
    simp
    omega
  | interface entry => simp [In, body, filled rfl]
  | bundle entry => simp [In, body, filled rfl]
  | cport entry =>
    exact ⟨entry.id.toUInt8, (entry.id >>> 8).toUInt8, by simp [body, word, filled rfl],
      wordValue entry.id⟩

def orphan : Descriptor → Descriptor
  | .string entry => .string { entry with parent := none }
  | descriptor => descriptor

theorem inUnique {body : Bytes} {left right : Descriptor} (kind : left.kind = right.kind)
    (one : left.In body) (other : right.In body) : left.orphan = right.orphan := by
  cases left with
  | string entry =>
    cases right with
    | string again =>
      obtain ⟨length, filling, rfl, size, _⟩ := one
      obtain ⟨length', filling', same, size', _⟩ := other
      simp only [List.cons_append, List.cons.injEq] at same
      obtain ⟨rfl, ids, texts⟩ := same
      have lengths : (textBytes entry.text).length = (textBytes again.text).length := by
        rw [textLength, textLength, ← size, ← size']
      have text := textUnique (List.append_inj texts lengths).1
      simp [orphan, ids, text]
    | _ => contradiction
  | interface entry =>
    cases right with
    | interface again =>
      cases entry
      cases again
      simpa [orphan] using one.symm.trans other
    | _ => contradiction
  | bundle entry =>
    cases right with
    | bundle again =>
      cases entry
      cases again
      simpa [orphan] using one.symm.trans other
    | _ => contradiction
  | cport entry =>
    cases right with
    | cport again =>
      obtain ⟨low, high, rfl, id⟩ := one
      obtain ⟨low', high', same, id'⟩ := other
      simp only [List.cons.injEq, and_true] at same
      obtain ⟨rfl, rfl, bundle, protocol⟩ := same
      have ids := UInt16.toNat_inj.mp (id.symm.trans id')
      cases entry
      cases again
      simp_all [orphan]
    | _ => contradiction

end Descriptor

namespace Blob

structure RecordAt (bytes : Bytes) (visit : Visit) (descriptor : Descriptor) : Prop where
  size : wordAt? bytes visit.offset = some visit.size
  aligned : visit.size % 4 = 0
  least : 8 ≤ visit.size
  inside : visit.offset + visit.size ≤ bytes.length
  code : bytes[visit.offset + 2]? = some descriptor.kind.code
  zero : bytes[visit.offset + 3]? = some 0
  body : descriptor.In ((bytes.drop (visit.offset + 4)).take (visit.size - 4))

theorem recordPlaced (before after : Bytes) {descriptor : Descriptor} (fits : descriptor.Fits) :
    RecordAt (before ++ (descriptor.record ++ after)) ⟨before.length, descriptor.record.length⟩
      descriptor := by
  have bounds := descriptor.recordBounds fits
  have length := descriptor.recordLength
  have aligned := alignBounds (headSize + descriptor.body.length)
  have size : (align (headSize + descriptor.body.length)).toUInt16.toNat = descriptor.record.length := by
    rw [length] at bounds ⊢
    simp
    omega
  constructor
  · rw [← size, Descriptor.record]
    simpa only [List.append_assoc] using wordPlaced before _ _
  · rw [length]
    exact alignWhole _
  · exact bounds.1
  · simp
  · simp [Descriptor.record, word]
  · simp [Descriptor.record, word]
  · have body : ((before ++ (descriptor.record ++ after)).drop (before.length + 4)).take
        (descriptor.record.length - 4) = descriptor.record.drop 4 := by
      rw [← List.drop_drop, List.drop_left, List.drop_append_of_le_length (by omega),
        List.take_left' (by simp)]
    have parts : descriptor.record.drop 4 = descriptor.body ++ List.replicate
        (align (headSize + descriptor.body.length) - (headSize + descriptor.body.length)) 0 := by
      simp [Descriptor.record, word]
    rw [body, parts]
    refine Descriptor.bodyIn fits (by omega) ?_
    rw [Nat.add_sub_cancel' aligned.1]
    exact alignWhole _

theorem walkRecords (before : Bytes) {descriptors : List Descriptor}
    (fits : ∀ descriptor ∈ descriptors, descriptor.Fits) :
    let bytes := before ++ descriptors.flatMap Descriptor.record
    (walk bytes before.length).stop = bytes.length ∧
      List.Forall₂ (RecordAt bytes) (walk bytes before.length).visits descriptors := by
  induction descriptors generalizing before with
  | nil =>
    simp only [List.flatMap_nil, List.append_nil]
    rw [walkEnd (wordNone before)]
    exact ⟨rfl, .nil⟩
  | cons descriptor rest ih =>
    have head := recordPlaced before (rest.flatMap Descriptor.record) (fits _ List.mem_cons_self)
    have tail := ih (before ++ descriptor.record) fun d member => fits d (List.mem_cons_of_mem _ member)
    simp only [List.append_assoc, List.length_append] at tail
    simp only [List.flatMap_cons, List.length_append]
    have least := head.least
    rw [walkOn head.size (by omega)]
    exact ⟨by simpa using tail.1, .cons head (by simpa using tail.2)⟩

theorem recordUnique {bytes : Bytes} {visit : Visit} {left right : Descriptor}
    (one : RecordAt bytes visit left) (other : RecordAt bytes visit right) :
    left.orphan = right.orphan := by
  have code := Option.some.inj (one.code.symm.trans other.code)
  exact Descriptor.inUnique (Kind.codeUnique code) one.body other.body

theorem recordsParts {size : Nat} {descriptors : List Descriptor} {bytes : Bytes}
    (ok : records size descriptors = .ok bytes) (room : size ≤ maxSize) :
    bytes = descriptors.flatMap Descriptor.record ∧ size + bytes.length ≤ maxSize ∧
      ∀ descriptor ∈ descriptors, descriptor.Fits := by
  induction descriptors generalizing size bytes with
  | nil =>
    cases ok
    simpa using room
  | cons descriptor rest ih =>
    simp only [records, bind, Except.bind] at ok
    cases head : descriptor.packed with
    | error fault => simp [head] at ok
    | ok record =>
      obtain ⟨rfl, fits⟩ := Descriptor.packedFits head
      simp only [head] at ok
      split at ok
      · contradiction
      · rename_i small
        cases tail : records (size + descriptor.record.length) rest with
        | error fault => simp [tail] at ok
        | ok others =>
          obtain ⟨rfl, total, all⟩ := ih tail (by omega)
          simp only [tail] at ok
          cases ok
          refine ⟨rfl, ?_, List.forall_mem_cons.mpr ⟨fits, all⟩⟩
          rw [List.length_append]
          omega

theorem recordsRoom {descriptors : List Descriptor} {bytes : Bytes}
    (found : records headSize descriptors = .ok bytes) : ¬ headSize + bytes.length > maxSize :=
  Nat.not_lt.mpr (recordsParts found (by decide)).2.1

theorem blobRecords (m : Manifest) :
    m.blob = (records headSize m.descriptors.toList).map fun records =>
      word (headSize + records.length).toUInt16 ++ [m.version.major, m.version.minor] ++ records := by
  simp only [Manifest.blob, bind, Except.bind]
  cases found : records headSize m.descriptors.toList with
  | error fault => rfl
  | ok bytes => exact if_neg (recordsRoom found)

theorem blobParts {m : Manifest} {bytes : Bytes} (packed : m.blob = .ok bytes) :
    bytes = word bytes.length.toUInt16 ++ [m.version.major, m.version.minor] ++
        m.descriptors.toList.flatMap Descriptor.record ∧
      bytes.length ≤ maxSize ∧ ∀ descriptor ∈ m.descriptors.toList, descriptor.Fits := by
  rw [blobRecords] at packed
  cases found : records headSize m.descriptors.toList with
  | error fault => simp [found, Except.map] at packed
  | ok others =>
    obtain ⟨rfl, total, all⟩ := recordsParts found (by decide)
    rw [found] at packed
    cases packed
    have length : (word (headSize + (m.descriptors.toList.flatMap Descriptor.record).length).toUInt16 ++
        [m.version.major, m.version.minor] ++ m.descriptors.toList.flatMap Descriptor.record).length =
        headSize + (m.descriptors.toList.flatMap Descriptor.record).length := by
      simp [word, headSize]
      omega
    rw [length]
    exact ⟨rfl, total, all⟩

theorem recordsOrphan (size : Nat) (descriptors : List Descriptor) :
    records size (descriptors.map Descriptor.orphan) = records size descriptors := by
  induction descriptors generalizing size with
  | nil => rfl
  | cons descriptor rest ih =>
    have same : descriptor.orphan.packed = descriptor.packed := by cases descriptor <;> rfl
    simp only [List.map_cons, records, same, ih]

theorem blobWalk {m : Manifest} {bytes : Bytes} (packed : m.blob = .ok bytes) :
    (walk bytes 4).stop = bytes.length ∧
      List.Forall₂ (RecordAt bytes) (walk bytes 4).visits m.descriptors.toList := by
  obtain ⟨parts, _, fits⟩ := blobParts packed
  have whole := walkRecords (word bytes.length.toUInt16 ++ [m.version.major, m.version.minor]) fits
  rw [← parts] at whole
  exact whole

theorem visitAt {bytes : Bytes} {visits : List Visit} {descriptors : List Descriptor}
    (all : List.Forall₂ (RecordAt bytes) visits descriptors) (n : Nat) {visit : Visit}
    {descriptor : Descriptor} (visited : visits[n]? = some visit)
    (described : descriptors[n]? = some descriptor) : RecordAt bytes visit descriptor := by
  induction all generalizing n with
  | nil => simp at visited
  | cons head tail ih =>
    cases n with
    | zero =>
      cases Option.some.inj visited
      cases Option.some.inj described
      exact head
    | succ n => exact ih n visited described

theorem orphansUnique {bytes : Bytes} {visits : List Visit} {left right : List Descriptor}
    (one : List.Forall₂ (RecordAt bytes) visits left)
    (other : List.Forall₂ (RecordAt bytes) visits right) :
    left.map Descriptor.orphan = right.map Descriptor.orphan := by
  induction one generalizing right with
  | nil =>
    cases other
    rfl
  | cons head tail ih =>
    cases other with
    | cons head' tail' => rw [List.map_cons, List.map_cons, recordUnique head head', ih tail']

theorem blobFront {m : Manifest} {bytes : Bytes} (packed : m.blob = .ok bytes) :
    wordAt? bytes 0 = some bytes.length ∧ bytes[2]? = some m.version.major ∧
      bytes[3]? = some m.version.minor := by
  obtain ⟨parts, small, _⟩ := blobParts packed
  have size : bytes.length.toUInt16.toNat = bytes.length := by
    unfold maxSize at small
    simp
    omega
  have front := wordPlaced [] ([m.version.major, m.version.minor] ++
    m.descriptors.toList.flatMap Descriptor.record) bytes.length.toUInt16
  rw [List.nil_append, ← List.append_assoc, ← parts, size] at front
  refine ⟨front, ?_, ?_⟩ <;> rw [parts] <;> simp [word]

theorem blobUnique {left right : Manifest} {bytes : Bytes} (one : left.blob = .ok bytes)
    (other : right.blob = .ok bytes) :
    left.version = right.version ∧
      left.descriptors.toList.map Descriptor.orphan = right.descriptors.toList.map Descriptor.orphan := by
  obtain ⟨_, major, minor⟩ := blobFront one
  obtain ⟨_, major', minor'⟩ := blobFront other
  rw [major'] at major
  rw [minor'] at minor
  refine ⟨?_, orphansUnique (blobWalk one).2 (blobWalk other).2⟩
  cases hl : left.version
  cases hr : right.version
  simp_all

theorem blobOrphans {left right : Manifest} (version : left.version = right.version)
    (descriptors : left.descriptors.toList.map Descriptor.orphan =
      right.descriptors.toList.map Descriptor.orphan) : left.blob = right.blob := by
  have same : records headSize left.descriptors.toList = records headSize right.descriptors.toList := by
    rw [← recordsOrphan, descriptors, recordsOrphan]
  simp only [blobRecords, same, version]

structure ReadBack (m : Manifest) (bytes : Bytes) : Prop where
  total : wordAt? bytes 0 = some bytes.length
  major : bytes[2]? = some m.version.major
  minor : bytes[3]? = some m.version.minor
  count : (walk bytes 4).visits.length = m.descriptors.size
  stop : (walk bytes 4).stop = bytes.length
  records : ∀ (n : Nat) (visit : Visit) (descriptor : Descriptor),
    (walk bytes 4).visits[n]? = some visit → m.descriptors[n]? = some descriptor →
      RecordAt bytes visit descriptor

theorem blobReadBack {m : Manifest} {bytes : Bytes} (packed : m.blob = .ok bytes) :
    ReadBack m bytes ∧ ∀ (other : Manifest) (others : Bytes), other.blob = .ok others →
      (bytes = others ↔ m.version = other.version ∧
        m.descriptors.toList.map Descriptor.orphan =
          other.descriptors.toList.map Descriptor.orphan) := by
  obtain ⟨total, major, minor⟩ := blobFront packed
  obtain ⟨stop, visits⟩ := blobWalk packed
  constructor
  · refine ⟨total, major, minor, by simpa using visits.length_eq, stop, ?_⟩
    intro n visit descriptor visited described
    rw [← Array.getElem?_toList] at described
    exact visitAt visits n visited described
  · intro other others packed'
    constructor
    · intro same
      subst same
      exact blobUnique packed packed'
    · intro h
      obtain ⟨version, descriptors⟩ := h
      rw [blobOrphans version descriptors, packed'] at packed
      exact (Except.ok.inj packed).symm

theorem blobReadBackAccents :
    let left : Manifest := ⟨⟨0, 1⟩, #[.string ⟨1, "né", none⟩, .cport ⟨258, 3, 7⟩]⟩
    let right : Manifest := ⟨⟨0, 1⟩, #[.string ⟨1, "né", some ⟨1, 1⟩⟩, .cport ⟨258, 3, 7⟩]⟩
    let bytes : Bytes := [24, 0, 0, 1, 12, 0, 2, 0, 3, 1, 110, 195, 169, 0, 0, 0, 8, 0, 4, 0, 2, 1, 3, 7]
    left.blob = .ok bytes ∧ right.blob = .ok bytes ∧ ReadBack left bytes ∧
      left.version = right.version ∧
      left.descriptors.toList.map Descriptor.orphan =
        right.descriptors.toList.map Descriptor.orphan := by
  intro left right bytes
  have packed : left.blob = .ok bytes := rfl
  have packed' : right.blob = .ok bytes := rfl
  obtain ⟨back, same⟩ := blobReadBack packed
  exact ⟨packed, packed', back, (same right bytes packed').mp rfl⟩

end Blob
end Greybus
