import Mathlib.Algebra.Ring.Nat
import Greybus.Proofs.Blob.Walk

/-! How large a packed manifest is, and which manifests can be packed at all. The sizes
of the records add up, and packing ends at the first descriptor with a text too long
for its record or with too many bytes up to its end. What comes later has no part in
the fault, and a manifest that can be packed has nothing but such beginnings. -/
namespace Greybus
open Blob

def Descriptor.recordSize : Descriptor → Nat
  | .string entry => align (6 + entry.text.utf8ByteSize)
  | _ => 8

namespace Descriptor

theorem recordSized (descriptor : Descriptor) : descriptor.record.length = descriptor.recordSize := by
  rw [recordLength]
  cases descriptor with
  | string entry =>
    have length : headSize + (body (.string entry)).length = 6 + entry.text.utf8ByteSize := by
      simp only [body, List.length_cons, textLength, headSize]
      omega
    rw [length]
    rfl
  | _ => simp [body, word, recordSize, align, headSize]

theorem sizeWhole (descriptor : Descriptor) : descriptor.recordSize % 4 = 0 := by
  rw [← recordSized, recordLength]
  exact alignWhole _

theorem sizeBound {descriptor : Descriptor} (fits : descriptor.Fits) : descriptor.recordSize ≤ 260 := by
  have bounds := bodyLength fits
  rw [← recordSized, recordLength]
  unfold align headSize longestText at *
  omega

theorem fitsPacked {descriptor : Descriptor} (fits : descriptor.Fits) :
    descriptor.packed = .ok descriptor.record := by
  cases descriptor with
  | string entry =>
    simp only [Fits, longestText] at fits
    have room : entry.text.utf8ByteSize ≤ maxText ∧
        align (headSize + 2 + entry.text.utf8ByteSize) ≤ maxTextRecord := by
      unfold align headSize maxTextRecord maxText headSize
      omega
    simp only [packed, if_pos room]
  | _ => rfl

theorem longPacked {entry : StringEntry} (long : 254 < entry.text.utf8ByteSize) :
    (Descriptor.string entry).packed = .error (.textTooLong entry.id entry.text.utf8ByteSize) := by
  have full : ¬ (entry.text.utf8ByteSize ≤ maxText ∧
      align (headSize + 2 + entry.text.utf8ByteSize) ≤ maxTextRecord) := by
    unfold align headSize maxTextRecord maxText headSize
    omega
  simp only [packed, if_neg full]

end Descriptor

namespace Blob

def totalSize (descriptors : List Descriptor) : Nat :=
  4 + (descriptors.map Descriptor.recordSize).sum

def Halts (descriptors : List Descriptor) (n : Nat) : Prop :=
  ∃ descriptor, descriptors[n]? = some descriptor ∧
    ((∃ entry, descriptor = .string entry ∧ 254 < entry.text.utf8ByteSize) ∨
      65535 < totalSize (descriptors.take (n + 1)))

def HaltsFirst (descriptors : List Descriptor) (n : Nat) : Prop :=
  Halts descriptors n ∧ ∀ earlier < n, ¬ Halts descriptors earlier

theorem totalAppend (first second : List Descriptor) :
    totalSize (first ++ second) = totalSize first + (second.map Descriptor.recordSize).sum := by
  simp [totalSize, Nat.add_assoc]

theorem totalWhole (descriptors : List Descriptor) : totalSize descriptors % 4 = 0 := by
  unfold totalSize
  induction descriptors with
  | nil => rfl
  | cons descriptor rest ih =>
    have first := descriptor.sizeWhole
    rw [List.map_cons, List.sum_cons]
    omega

theorem recordsPast {size : Nat} {before : List Descriptor} (fits : ∀ descriptor ∈ before, descriptor.Fits)
    (room : size + (before.map Descriptor.recordSize).sum ≤ maxSize) (after : List Descriptor) :
    records size (before ++ after) =
      (records (size + (before.map Descriptor.recordSize).sum) after).map
        (before.flatMap Descriptor.record ++ ·) := by
  induction before generalizing size with
  | nil =>
    simp only [List.nil_append, List.map_nil, List.sum_nil, List.flatMap_nil, Nat.add_zero]
    cases records size after <;> rfl
  | cons descriptor rest ih =>
    obtain ⟨here, others⟩ := List.forall_mem_cons.mp fits
    rw [List.map_cons, List.sum_cons] at room
    have enough : ¬ size + descriptor.record.length > maxSize := by
      rw [Descriptor.recordSized]
      omega
    have tail := ih others (by omega : size + descriptor.recordSize +
      (rest.map Descriptor.recordSize).sum ≤ maxSize)
    rw [List.cons_append, records, Descriptor.fitsPacked here]
    simp only [bind, Except.bind, if_neg enough]
    rw [Descriptor.recordSized, tail, List.map_cons, List.sum_cons, List.flatMap_cons, ← Nat.add_assoc]
    cases records (size + descriptor.recordSize + (rest.map Descriptor.recordSize).sum) after with
    | error fault => rfl
    | ok bytes => simp [Except.map, pure, Except.pure]

theorem recordsAll {size : Nat} {descriptors : List Descriptor}
    (fits : ∀ descriptor ∈ descriptors, descriptor.Fits)
    (room : size + (descriptors.map Descriptor.recordSize).sum ≤ maxSize) :
    records size descriptors = .ok (descriptors.flatMap Descriptor.record) := by
  have whole := recordsPast fits room []
  rw [List.append_nil] at whole
  simpa [records, Except.map, pure, Except.pure] using whole

theorem recordsFault {size : Nat} {descriptors : List Descriptor} {fault : Fault}
    (failed : records size descriptors = .error fault) (more : List Descriptor) :
    records size (descriptors ++ more) = .error fault := by
  induction descriptors generalizing size with
  | nil => contradiction
  | cons descriptor rest ih =>
    rw [List.cons_append]
    simp only [records, bind, Except.bind] at failed ⊢
    cases packed : descriptor.packed with
    | error first => simpa [packed] using failed
    | ok record =>
      simp only [packed] at failed ⊢
      split at failed
      · rename_i full
        rw [if_pos full]
        exact failed
      · rename_i enough
        rw [if_neg enough]
        cases tail : records (size + record.length) rest with
        | error later =>
          simp only [tail] at failed
          rw [ih (tail.trans failed)]
        | ok bytes => simp [tail, pure, Except.pure] at failed

theorem blobFault {m : Manifest} {fault : Fault} :
    m.blob = .error fault ↔ records headSize m.descriptors.toList = .error fault := by
  rw [blobRecords]
  cases records headSize m.descriptors.toList <;> simp [Except.map]

theorem blobSize {m : Manifest} {bytes : Bytes} (found : records headSize m.descriptors.toList = .ok bytes) :
    ∃ whole, m.blob = .ok whole ∧ whole.length = headSize + bytes.length := by
  rw [blobRecords, found]
  refine ⟨_, rfl, ?_⟩
  simp [word, headSize]
  omega

theorem recordsIff {descriptors : List Descriptor} :
    (∃ bytes, records headSize descriptors = .ok bytes) ↔
      (∀ descriptor ∈ descriptors, descriptor.Fits) ∧ totalSize descriptors ≤ maxSize := by
  constructor
  · intro h
    obtain ⟨bytes, found⟩ := h
    obtain ⟨rfl, room, fits⟩ := recordsParts found (by decide)
    simp only [List.length_flatMap, Descriptor.recordSized] at room
    exact ⟨fits, room⟩
  · intro h
    obtain ⟨fits, room⟩ := h
    exact ⟨_, recordsAll fits room⟩

section
variable {descriptors : List Descriptor} {n : Nat}

theorem fitsIff (descriptor : Descriptor) : descriptor.Fits ↔
    ¬ ∃ entry, descriptor = .string entry ∧ 254 < entry.text.utf8ByteSize := by
  cases descriptor <;> simp [Descriptor.Fits, Descriptor.longestText]

theorem blobStops {m : Manifest} : (∃ fault, m.blob = .error fault) ↔
    (∃ entry, .string entry ∈ m.descriptors ∧ 254 < entry.text.utf8ByteSize) ∨
      65535 < totalSize m.descriptors.toList := by
  have packs : (∃ fault, m.blob = .error fault) ↔
      ¬ ∃ bytes, records headSize m.descriptors.toList = .ok bytes := by
    simp only [blobFault]
    cases records headSize m.descriptors.toList <;> simp
  rw [packs, recordsIff, not_and_or, Nat.not_le]
  refine or_congr ?_ Iff.rfl
  simp only [fitsIff, not_forall, not_not]
  constructor
  · intro h
    obtain ⟨_, member, entry, rfl, long⟩ := h
    exact ⟨entry, Array.mem_toList_iff.mp member, long⟩
  · intro h
    obtain ⟨entry, member, long⟩ := h
    exact ⟨_, Array.mem_toList_iff.mpr member, entry, rfl, long⟩

theorem freeFits (free : ∀ earlier < n, ¬ Halts descriptors earlier) (inside : n ≤ descriptors.length) :
    (∀ descriptor ∈ descriptors.take n, descriptor.Fits) ∧
      totalSize (descriptors.take n) ≤ maxSize := by
  constructor
  · intro descriptor member
    obtain ⟨k, less, rfl⟩ := List.mem_take_iff_getElem.mp member
    rw [fitsIff]
    intro long
    exact free k (by omega) ⟨_, List.getElem?_eq_getElem (by omega), .inl long⟩
  · cases n with
    | zero => simp [totalSize, maxSize]
    | succ n =>
      refine Nat.le_of_not_lt fun large => free n (Nat.lt_succ_self n) ?_
      exact ⟨descriptors[n], List.getElem?_eq_getElem (by omega), .inr large⟩

theorem recordsReach (free : ∀ earlier < n, ¬ Halts descriptors earlier) {descriptor : Descriptor}
    (found : descriptors[n]? = some descriptor) :
    records headSize descriptors =
      (records (totalSize (descriptors.take n)) (descriptor :: descriptors.drop (n + 1))).map
        ((descriptors.take n).flatMap Descriptor.record ++ ·) := by
  obtain ⟨inside, same⟩ := List.getElem?_eq_some_iff.mp found
  obtain ⟨fits, room⟩ := freeFits free (Nat.le_of_lt inside)
  have cut : descriptors = descriptors.take n ++ descriptor :: descriptors.drop (n + 1) := by
    rw [← same, List.getElem_cons_drop, List.take_append_drop]
  have past := recordsPast fits room (descriptor :: descriptors.drop (n + 1))
  rw [← cut] at past
  exact past

theorem haltsLong (first : HaltsFirst descriptors n) {entry : StringEntry}
    (found : descriptors[n]? = some (.string entry)) (long : 254 < entry.text.utf8ByteSize) :
    records headSize descriptors = .error (.textTooLong entry.id entry.text.utf8ByteSize) := by
  rw [recordsReach first.2 found, records, Descriptor.longPacked long]
  rfl

theorem haltsLarge (first : HaltsFirst descriptors n) {descriptor : Descriptor}
    (found : descriptors[n]? = some descriptor) (fits : descriptor.Fits) :
    records headSize descriptors = .error (.blobTooLarge (totalSize (descriptors.take (n + 1)))) ∧
      65536 ≤ totalSize (descriptors.take (n + 1)) ∧ totalSize (descriptors.take (n + 1)) ≤ 65792 := by
  obtain ⟨inside, _⟩ := List.getElem?_eq_some_iff.mp found
  have total : totalSize (descriptors.take (n + 1)) =
      totalSize (descriptors.take n) + descriptor.record.length := by
    rw [List.take_add_one, found, Option.toList_some, totalAppend, List.map_singleton,
      List.sum_singleton, Descriptor.recordSized]
  have large : 65535 < totalSize (descriptors.take (n + 1)) := by
    obtain ⟨other, again, long | large⟩ := first.1
    · rw [found, Option.some.injEq] at again
      exact absurd (again ▸ long) ((fitsIff descriptor).mp fits)
    · exact large
  have room := (freeFits first.2 (Nat.le_of_lt inside)).2
  have aligned := totalWhole (descriptors.take n)
  have bound := Descriptor.sizeBound fits
  rw [← Descriptor.recordSized] at bound
  unfold maxSize at room
  have full : totalSize (descriptors.take n) + descriptor.record.length > maxSize := by
    unfold maxSize
    omega
  refine ⟨?_, by omega, by omega⟩
  rw [recordsReach first.2 found, records, Descriptor.fitsPacked fits, total]
  simp only [bind, Except.bind, if_pos full, Except.map]

end

structure Packing (m : Manifest) : Prop where
  packs : (∀ n, ¬ Halts m.descriptors.toList n) →
    ∃ bytes, m.blob = .ok bytes ∧ bytes.length = totalSize m.descriptors.toList
  tooLong : ∀ (n : Nat) (entry : StringEntry), HaltsFirst m.descriptors.toList n →
    m.descriptors[n]? = some (.string entry) → 254 < entry.text.utf8ByteSize →
      m.blob = .error (.textTooLong entry.id entry.text.utf8ByteSize)
  tooLarge : ∀ (n : Nat) (descriptor : Descriptor), HaltsFirst m.descriptors.toList n →
    m.descriptors[n]? = some descriptor →
    (∀ entry, descriptor = .string entry → entry.text.utf8ByteSize ≤ 254) →
      let size := totalSize (m.descriptors.toList.take (n + 1))
      m.blob = .error (.blobTooLarge size) ∧ 65536 ≤ size ∧ size ≤ 65792
  narrow : ∀ bytes, records headSize m.descriptors.toList = .ok bytes →
    ¬ headSize + bytes.length > maxSize ∧
      (headSize + bytes.length).toUInt16.toNat = headSize + bytes.length
  longer : ∀ (fault : Fault) (more : Manifest), m.blob = .error fault →
    m.descriptors.toList <+: more.descriptors.toList → more.blob = .error fault
  shorter : ∀ (bytes : Bytes) (less : Manifest), m.blob = .ok bytes →
    less.descriptors.toList <+: m.descriptors.toList → ∃ part, less.blob = .ok part

theorem manifestPacking (m : Manifest) : Packing m := by
  constructor
  · intro free
    obtain ⟨fits, room⟩ := freeFits (fun n _ => free n) (Nat.le_refl m.descriptors.toList.length)
    rw [List.take_length] at fits room
    obtain ⟨whole, packed, length⟩ := blobSize (recordsAll fits room)
    refine ⟨whole, packed, ?_⟩
    have sizes : Descriptor.recordSize = fun descriptor => descriptor.record.length :=
      funext fun descriptor => descriptor.recordSized.symm
    rw [length, List.length_flatMap, totalSize, sizes]
    rfl
  · intro n entry first found long
    rw [← Array.getElem?_toList] at found
    exact blobFault.mpr (haltsLong first found long)
  · intro n descriptor first found small
    rw [← Array.getElem?_toList] at found
    have fits : descriptor.Fits := by
      rw [fitsIff]
      rintro ⟨entry, same, long⟩
      exact Nat.not_lt.mpr (small entry same) long
    obtain ⟨failed, bounds⟩ := haltsLarge first found fits
    exact ⟨blobFault.mpr failed, bounds⟩
  · intro bytes found
    have room := recordsRoom found
    refine ⟨room, ?_⟩
    unfold maxSize at room
    simp
    omega
  · intro fault more failed extended
    obtain ⟨rest, same⟩ := extended
    rw [blobFault, ← same]
    exact recordsFault (blobFault.mp failed) rest
  · intro bytes less packed shortened
    obtain ⟨rest, same⟩ := shortened
    cases found : less.blob with
    | ok part => exact ⟨part, rfl⟩
    | error fault =>
      have failed := recordsFault (blobFault.mp found) rest
      rw [same, ← blobFault, packed] at failed
      contradiction

theorem manifestPackingAccents :
    let text := String.ofList (List.replicate 128 'é')
    let m : Manifest := ⟨{}, #[.bundle ⟨1, 8⟩, .string ⟨4, text, none⟩, .string ⟨5, text, none⟩]⟩
    HaltsFirst m.descriptors.toList 1 ∧ m.blob = .error (.textTooLong 4 256) := by
  intro text m
  have size : text.utf8ByteSize = 256 := by decide +kernel
  clear_value text
  have long : 254 < text.utf8ByteSize := by omega
  have first : HaltsFirst m.descriptors.toList 1 := by
    refine ⟨⟨_, rfl, .inl ⟨_, rfl, long⟩⟩, ?_⟩
    intro earlier less halts
    obtain rfl : earlier = 0 := by omega
    obtain ⟨descriptor, found, ⟨entry, same, _⟩ | large⟩ := halts
    · cases found
      contradiction
    · contradiction
  have failed := (manifestPacking m).tooLong 1 _ first rfl long
  rw [size] at failed
  exact ⟨first, failed⟩

end Blob
end Greybus
