import Greybus.Proofs.Layout.Entries
import Greybus.Proofs.Text.Misreading

/-! Numbers that nodes state. An attribute is read as a number of a byte or of a word by
the same rule, up to the largest number that the width holds, and what it cannot be
read as is reported with the node, the attribute and the text as it stands there. -/
namespace Greybus.Devicetree
open Layout (Defect)
open Text.Number

structure Reading {ν : Type} (value : ν → Nat) (largest : Nat) (node : Node) (attr text : String)
    (result : Except Defect ν) : Prop where
  number : ∀ n, result = .ok n ↔
    Digits (unsigned text.toList) ∧ valueFrom 0 (unsigned text.toList) = value n
  fits : (∃ n, result = .ok n) ↔ Fits largest (unsigned text.toList)
  reported : ∀ defect, result = .error defect → ∃ fault, defect = .badNumber node.name attr text fault
  empty : result = .error (.badNumber node.name attr text .empty) ↔ text = ""
  tooLarge : result = .error (.badNumber node.name attr text .tooLarge) ↔
    Exceeds largest (unsigned text.toList)
  invalidDigit : result = .error (.badNumber node.name attr text .invalidDigit) ↔
    text ≠ "" ∧ ¬ Exceeds largest (unsigned text.toList) ∧ ¬ Fits largest (unsigned text.toList)
  padded : ∀ zeros n, text.toList = List.replicate zeros '0' ++ (decimal (value n)).toList →
    result = .ok n

section
variable {ν : Type} {read : String → Except Fault ν} {node : Node} {attr text : String}
  (said : node.attr? attr = some text)
include said

theorem numberGiven : node.number read attr = (read text).mapError (.badNumber node.name attr text) := by
  rw [Node.number, Node.attr, said]
  rfl

theorem numberReported {fault : Fault} :
    node.number read attr = .error (.badNumber node.name attr text fault) ↔ read text = .error fault := by
  simp [numberGiven said, mapErrorError]

theorem widthReading {largest : Nat} {make : Fin (largest + 1) → ν} {value : ν → Nat}
    (reads : read text = (Text.Number.read largest text.toList).map make)
    (numbers : ∀ n, read text = .ok n ↔ Spells text.toList (value n)) :
    Reading value largest node attr text (node.number read attr) := by
  have faults (fault : Fault) : read text = .error fault ↔
      Text.Number.read largest text.toList = .error fault := by
    rw [reads]
    cases Text.Number.read largest text.toList <;> simp [Except.map]
  have number (n : ν) : node.number read attr = .ok n ↔ Spells text.toList (value n) := by
    rw [numberGiven said, mapErrorOk, numbers]
  constructor
  · intro n
    rw [number, spellsIff]
  · rw [← readFitsIff]
    simp only [numberGiven said, mapErrorOk, reads]
    cases Text.Number.read largest text.toList <;> simp [Except.map]
  · intro defect failed
    rw [numberGiven said, mapErrorError] at failed
    obtain ⟨fault, _, rfl⟩ := failed
    exact ⟨fault, rfl⟩
  · rw [numberReported said, faults, readEmptyIff]
    simp
  · rw [numberReported said, faults, readLargeIff]
  · rw [numberReported said, faults, readInvalidIff]
    simp
  · intro zeros n same
    rw [number, same]
    exact spellsPadded zeros (value n)

end

theorem attributeReading (node : Node) (attr text : String) (said : node.attr? attr = some text) :
    Reading UInt8.toNat 255 node attr text (node.byte attr) ∧
      Reading UInt16.toNat 65535 node attr text (node.word attr) :=
  ⟨widthReading said rfl fun _ => readByteIff, widthReading said rfl fun _ => readWordIff⟩

theorem attributeReadingSigned :
    let node : Node := { name := "b", position := 0, attrs := Table.ofList [("id", "+0256x")] }
    node.attr? "id" = some "+0256x" ∧
      (Reading UInt8.toNat 255 node "id" "+0256x" (node.byte "id") ∧
        Reading UInt16.toNat 65535 node "id" "+0256x" (node.word "id")) ∧
      node.byte "id" = .error (.badNumber "b" "id" "+0256x" .tooLarge) ∧
      node.word "id" = .error (.badNumber "b" "id" "+0256x" .invalidDigit) := by
  intro node
  have said : node.attr? "id" = some "+0256x" := by decide +kernel
  have readings := attributeReading node "id" "+0256x" said
  have large : Exceeds 255 "0256x".toList := ⟨"0256".toList, by decide, by decide, by decide⟩
  have small : ¬ Exceeds 65535 (unsigned "+0256x".toList) := by
    rw [← readLargeIff]
    decide
  have other : ¬ Fits 65535 (unsigned "+0256x".toList) := by decide
  exact ⟨said, readings, readings.1.tooLarge.mpr large,
    readings.2.invalidDigit.mpr ⟨by decide, small, other⟩⟩

end Greybus.Devicetree
