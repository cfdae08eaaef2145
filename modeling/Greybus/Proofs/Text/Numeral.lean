import Greybus.Text.Number

/-! The numerals of a number. Digits spell it, with any zeros in front of them and at
most one plus sign before all. Reading takes the numerals of the numbers that fit
and nothing else, and no two numbers are printed alike. -/
namespace Greybus.Text.Number

def Spells (text : List Char) (n : Nat) : Prop :=
  ∃ digits, (text = digits ∨ text = '+' :: digits) ∧ digits ≠ [] ∧
    (∀ c ∈ digits, c.isDigit) ∧ valueFrom 0 digits = n

theorem spellsSigned {digits : List Char} {n : Nat} :
    Spells ('+' :: digits) n ↔ digits ≠ [] ∧ (∀ c ∈ digits, c.isDigit) ∧ valueFrom 0 digits = n := by
  constructor
  · intro h
    obtain ⟨others, rfl | same, filled, all, value⟩ := h
    · exact absurd (all '+' List.mem_cons_self) (by decide)
    · cases same
      exact ⟨filled, all, value⟩
  · intro h
    exact ⟨digits, .inr rfl, h⟩

theorem spellsBare {text : List Char} {n : Nat} (bare : ∀ digits, text ≠ '+' :: digits) :
    Spells text n ↔ text ≠ [] ∧ (∀ c ∈ text, c.isDigit) ∧ valueFrom 0 text = n := by
  constructor
  · intro h
    obtain ⟨digits, rfl | signed, rest⟩ := h
    · exact rest
    · exact absurd signed (bare digits)
  · intro h
    exact ⟨text, .inl rfl, h⟩

theorem readIff {largest : Nat} {text : List Char} {n : Fin (largest + 1)} :
    read largest text = .ok n ↔ Spells text n := by
  unfold read
  split
  · rw [spellsBare (by simp)]
    simp
  · rw [spellsSigned]
    simp
  · rename_i digits filled
    rw [spellsSigned, readDigitsIff]
    exact (and_iff_right fun empty => filled (by rw [empty])).symm
  · rename_i text filled _ bare
    rw [spellsBare bare, readDigitsIff]
    exact (and_iff_right filled).symm

theorem readByteIff {text : String} {n : UInt8} :
    readByte text = .ok n ↔ Spells text.toList n.toNat := by
  refine Iff.trans ?_ (readIff (n := n.toFin))
  rw [readByte]
  cases read 255 text.toList with
  | error fault => simp [Except.map]
  | ok m => simp [Except.map, ← UInt8.toFin_inj]

theorem readWordIff {text : String} {n : UInt16} :
    readWord text = .ok n ↔ Spells text.toList n.toNat := by
  refine Iff.trans ?_ (readIff (n := n.toFin))
  rw [readWord]
  cases read 65535 text.toList with
  | error fault => simp [Except.map]
  | ok m => simp [Except.map, ← UInt16.toFin_inj]

theorem decimalDigits (n : Nat) : ∀ c ∈ (decimal n).toList, c.isDigit := by
  intro c member
  rw [decimal, String.toList_ofList] at member
  exact Nat.isDigit_of_mem_toDigits (by decide) (by decide) member

theorem decimalUnique {m n : Nat} (same : decimal m = decimal n) : m = n := by
  have digits : Nat.toDigits 10 m = Nat.toDigits 10 n := String.ofList_injective same
  rw [← valueDigits m, digits, valueDigits]

theorem digitUnique : ∀ m < 16, ∀ n < 16, Nat.digitChar m = Nat.digitChar n → m = n := by decide

theorem hexadecimalUnique {m n : UInt8} (same : hexadecimal m = hexadecimal n) : m = n := by
  have digits := String.ofList_injective same
  simp only [List.cons.injEq, and_true, true_and] at digits
  have left := m.toNat_lt
  have right := n.toNat_lt
  have high := digitUnique (m.toNat / 16) (by omega) (n.toNat / 16) (by omega) digits.1
  have low := digitUnique (m.toNat % 16) (by omega) (n.toNat % 16) (by omega) digits.2
  apply UInt8.toNat_inj.mp
  omega

end Greybus.Text.Number
