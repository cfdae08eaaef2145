/-! Numbers as text. A decimal number is read against the size of the field that
has to hold it: the first digit that makes it too large ends the reading, whatever
follows, and so does the first character that is no digit. -/
namespace Greybus.Text.Number

inductive Fault where
  | empty
  | invalidDigit
  | tooLarge
  deriving DecidableEq, Repr

def Fault.message : Fault → String
  | .empty => "cannot parse integer from empty string"
  | .invalidDigit => "invalid digit found in string"
  | .tooLarge => "number too large to fit in target type"

def digitValue (c : Char) : Nat := c.toNat - '0'.toNat

def valueFrom (start : Nat) (digits : List Char) : Nat :=
  digits.foldl (fun value c => 10 * value + digitValue c) start

def readDigits {size : Nat} (value : Fin size) : List Char → Except Fault (Fin size)
  | [] => .ok value
  | c :: rest =>
    if c.isDigit then
      if fits : 10 * value + digitValue c < size then readDigits ⟨_, fits⟩ rest
      else .error .tooLarge
    else .error .invalidDigit

def read (largest : Nat) : List Char → Except Fault (Fin (largest + 1))
  | [] => .error .empty
  | ['+'] => .error .invalidDigit
  | '+' :: digits => readDigits ⟨0, largest.succ_pos⟩ digits
  | digits => readDigits ⟨0, largest.succ_pos⟩ digits

def readByte (text : String) : Except Fault UInt8 := (read 255 text.toList).map UInt8.ofFin

def readWord (text : String) : Except Fault UInt16 := (read 65535 text.toList).map UInt16.ofFin

theorem valueAppend (start : Nat) (left right : List Char) :
    valueFrom start (left ++ right) = valueFrom (valueFrom start left) right := List.foldl_append ..

theorem valueGrows (start : Nat) (digits : List Char) : start ≤ valueFrom start digits := by
  induction digits generalizing start with
  | nil => exact Nat.le_refl _
  | cons c rest ih =>
    have tail := ih (10 * start + digitValue c)
    simp only [valueFrom, List.foldl_cons] at tail ⊢
    omega

theorem readDigitsIff {size : Nat} {start value : Fin size} {digits : List Char} :
    readDigits start digits = .ok value ↔
      (∀ c ∈ digits, c.isDigit) ∧ valueFrom start digits = value := by
  induction digits generalizing start with
  | nil => simp [readDigits, valueFrom, Fin.ext_iff]
  | cons c rest ih =>
    simp only [readDigits, List.mem_cons, forall_eq_or_imp]
    split
    · rename_i digit
      split
      · rename_i fits
        rw [ih]
        simp [digit, valueFrom]
      · rename_i large
        have grown := valueGrows (10 * start + digitValue c) rest
        simp only [reduceCtorEq, false_iff, not_and]
        intro _ same
        simp only [valueFrom, List.foldl_cons] at grown same
        omega
    · rename_i other
      simp [other]

def decimal (n : Nat) : String := String.ofList (Nat.toDigits 10 n)

theorem valueDigits (n : Nat) : valueFrom 0 (Nat.toDigits 10 n) = n := by
  induction n using Nat.strongRecOn with
  | ind n ih =>
    rw [Nat.toDigits_eq_if (by decide)]
    split
    · rename_i small
      simp [valueFrom, digitValue, Nat.toNat_digitChar_of_lt_ten small]
    · have last := Nat.toNat_digitChar_sub_48_of_lt_ten (Nat.mod_lt n (by decide : 10 > 0))
      rw [valueAppend, ih (n / 10) (Nat.div_lt_self (by omega) (by decide))]
      exact (congrArg (10 * (n / 10) + ·) last).trans (Nat.div_add_mod n 10)

theorem readDecimal {largest : Nat} (n : Fin (largest + 1)) :
    read largest (decimal n).toList = .ok n := by
  have digits : ∀ c ∈ Nat.toDigits 10 n, c.isDigit := fun c member =>
    Nat.isDigit_of_mem_toDigits (by decide) (by decide) member
  have found : readDigits ⟨0, largest.succ_pos⟩ (Nat.toDigits 10 n) = .ok n :=
    readDigitsIff.mpr ⟨digits, valueDigits n⟩
  rw [decimal, String.toList_ofList]
  unfold read
  split
  · rename_i none
    exact absurd none (List.ne_nil_of_length_pos Nat.length_toDigits_pos)
  · simp_all
  · simp_all
  · exact found

def hexadecimal (byte : UInt8) : String :=
  String.ofList ['0', 'x', (byte.toNat / 16).digitChar, (byte.toNat % 16).digitChar]

end Greybus.Text.Number
