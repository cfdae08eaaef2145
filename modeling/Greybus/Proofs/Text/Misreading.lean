import Greybus.Proofs.Text.Numeral

/-! Why a text is not read as a number. It may be empty; its digits may have become too
large, and then nothing behind them counts; or else it has a character too many or
none behind its sign. Zeros in front never make a number too large. -/
namespace Greybus.Text.Number

def unsigned : List Char → List Char
  | '+' :: digits => digits
  | text => text

def Digits (text : List Char) : Prop := text ≠ [] ∧ ∀ c ∈ text, c.isDigit

instance (text : List Char) : Decidable (Digits text) :=
  @instDecidableAnd _ _ inferInstance (List.decidableBAll (fun c => c.isDigit) text)

/-- Digits in front are too large as they stand, whatever follows them. -/
def Exceeds (largest : Nat) (text : List Char) : Prop :=
  ∃ front, Digits front ∧ front <+: text ∧ largest < valueFrom 0 front

def Fits (largest : Nat) (text : List Char) : Prop := Digits text ∧ valueFrom 0 text ≤ largest

instance (largest : Nat) (text : List Char) : Decidable (Fits largest text) :=
  inferInstanceAs (Decidable (_ ∧ _))

theorem unsignedBare {text : List Char} (bare : ∀ digits, text ≠ '+' :: digits) :
    unsigned text = text := by
  unfold unsigned
  split
  · exact absurd rfl (bare _)
  · rfl

theorem spellsIff {text : List Char} {n : Nat} :
    Spells text n ↔ Digits (unsigned text) ∧ valueFrom 0 (unsigned text) = n := by
  rw [Digits, and_assoc]
  by_cases signed : ∃ digits, text = '+' :: digits
  · obtain ⟨digits, rfl⟩ := signed
    exact spellsSigned
  · have bare : ∀ digits, text ≠ '+' :: digits := fun digits same => signed ⟨digits, same⟩
    rw [unsignedBare bare]
    exact spellsBare bare

def Overflows (size start : Nat) (text : List Char) : Prop :=
  ∃ front, (∀ c ∈ front, c.isDigit) ∧ front <+: text ∧ size ≤ valueFrom start front

theorem overflowsNil {size start : Nat} : Overflows size start [] ↔ size ≤ start := by
  constructor
  · intro h
    obtain ⟨front, _, ahead, large⟩ := h
    rwa [List.prefix_nil.mp ahead] at large
  · intro large
    exact ⟨[], by simp, List.nil_prefix, large⟩

theorem overflowsCons {size start : Nat} (small : start < size) {c : Char} {rest : List Char} :
    Overflows size start (c :: rest) ↔ c.isDigit ∧ Overflows size (10 * start + digitValue c) rest := by
  constructor
  · intro h
    obtain ⟨front, all, ahead, large⟩ := h
    cases front with
    | nil => exact absurd large (Nat.not_le.mpr small)
    | cons d front =>
      obtain ⟨rfl, inside⟩ := List.cons_prefix_cons.mp ahead
      exact ⟨all d List.mem_cons_self, front, fun c later => all c (.tail d later), inside, large⟩
  · intro h
    obtain ⟨digit, front, all, inside, large⟩ := h
    exact ⟨c :: front, List.forall_mem_cons.mpr ⟨digit, all⟩, List.cons_prefix_cons.mpr ⟨rfl, inside⟩,
      large⟩

theorem readDigitsLarge {size : Nat} {start : Fin size} {text : List Char} :
    readDigits start text = .error .tooLarge ↔ Overflows size start text := by
  induction text generalizing start with
  | nil => simp [readDigits, overflowsNil]
  | cons c rest ih =>
    rw [overflowsCons start.isLt, readDigits]
    split
    · rename_i digit
      rw [and_iff_right digit]
      split
      · exact ih
      · rename_i large
        have here : Overflows size (10 * start + digitValue c) rest :=
          ⟨[], by simp, List.nil_prefix, Nat.not_lt.mp large⟩
        exact iff_of_true rfl here
    · rename_i other
      simp [other]

theorem readDigitsFilled {size : Nat} {start : Fin size} {text : List Char} :
    readDigits start text ≠ .error .empty := by
  induction text generalizing start with
  | nil => simp [readDigits]
  | cons c rest ih =>
    rw [readDigits]
    split
    · split
      · exact ih
      · simp
    · simp

theorem readUnsigned {largest : Nat} {text : List Char} (filled : unsigned text ≠ []) :
    read largest text = readDigits ⟨0, largest.succ_pos⟩ (unsigned text) := by
  unfold read
  split
  · contradiction
  · contradiction
  · rfl
  · rename_i bare
    rw [unsignedBare bare]

theorem readSign {largest : Nat} {text : List Char} (filled : text ≠ []) (sign : unsigned text = []) :
    read largest text = .error .invalidDigit := by
  unfold read
  split
  · contradiction
  · rfl
  · rename_i digits empty
    exact absurd sign fun same => empty (by rw [← same]; rfl)
  · rename_i bare
    rw [unsignedBare bare] at sign
    contradiction

section
variable {largest : Nat} {text : List Char}

theorem readEmptyIff : read largest text = .error .empty ↔ text = [] := by
  constructor
  · intro failed
    refine Classical.byContradiction fun filled => ?_
    by_cases sign : unsigned text = []
    · rw [readSign filled sign] at failed
      cases failed
    · rw [readUnsigned sign] at failed
      exact readDigitsFilled failed
  · rintro rfl
    rfl

theorem exceedsIff : Exceeds largest text ↔ Overflows (largest + 1) 0 text := by
  constructor
  · intro h
    obtain ⟨front, digits, ahead, large⟩ := h
    exact ⟨front, digits.2, ahead, large⟩
  · intro h
    obtain ⟨front, all, ahead, large⟩ := h
    have filled : front ≠ [] := by
      rintro rfl
      exact Nat.not_succ_le_zero largest large
    exact ⟨front, ⟨filled, all⟩, ahead, large⟩

theorem readLargeIff : read largest text = .error .tooLarge ↔ Exceeds largest (unsigned text) := by
  by_cases sign : unsigned text = []
  · have small : ¬ Exceeds largest [] := by
      rw [exceedsIff, overflowsNil]
      exact Nat.not_succ_le_zero largest
    rw [sign]
    refine iff_of_false ?_ small
    by_cases filled : text = []
    · rw [readEmptyIff.mpr filled]
      simp
    · rw [readSign filled sign]
      simp
  · rw [readUnsigned sign, readDigitsLarge, exceedsIff]

theorem readFitsIff : (∃ n, read largest text = .ok n) ↔ Fits largest (unsigned text) := by
  simp only [readIff, spellsIff, Fits]
  constructor
  · intro h
    obtain ⟨n, digits, value⟩ := h
    exact ⟨digits, by omega⟩
  · intro h
    obtain ⟨digits, small⟩ := h
    exact ⟨⟨valueFrom 0 (unsigned text), Nat.lt_succ_of_le small⟩, digits, rfl⟩

theorem readInvalidIff : read largest text = .error .invalidDigit ↔
    text ≠ [] ∧ ¬ Exceeds largest (unsigned text) ∧ ¬ Fits largest (unsigned text) := by
  rw [Ne, ← readEmptyIff, ← readLargeIff, ← readFitsIff]
  cases read largest text with
  | ok n => simp
  | error fault => cases fault <;> simp

end

theorem valueZeros (zeros : Nat) : valueFrom 0 (List.replicate zeros '0') = 0 := by
  induction zeros with
  | zero => rfl
  | succ zeros ih => exact ih

theorem spellsPadded (zeros n : Nat) : Spells (List.replicate zeros '0' ++ (decimal n).toList) n := by
  refine ⟨_, .inl rfl, ?_, ?_, ?_⟩
  · rw [decimal, String.toList_ofList]
    simp [Nat.toDigits_ne_nil]
  · intro c member
    rcases List.mem_append.mp member with zero | digit
    · rw [List.eq_of_mem_replicate zero]
      rfl
    · exact decimalDigits n c digit
  · rw [valueAppend, valueZeros, decimal, String.toList_ofList, valueDigits]

end Greybus.Text.Number
