/-! Blanks are the characters with the Unicode property White_Space. Trimming drops
them from the ends of a text; what is left is the one text without blanks at its
ends that the given text surrounds with blanks. -/
namespace Greybus.Text

def blankRanges : List (Nat × Nat) :=
  [(0x09, 0x0d), (0x20, 0x20), (0x85, 0x85), (0xa0, 0xa0), (0x1680, 0x1680),
   (0x2000, 0x200a), (0x2028, 0x2029), (0x202f, 0x202f), (0x205f, 0x205f), (0x3000, 0x3000)]

def isBlank (c : Char) : Bool :=
  blankRanges.any fun range => range.1 ≤ c.toNat && c.toNat ≤ range.2

def trimStart (text : List Char) : List Char := text.dropWhile isBlank

def trimEnd (text : List Char) : List Char := (text.reverse.dropWhile isBlank).reverse

def trim (text : List Char) : List Char := trimEnd (trimStart text)

def AllBlank (text : List Char) : Prop := ∀ c ∈ text, isBlank c = true

def Trimmed (text : List Char) : Prop :=
  (∀ c ∈ text.head?, isBlank c = false) ∧ (∀ c ∈ text.getLast?, isBlank c = false)

theorem blankNil : AllBlank [] := fun _ member => absurd member List.not_mem_nil

theorem blankAppend {left right : List Char} (first : AllBlank left) (second : AllBlank right) :
    AllBlank (left ++ right) := by
  intro c member
  rcases List.mem_append.mp member with early | late
  · exact first c early
  · exact second c late

theorem trimStartBlank {blank : List Char} (h : AllBlank blank) (text : List Char) :
    trimStart (blank ++ text) = trimStart text := by
  induction blank with
  | nil => rfl
  | cons c rest ih =>
    have tail := ih fun d mem => h d (List.mem_cons_of_mem _ mem)
    simpa [trimStart, h c List.mem_cons_self] using tail

theorem trimStartKeeps {text : List Char} (h : ∀ c ∈ text.head?, isBlank c = false) :
    trimStart text = text := by
  cases text with
  | nil => rfl
  | cons c rest => simp [trimStart, h c rfl]

theorem trimStartHead (text : List Char) : ∀ c ∈ (trimStart text).head?, isBlank c = false := by
  intro c first
  have h := List.head?_dropWhile_not isBlank text
  simp only [trimStart] at first
  simp_all

theorem trimStartSplit (text : List Char) :
    ∃ blank, AllBlank blank ∧ text = blank ++ trimStart text := by
  refine ⟨text.takeWhile isBlank, ?_, List.takeWhile_append_dropWhile.symm⟩
  intro c member
  have h := List.all_takeWhile (p := isBlank) (l := text)
  exact List.all_eq_true.mp h c member

theorem trimEndReverse (text : List Char) : trimEnd text = (trimStart text.reverse).reverse := rfl

theorem trimEndSplit (text : List Char) :
    ∃ blank, AllBlank blank ∧ text = trimEnd text ++ blank := by
  obtain ⟨blank, h, same⟩ := trimStartSplit text.reverse
  refine ⟨blank.reverse, fun c member => h c (List.mem_reverse.mp member), ?_⟩
  have back := congrArg List.reverse same
  simpa [trimEndReverse] using back

theorem trimSplit (text : List Char) :
    ∃ left right, AllBlank left ∧ AllBlank right ∧ text = left ++ trim text ++ right := by
  obtain ⟨left, hl, first⟩ := trimStartSplit text
  obtain ⟨right, hr, second⟩ := trimEndSplit (trimStart text)
  exact ⟨left, right, hl, hr, by rw [List.append_assoc, trim, ← second, ← first]⟩

theorem trimTrimmed (text : List Char) : Trimmed (trim text) := by
  constructor
  · intro c first
    obtain ⟨blank, _, same⟩ := trimEndSplit (trimStart text)
    apply trimStartHead text
    rw [same]
    change c ∈ (trimEnd (trimStart text)).head? at first
    cases h : trimEnd (trimStart text) with
    | nil => simp [h] at first
    | cons d rest => simpa [h] using first
  · intro c last
    simp only [trim, trimEndReverse, List.getLast?_reverse] at last
    exact trimStartHead _ c last

theorem trimSurrounded {left text right : List Char} (hl : AllBlank left) (hr : AllBlank right)
    (h : Trimmed text) : trim (left ++ text ++ right) = text := by
  have blankEnd : trimEnd (text ++ right) = text := by
    have reversed : AllBlank right.reverse := fun c member => hr c (List.mem_reverse.mp member)
    rw [trimEndReverse, List.reverse_append, trimStartBlank reversed, trimStartKeeps (by
      simpa using h.2), List.reverse_reverse]
  rw [trim, List.append_assoc, trimStartBlank hl]
  cases text with
  | nil =>
    have onlyRight : trimStart ([] ++ right) = [] := by
      simpa [trimStart] using trimStartBlank hr []
    rw [onlyRight]
    rfl
  | cons c rest =>
    rw [trimStartKeeps (by simpa using h.1), blankEnd]

end Greybus.Text
