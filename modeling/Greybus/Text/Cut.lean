/-! Ways to cut a text at a mark: the mark off its front or its end, into pieces
at every place where a character stands, and in two at the last place where a
longer mark stands. Put together again, the parts give the text. -/
namespace Greybus.Text

def after? : List Char → List Char → Option (List Char)
  | [], text => some text
  | _ :: _, [] => none
  | c :: mark, d :: text => if c = d then after? mark text else none

def before? (mark text : List Char) : Option (List Char) :=
  (after? mark.reverse text.reverse).map List.reverse

def extend (mark c : Char) (pieces : List Char × List (List Char)) : List Char × List (List Char) :=
  if c = mark then ([], pieces.1 :: pieces.2) else (c :: pieces.1, pieces.2)

def split (mark : Char) (text : List Char) : List (List Char) :=
  let pieces := text.foldr (extend mark) ([], [])
  pieces.1 :: pieces.2

/-- The two sides of the last place where `mark` stands; places may overlap. -/
def cutLast? (mark : List Char) : List Char → Option (List Char × List Char)
  | [] => (after? mark []).map fun right => ([], right)
  | c :: rest =>
    match cutLast? mark rest with
    | some sides => some (c :: sides.1, sides.2)
    | none => (after? mark (c :: rest)).map fun right => ([], right)

theorem afterIff {mark text rest : List Char} :
    after? mark text = some rest ↔ text = mark ++ rest := by
  induction mark generalizing text with
  | nil => simp [after?, eq_comm]
  | cons c mark ih =>
    cases text with
    | nil => simp [after?]
    | cons d text =>
      simp only [after?, List.cons_append, List.cons.injEq]
      split
      · rename_i same
        simp [ih, same]
      · rename_i different
        simp [Ne.symm different]

theorem beforeIff {mark text rest : List Char} :
    before? mark text = some rest ↔ text = rest ++ mark := by
  simp only [before?, Option.map_eq_some_iff, afterIff]
  constructor
  · intro h
    obtain ⟨back, same, rfl⟩ := h
    simpa using congrArg List.reverse same
  · rintro rfl
    exact ⟨rest.reverse, by simp, by simp⟩

theorem splitMark (mark : Char) (rest : List Char) :
    split mark (mark :: rest) = [] :: split mark rest := by
  simp [split, extend]

theorem splitAppend (mark : Char) (left right : List Char) :
    split mark (left ++ mark :: right) = split mark left ++ split mark right := by
  induction left with
  | nil => exact splitMark mark right
  | cons c rest ih =>
    simp only [split, List.cons_append, List.foldr_cons] at ih ⊢
    simp only [extend]
    split <;> simp_all

theorem splitFree {mark : Char} {text : List Char} (free : mark ∉ text) : split mark text = [text] := by
  induction text with
  | nil => rfl
  | cons c rest ih =>
    simp only [List.mem_cons, not_or] at free
    have tail := ih free.2
    simp only [split, List.foldr_cons, List.cons.injEq] at tail ⊢
    simp [extend, Ne.symm free.1, tail]

theorem splitEnded {mark : Char} {pieces : List (List Char)} (free : ∀ piece ∈ pieces, mark ∉ piece) :
    split mark (pieces.flatMap fun piece => piece ++ [mark]) = pieces ++ [[]] := by
  induction pieces with
  | nil => rfl
  | cons piece rest ih =>
    have tail := ih fun other member => free other (List.mem_cons_of_mem _ member)
    rw [List.flatMap_cons, List.append_assoc, List.singleton_append, splitAppend,
      splitFree (free piece List.mem_cons_self), tail, List.singleton_append, List.cons_append]

theorem pieceFree {mark : Char} {text piece : List Char} (member : piece ∈ split mark text) :
    mark ∉ piece := by
  induction text generalizing piece with
  | nil => simp_all [split]
  | cons c rest ih =>
    have ih : ∀ piece ∈ split mark rest, mark ∉ piece := fun _ => ih
    simp only [split, List.foldr_cons, extend] at member ih
    split at member
    · rcases List.mem_cons.mp member with rfl | old
      · exact List.not_mem_nil
      · exact ih _ old
    · rename_i different
      rcases List.mem_cons.mp member with rfl | old
      · simp only [List.mem_cons, not_or]
        exact ⟨Ne.symm different, ih _ List.mem_cons_self⟩
      · exact ih _ (List.mem_cons_of_mem _ old)

theorem cutLastParts {mark text left right : List Char} (h : cutLast? mark text = some (left, right)) :
    text = left ++ mark ++ right := by
  induction text generalizing left with
  | nil =>
    obtain ⟨rest, found, same⟩ := Option.map_eq_some_iff.mp h
    cases same
    exact afterIff.mp found
  | cons c tail ih =>
    simp only [cutLast?] at h
    split at h
    · rename_i sides found
      cases h
      simp [ih found]
    · obtain ⟨rest, found, same⟩ := Option.map_eq_some_iff.mp h
      cases same
      exact afterIff.mp found

theorem cutLastNone {mark text : List Char} :
    cutLast? mark text = none ↔ ∀ left right, text ≠ left ++ mark ++ right := by
  constructor
  · intro h left right same
    induction text generalizing left with
    | nil =>
      obtain ⟨start, rfl⟩ := List.append_eq_nil_iff.mp same.symm
      obtain ⟨_, rfl⟩ := List.append_eq_nil_iff.mp start
      simp [cutLast?, after?] at h
    | cons c tail ih =>
      simp only [cutLast?] at h
      split at h
      · contradiction
      · rename_i absent
        cases left with
        | nil => simp [afterIff.mpr (show c :: tail = mark ++ right by simpa using same)] at h
        | cons d left => exact ih absent left (by simp_all)
  · intro h
    cases found : cutLast? mark text with
    | none => rfl
    | some sides => exact absurd (cutLastParts found) (h _ _)

theorem cutLastLatest {mark text left right before after : List Char}
    (h : cutLast? mark text = some (left, right)) (other : text = before ++ mark ++ after) :
    before.length ≤ left.length := by
  induction text generalizing left before with
  | nil =>
    have start := (List.append_eq_nil_iff.mp other.symm).1
    rw [(List.append_eq_nil_iff.mp start).1]
    exact Nat.zero_le _
  | cons c tail ih =>
    cases before with
    | nil => exact Nat.zero_le _
    | cons d before =>
      have rest : tail = before ++ mark ++ after := by simp_all
      simp only [cutLast?] at h
      split at h
      · rename_i sides found
        cases h
        exact Nat.succ_le_succ (ih found rest)
      · rename_i absent
        exact absurd rest (cutLastNone.mp absent _ _)

theorem cutLastIff {mark text left right : List Char} :
    cutLast? mark text = some (left, right) ↔
      text = left ++ mark ++ right ∧
        ∀ before after, text = before ++ mark ++ after → before.length ≤ left.length := by
  constructor
  · intro h
    exact ⟨cutLastParts h, fun _ _ other => cutLastLatest h other⟩
  · intro h
    obtain ⟨parts, latest⟩ := h
    cases found : cutLast? mark text with
    | none => exact absurd parts (cutLastNone.mp found _ _)
    | some sides =>
      obtain ⟨before, after⟩ := sides
      have again := cutLastParts found
      have one := cutLastLatest found parts
      have two := latest _ _ again
      have same : left ++ (mark ++ right) = before ++ (mark ++ after) := by
        simpa using parts.symm.trans again
      obtain ⟨first, rest⟩ := List.append_inj same (Nat.le_antisymm one two)
      rw [first, List.append_cancel_left rest]

end Greybus.Text
