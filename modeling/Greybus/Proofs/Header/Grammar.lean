import Mathlib.Data.List.Forall2
import Mathlib.Data.List.Induction
import Greybus.Proofs.Header.Lines

/-! The grammar of a header. A line declares a symbol exactly if it is made of blanks,
the marker, a name and perhaps a value; nothing else of the line counts. A header lists
the names that its lines declare in the order in which they first do, with the values
that they are given last. -/
namespace Greybus.Header
open Text

structure States (line : List Char) (name value : String) : Prop where
  parts : ∃ before indent gap after,
    AllBlank before ∧ AllBlank indent ∧ AllBlank gap ∧ AllBlank after ∧
    line = before ++ "#define ".toList ++ indent ++ name.toList ++ gap ++ value.toList ++ after ∧
    (value ≠ "" → gap ≠ [])
  named : name ≠ ""
  solid : NoBlank name.toList
  trimmed : Trimmed value.toList

theorem markedName {line rest : List Char} (marked : after? marker.toList (trim line) = some rest) :
    (parts rest).1 ≠ [] := by
  rw [parts]
  have ends := (trimTrimmed line).2
  rw [afterIff.mp marked] at ends
  obtain ⟨blank, all, same⟩ := trimStartSplit rest
  cases started : trimStart rest with
  | nil =>
    rw [started, List.append_nil] at same
    have parts : marker.toList ++ rest = "#define".toList ++ ' ' :: blank := by rw [same]; rfl
    have inside : ∀ c ∈ ' ' :: blank, isBlank c = true := by
      intro c member
      rcases List.mem_cons.mp member with rfl | later
      · decide
      · exact all c later
    have last := List.getLast?_eq_some_getLast (List.cons_ne_nil ' ' blank)
    have solid := ends _ (by rw [parts, lastAppend (by simp), last]; rfl)
    rw [inside _ (List.getLast_mem _)] at solid
    contradiction
  | cons c tail =>
    have solid := trimStartHead rest c (by simp [started])
    simp [solid]

theorem gapFilled {rest gap value after : List Char}
    (parts : rest.dropWhile (fun c => !isBlank c) = gap ++ value ++ after) (trimmed : Trimmed value)
    (filled : value ≠ []) : gap ≠ [] := by
  rintro rfl
  obtain ⟨c, tail, rfl⟩ := List.exists_cons_of_ne_nil filled
  have blank := List.head?_dropWhile_not (fun c => !isBlank c) rest
  rw [parts] at blank
  have solid := trimmed.1 c rfl
  simp [solid] at blank

theorem partsSplit (rest : List Char) : ∃ indent gap after,
    AllBlank indent ∧ AllBlank gap ∧ AllBlank after ∧
      rest = indent ++ (parts rest).1 ++ gap ++ (parts rest).2 ++ after ∧
      ((parts rest).2 ≠ [] → gap ≠ []) ∧ NoBlank (parts rest).1 ∧ Trimmed (parts rest).2 := by
  simp only [parts]
  generalize named : (trimStart rest).takeWhile (fun c => !isBlank c) = name
  generalize behind : (trimStart rest).dropWhile (fun c => !isBlank c) = tail
  obtain ⟨indent, allIndent, indented⟩ := trimStartSplit rest
  obtain ⟨gap, after, allGap, allAfter, spaced⟩ := trimSplit tail
  have halves : trimStart rest = name ++ tail := by
    rw [← named, ← behind, List.takeWhile_append_dropWhile]
  refine ⟨indent, gap, after, allIndent, allGap, allAfter, ?_, ?_, ?_, trimTrimmed tail⟩
  · rw [halves, spaced] at indented
    simpa using indented
  · exact gapFilled (behind.trans spaced) (trimTrimmed tail)
  · rw [← named]
    intro c member
    simpa using List.all_eq_true.mp List.all_takeWhile c member

theorem statesDeclared {line : List Char} {name value : String}
    (declared : declaration? line = some (name, value)) : States line name value := by
  obtain ⟨rest, marked, named, same⟩ := declarationIff.mp declared
  obtain ⟨rfl, rfl⟩ := Prod.mk.inj same
  obtain ⟨before, ending, allBefore, allEnding, whole⟩ := trimSplit line
  obtain ⟨indent, gap, after, allIndent, allGap, allAfter, split, apart, solid, trimmed⟩ := partsSplit rest
  constructor
  · refine ⟨before, indent, gap, after ++ ending, allBefore, allIndent, allGap,
      blankAppend allAfter allEnding, ?_, ?_⟩
    · simp only [String.toList_ofList]
      calc
        line = before ++ (marker.toList ++ rest) ++ ending := by rw [← afterIff.mp marked, ← whole]
        _ = before ++ (marker.toList ++
              (indent ++ (parts rest).1 ++ gap ++ (parts rest).2 ++ after)) ++ ending := by rw [← split]
        _ = _ := by simp only [marker, List.append_assoc]
    · intro filled
      exact apart fun empty => filled (by rw [empty])
  · intro empty
    exact named (by simpa using congrArg String.toList empty)
  · rwa [String.toList_ofList]
  · rwa [String.toList_ofList]

theorem declaredStates {line : List Char} {name value : String} (stated : States line name value) :
    declaration? line = some (name, value) := by
  obtain ⟨⟨before, indent, gap, after, allBefore, allIndent, allGap, allAfter, rfl, apart⟩,
    named, solid, trimmed⟩ := stated
  have named' : name.toList ≠ [] := by simpa using named
  by_cases bare : value = ""
  · subst bare
    have core : Trimmed (marker.toList ++ (indent ++ name.toList)) := by
      apply trimmedMarked (by simp [named'])
      rw [lastAppend named']
      exact (trimmedNoBlank solid).2
    have marked := trimSurrounded allBefore (blankAppend allGap allAfter) core
    rw [← List.append_nil name.toList] at marked
    rw [show before ++ "#define ".toList ++ indent ++ name.toList ++ gap ++ "".toList ++ after =
      before ++ (marker.toList ++ (indent ++ (name.toList ++ []))) ++ (gap ++ after) by simp [marker]]
    rw [markedLine allIndent named' solid (by simp) marked, String.ofList_toList]
    rfl
  · have bare' : value.toList ≠ [] := by simpa using bare
    have core : Trimmed (marker.toList ++ (indent ++ (name.toList ++ (gap ++ value.toList)))) := by
      apply trimmedMarked (by simp [named'])
      rw [← List.append_assoc, ← List.append_assoc, lastAppend bare']
      exact trimmed.2
    have marked := trimSurrounded allBefore allAfter core
    have blank : ∀ c ∈ (gap ++ value.toList).head?, isBlank c = true := by
      obtain ⟨c, tail, rfl⟩ := List.exists_cons_of_ne_nil (apart bare)
      intro d first
      cases Option.some.inj first
      exact allGap c List.mem_cons_self
    have rest := trimSurrounded allGap blankNil trimmed
    rw [List.append_nil] at rest
    rw [show before ++ "#define ".toList ++ indent ++ name.toList ++ gap ++ value.toList ++ after =
      before ++ (marker.toList ++ (indent ++ (name.toList ++ (gap ++ value.toList)))) ++ after by
        simp [marker]]
    rw [markedLine allIndent named' solid blank marked, rest, String.ofList_toList,
      String.ofList_toList]

theorem declaredIff {line : List Char} {name value : String} :
    declaration? line = some (name, value) ↔ States line name value :=
  ⟨statesDeclared, declaredStates⟩

theorem statesUnique {line : List Char} {name value other final : String} (one : States line name value)
    (two : States line other final) : name = other ∧ value = final := by
  have same := (declaredStates one).symm.trans (declaredStates two)
  exact Prod.mk.inj (Option.some.inj same)

def Names (line : List Char) (name : String) : Prop := ∃ value, States line name value

theorem silentIff {line : List Char} : declaration? line = none ↔ ∀ name, ¬ Names line name := by
  rw [Option.eq_none_iff_forall_ne_some]
  constructor
  · intro none name h
    obtain ⟨value, stated⟩ := h
    exact none _ (declaredStates stated)
  · intro silent symbol declared
    exact silent symbol.1 ⟨symbol.2, statesDeclared declared⟩

def Sooner (lines : List (List Char)) (first second : String) : Prop :=
  ∃ before line after, lines = before ++ line :: after ∧ Names line first ∧
    ∀ earlier ∈ before ++ [line], ¬ Names earlier second

def Last (lines : List (List Char)) (name value : String) : Prop :=
  ∃ before line after, lines = before ++ line :: after ∧ States line name value ∧
    ∀ later ∈ after, ¬ Names later name

structure Listing (lines : List (List Char)) (table : Symbols) : Prop where
  names : ∀ name, name ∈ table.keys ↔ ∃ line ∈ lines, Names line name
  once : table.keys.Nodup
  order : table.keys.Pairwise (Sooner lines)
  values : ∀ name value, (name, value) ∈ table.toList ↔ Last lines name value

section
variable {lines : List (List Char)} {line : List Char} {name value : String}

theorem soonerMore {first second : String} (sooner : Sooner lines first second) :
    Sooner (lines ++ [line]) first second := by
  obtain ⟨before, middle, after, rfl, first, none⟩ := sooner
  exact ⟨before, middle, after ++ [line], by simp, first, none⟩

theorem lastNext : Last (lines ++ [line]) name value ↔
    States line name value ∨ ¬ Names line name ∧ Last lines name value := by
  constructor
  · intro last
    obtain ⟨before, middle, after, cut, stated, none⟩ := last
    rcases List.eq_nil_or_concat after with rfl | ⟨between, final, rfl⟩
    · obtain ⟨rfl, same⟩ := List.append_inj' cut rfl
      cases same
      exact .inl stated
    · rw [List.concat_eq_append, ← List.cons_append, ← List.append_assoc] at cut
      obtain ⟨rfl, same⟩ := List.append_inj' cut rfl
      cases same
      refine .inr ⟨none line (by simp), before, middle, between, rfl, stated, ?_⟩
      intro later member
      exact none later (by simp [member])
  · intro h
    rcases h with stated | ⟨silent, before, middle, after, rfl, stated, none⟩
    · exact ⟨lines, line, [], rfl, stated, by simp⟩
    · refine ⟨before, middle, after ++ [line], by simp, stated, ?_⟩
      intro later member
      rcases List.mem_append.mp member with between | final
      · exact none later between
      · rwa [List.mem_singleton.mp final]

theorem listingSilent {table : Symbols} (listing : Listing lines table)
    (silent : ∀ name, ¬ Names line name) : Listing (lines ++ [line]) table where
  names name := by
    rw [listing.names]
    simp [or_and_right, exists_or, silent]
  once := listing.once
  order := listing.order.imp soonerMore
  values name value := by
    have unstated : ¬ States line name value := fun stated => silent name ⟨value, stated⟩
    rw [listing.values, lastNext, or_iff_right unstated, and_iff_right (silent name)]

theorem statedNames (stated : States line name value) {other : String} :
    Names line other ↔ other = name := by
  constructor
  · intro h
    obtain ⟨_, again⟩ := h
    exact (statesUnique again stated).1
  · rintro rfl
    exact ⟨value, stated⟩

theorem listingStates {table : Symbols} (listing : Listing lines table) (stated : States line name value) :
    Listing (lines ++ [line]) (table.insert name value) where
  names other := by
    rw [Table.insert, Table.memKeysAlter, listing.names]
    simp [or_and_right, exists_or, statedNames stated, or_comm]
  once := Table.keysNodup _
  order := by
    have before : table.keys.Pairwise (Sooner (lines ++ [line])) := listing.order.imp soonerMore
    rw [Table.keysInsert]
    split
    · exact before
    · rename_i new
      rw [List.pairwise_append]
      refine ⟨before, List.pairwise_singleton _ _, ?_⟩
      intro old member other single
      obtain rfl := List.mem_singleton.mp single
      obtain ⟨middle, inside, first⟩ := (listing.names old).mp member
      obtain ⟨front, back, rfl⟩ := List.append_of_mem inside
      refine ⟨front, middle, back ++ [line], by simp, first, ?_⟩
      intro earlier early again
      refine new ((listing.names other).mpr ⟨earlier, ?_, again⟩)
      rcases List.mem_append.mp early with front | here
      · simp [front]
      · simp [List.mem_singleton.mp here]
  values other final := by
    rw [← Table.getIff, Table.getInsert]
    split
    · rename_i same
      subst same
      have only : States line name final ↔ value = final :=
        ⟨fun again => (statesUnique stated again).2, fun same => same ▸ stated⟩
      have named : Names line name := ⟨value, stated⟩
      simp [lastNext, only, named]
    · rename_i different
      have silent : ¬ Names line other := fun h => different ((statedNames stated).mp h).symm
      have unstated : ¬ States line other final := fun again => silent ⟨final, again⟩
      rw [Table.getIff, listing.values, lastNext, or_iff_right unstated, and_iff_right silent]

end

theorem linesListing (lines : List (List Char)) :
    Listing lines (Table.ofList (lines.filterMap declaration?)) := by
  induction lines using List.reverseRecOn with
  | nil => constructor <;> simp [Table.ofList, Last]
  | append_singleton lines line ih =>
    rw [List.filterMap_append]
    cases declared : declaration? line with
    | none => simpa [declared] using listingSilent ih (silentIff.mp declared)
    | some symbol =>
      have more := listingStates ih (declaredIff.mp declared)
      simpa [declared, Table.ofList] using more

def Padded (line padded : List Char) : Prop :=
  ∃ left right, AllBlank left ∧ AllBlank right ∧ padded = left ++ line ++ right

theorem paddedDeclares {line padded : List Char} (more : Padded line padded) :
    declaration? padded = declaration? line := by
  obtain ⟨left, right, allLeft, allRight, rfl⟩ := more
  obtain ⟨before, after, allBefore, allAfter, same⟩ := trimSplit line
  have whole := trimSurrounded (blankAppend allLeft allBefore) (blankAppend allAfter allRight)
    (trimTrimmed line)
  have parts : left ++ line ++ right = left ++ before ++ trim line ++ (after ++ right) := by
    nth_rewrite 1 [same]
    simp
  rw [declaration?, declaration?, parts, whole]

theorem paddedDeclarations {lines longer : List (List Char)} (more : List.Forall₂ Padded lines longer) :
    longer.filterMap declaration? = lines.filterMap declaration? := by
  induction more with
  | nil => rfl
  | cons first _ ih => rw [List.filterMap_cons, List.filterMap_cons, paddedDeclares first, ih]

theorem paddedSymbols {source padded : String}
    (more : List.Forall₂ Padded (split '\n' source.toList) (split '\n' padded.toList)) :
    symbols padded = symbols source := by
  rw [symbols, symbols, declarations, declarations, paddedDeclarations more]

def carriaged (source : String) : String :=
  String.ofList (source.toList.flatMap fun c => if c = '\n' then ['\r', '\n'] else [c])

theorem carriagedPieces (text : List Char) :
    List.Forall₂ (fun line longer => ∃ right, AllBlank right ∧ longer = line ++ right)
      (split '\n' text)
      (split '\n' (text.flatMap fun c => if c = '\n' then ['\r', '\n'] else [c])) := by
  -- Only the ends of lines get longer, so a character in front of both keeps them padded.
  induction text with
  | nil => exact .cons ⟨[], blankNil, rfl⟩ .nil
  | cons c rest ih =>
    by_cases feed : c = '\n'
    · subst feed
      have blank : AllBlank ['\r'] := by simp [AllBlank, isBlank, blankRanges]
      have back := splitAppend '\n' ['\r']
        (rest.flatMap fun c => if c = '\n' then ['\r', '\n'] else [c])
      rw [splitMark, List.flatMap_cons, if_pos rfl]
      exact back ▸ .cons ⟨['\r'], blank, rfl⟩ ih
    · simp only [split, List.forall₂_cons, List.foldr_cons, List.flatMap_cons, if_neg feed,
        List.singleton_append, extend] at ih ⊢
      obtain ⟨⟨right, blank, same⟩, tail⟩ := ih
      exact ⟨⟨right, blank, by rw [same, List.cons_append]⟩, tail⟩

theorem carriagedSymbols (source : String) : symbols (carriaged source) = symbols source := by
  apply paddedSymbols
  rw [carriaged, String.toList_ofList]
  refine (carriagedPieces source.toList).imp ?_
  intro line longer h
  obtain ⟨right, blank, same⟩ := h
  exact ⟨[], right, blankNil, blank, same⟩

structure Grammatical (source : String) : Prop where
  declares : ∀ line ∈ split '\n' source.toList, ∀ name value,
    declaration? line = some (name, value) ↔ States line name value
  silent : ∀ line ∈ split '\n' source.toList, declaration? line = none ↔ ∀ name, ¬ Names line name
  unique : ∀ line ∈ split '\n' source.toList, ∀ name value other final,
    States line name value → States line other final → name = other ∧ value = final
  named : ∀ line ∈ split '\n' source.toList, ∀ rest, after? marker.toList (trim line) = some rest →
    (parts rest).1.isEmpty = false
  lists : Listing (split '\n' source.toList) (symbols source)
  clean : ∀ name value, (name, value) ∈ (symbols source).toList →
    name ≠ "" ∧ NoBlank name.toList ∧ Trimmed value.toList ∧ '\n' ∉ value.toList
  padded : ∀ other, List.Forall₂ Padded (split '\n' source.toList) (split '\n' other.toList) →
    symbols other = symbols source
  returned : symbols (carriaged source) = symbols source

theorem headerGrammatical (source : String) : Grammatical source := by
  have lists : Listing (split '\n' source.toList) (symbols source) := linesListing _
  constructor
  · exact fun _ _ _ _ => declaredIff
  · exact fun _ _ => silentIff
  · exact fun _ _ _ _ _ _ => statesUnique
  · exact fun _ _ _ marked => List.isEmpty_eq_false_iff.mpr (markedName marked)
  · exact lists
  · intro name value member
    obtain ⟨_, _, _, _, stated, _⟩ := (lists.values name value).mp member
    exact ⟨stated.named, stated.solid, stated.trimmed, valueWhole (Table.getIff.mpr member)⟩
  · exact fun _ => paddedSymbols
  · exact carriagedSymbols source

example : (symbols "#define A 1\r\n#define B\n#defined A 2\n\t#define \t A  3 4 ").toList =
    [("A", "3 4"), ("B", "")] := by
  decide +kernel

end Greybus.Header
