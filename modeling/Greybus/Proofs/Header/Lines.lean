import Mathlib.Data.List.Basic
import Greybus.Header
import Greybus.Table.Lemmas

/-! A header as a list of lines. The line of a symbol declares this symbol again, a
line without the marker declares nothing, and so what a header declares can be
read off its lines one by one. -/
namespace Greybus.Text

def NoBlank (text : List Char) : Prop := ∀ c ∈ text, isBlank c = false

instance (text : List Char) : Decidable (NoBlank text) :=
  List.decidableBAll (fun c => isBlank c = false) text

-- Named, since inference may as well find that there are finitely many characters.
instance (text : List Char) : Decidable (Trimmed text) :=
  @instDecidableAnd _ _ (Option.decidableForallMem text.head?) (Option.decidableForallMem text.getLast?)

theorem trimmedNoBlank {text : List Char} (h : NoBlank text) : Trimmed text :=
  ⟨fun c first => h c (List.mem_of_mem_head? first), fun c last => h c (List.mem_of_getLast? last)⟩

theorem takeNoBlank {text rest : List Char} (h : NoBlank text)
    (next : ∀ c ∈ rest.head?, isBlank c = true) :
    (text ++ rest).takeWhile (fun c => !isBlank c) = text ∧
      (text ++ rest).dropWhile (fun c => !isBlank c) = rest := by
  have inside : ∀ c ∈ text, (!isBlank c) = true := fun c member => by simp [h c member]
  rw [List.takeWhile_append_of_pos inside, List.dropWhile_append_of_pos inside]
  cases rest with
  | nil => simp
  | cons c tail => simp [next c rfl]

end Greybus.Text

namespace Greybus.Header
open Text

def line (symbol : String × String) : String := marker ++ symbol.1 ++ " " ++ symbol.2

def text (lines : List String) : String := "\n".intercalate lines

structure Declarable (symbol : String × String) : Prop where
  named : symbol.1 ≠ ""
  solid : NoBlank symbol.1.toList
  trimmed : Trimmed symbol.2.toList
  whole : '\n' ∉ symbol.2.toList

instance (symbol : String × String) : Decidable (Declarable symbol) :=
  decidable_of_iff (symbol.1 ≠ "" ∧ NoBlank symbol.1.toList ∧ Trimmed symbol.2.toList ∧
      '\n' ∉ symbol.2.toList)
    ⟨fun ⟨named, solid, trimmed, whole⟩ => ⟨named, solid, trimmed, whole⟩,
      fun ⟨named, solid, trimmed, whole⟩ => ⟨named, solid, trimmed, whole⟩⟩

def Declares (line : String) : Prop := marker.toList <+: trim line.toList

instance : DecidablePred Declares := fun _ => inferInstanceAs (Decidable (_ <+: _))

theorem silentLine {line : String} (silent : ¬ Declares line) : declaration? line.toList = none := by
  rw [Option.eq_none_iff_forall_ne_some]
  intro symbol declared
  obtain ⟨rest, marked, _⟩ := declarationIff.mp declared
  exact silent ⟨rest, (afterIff.mp marked).symm⟩

theorem markedLine {line indent name rest : List Char} (blank : AllBlank indent) (named : name ≠ [])
    (solid : NoBlank name) (next : ∀ c ∈ rest.head?, isBlank c = true)
    (marked : trim line = marker.toList ++ (indent ++ (name ++ rest))) :
    declaration? line = some (String.ofList name, String.ofList (trim rest)) := by
  have first : trimStart (indent ++ (name ++ rest)) = name ++ rest := by
    rw [trimStartBlank blank]
    apply trimStartKeeps
    intro c head
    cases name with
    | nil => contradiction
    | cons d tail => exact solid c (by simp_all)
  obtain ⟨take, drop⟩ := takeNoBlank solid next
  have cut : parts (indent ++ (name ++ rest)) = (name, trim rest) := by
    simp only [parts, first, take, drop]
  exact declarationIff.mpr ⟨_, afterIff.mpr marked, by rwa [cut], by rw [cut]⟩

theorem trimInside {text : List Char} {c : Char} (member : c ∈ trim text) : c ∈ text := by
  obtain ⟨left, right, _, _, same⟩ := trimSplit text
  rw [same]
  simp [member]

theorem valueInside {line : List Char} {symbol : String × String}
    (declared : declaration? line = some symbol) {c : Char} (member : c ∈ symbol.2.toList) :
    c ∈ line := by
  obtain ⟨rest, marked, _, rfl⟩ := declarationIff.mp declared
  rw [String.toList_ofList] at member
  have inRest : c ∈ rest :=
    (List.dropWhile_suffix _).mem ((List.dropWhile_suffix _).mem (trimInside member))
  apply trimInside
  rw [afterIff.mp marked]
  exact List.mem_append_right _ inRest

theorem declaredWhole {source : String} {symbol : String × String}
    (declared : symbol ∈ declarations source) : '\n' ∉ symbol.2.toList := by
  obtain ⟨piece, inside, found⟩ := List.mem_filterMap.mp declared
  exact fun feed => pieceFree inside (valueInside found feed)

theorem valueWhole {source name value : String} (found : (symbols source).get? name = some value) :
    '\n' ∉ value.toList := declaredWhole (Table.memOfList found)

theorem lastAppend {left right : List Char} (filled : right ≠ []) :
    (left ++ right).getLast? = right.getLast? := by
  rw [List.getLast?_append, List.getLast?_eq_some_getLast filled, Option.some_or]

theorem trimmedMarked {body : List Char} (filled : body ≠ [])
    (last : ∀ c ∈ body.getLast?, isBlank c = false) : Trimmed (marker.toList ++ body) := by
  constructor
  · intro c first
    cases Option.some.inj (first : some '#' = some c)
    decide
  · intro c ends
    rw [lastAppend filled] at ends
    exact last c ends

theorem lineWhole {symbol : String × String} (fit : Declarable symbol) : '\n' ∉ (line symbol).toList := by
  have name : '\n' ∉ symbol.1.toList := by
    intro feed
    have solid := fit.solid '\n' feed
    contradiction
  simp [line, marker, name, fit.whole]

theorem lineDeclares {symbol : String × String} (fit : Declarable symbol) :
    declaration? (line symbol).toList = some symbol := by
  obtain ⟨named, solid, trimmed, _⟩ := fit
  have named' : symbol.1.toList ≠ [] := by simpa using named
  have space : AllBlank [' '] := by simp [AllBlank, isBlank, blankRanges]
  have chars : (line symbol).toList =
      marker.toList ++ (symbol.1.toList ++ ([' '] ++ symbol.2.toList)) := by
    simp [line]
  by_cases bare : symbol.2.toList = []
  · -- The blank that would lead to a value is the end of the line.
    have whole := trimSurrounded blankNil space (trimmedMarked named' (trimmedNoBlank solid).2)
    have marked : trim (line symbol).toList = marker.toList ++ (symbol.1.toList ++ []) := by
      rw [List.append_nil, ← whole, chars, bare]
      simp
    have empty : symbol.2 = "" := by simpa using bare
    rw [markedLine blankNil named' solid (by simp) marked]
    exact congrArg some (Prod.ext String.ofList_toList empty.symm)
  · have ends : ∀ c ∈ (symbol.1.toList ++ ([' '] ++ symbol.2.toList)).getLast?, isBlank c = false := by
      rw [← List.append_assoc, lastAppend bare]
      exact trimmed.2
    have marked := trimSurrounded blankNil blankNil (trimmedMarked (by simp) ends)
    have value := trimSurrounded space blankNil trimmed
    rw [List.append_nil] at value marked
    rw [List.nil_append, ← chars] at marked
    rw [markedLine blankNil named' solid (by simp [isBlank, blankRanges]) (marked.trans chars), value]
    simp

theorem textDeclarations {lines : List String} (whole : ∀ line ∈ lines, '\n' ∉ line.toList) :
    declarations (text lines) = lines.filterMap fun line => declaration? line.toList := by
  induction lines with
  | nil => rfl
  | cons line rest ih =>
    have first := whole line List.mem_cons_self
    have others := ih fun line member => whole line (List.mem_cons_of_mem _ member)
    cases rest with
    | nil => simp [declarations, text, splitFree first, List.filterMap]
    | cons second tail =>
      have chars : (text (line :: second :: tail)).toList =
          line.toList ++ '\n' :: (text (second :: tail)).toList := by
        simp [text]
      simp only [declarations] at others
      rw [declarations, chars, splitAppend, splitFree first, List.filterMap_append, others]
      simp only [List.filterMap_cons, List.filterMap_nil]
      cases declaration? line.toList <;> rfl

theorem linesDeclare {lines silent : List String} {symbols : List (String × String)}
    (order : lines.Perm (symbols.map line ++ silent))
    (clean : ∀ symbol ∈ symbols, Declarable symbol)
    (mute : ∀ line ∈ silent, ¬ Declares line ∧ '\n' ∉ line.toList) :
    (declarations (text lines)).Perm symbols := by
  have whole : ∀ line ∈ lines, '\n' ∉ line.toList := by
    intro line member
    rcases List.mem_append.mp (order.mem_iff.mp member) with declared | extra
    · obtain ⟨symbol, inside, rfl⟩ := List.mem_map.mp declared
      exact lineWhole (clean symbol inside)
    · exact (mute line extra).2
  rw [textDeclarations whole]
  have declared : (symbols.map line).filterMap (fun line => declaration? line.toList) = symbols := by
    rw [List.filterMap_map]
    calc
      _ = symbols.filterMap some := List.filterMap_congr fun symbol inside =>
        lineDeclares (clean symbol inside)
      _ = symbols := List.filterMap_some
  have nothing : silent.filterMap (fun line => declaration? line.toList) = [] :=
    List.filterMap_eq_nil_iff.mpr fun line extra => silentLine (mute line extra).1
  have found := order.filterMap fun line => declaration? line.toList
  rw [List.filterMap_append, declared, nothing, List.append_nil] at found
  exact found

end Greybus.Header
