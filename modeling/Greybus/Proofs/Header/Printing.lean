import Greybus.Proofs.Header.Grammar
import Greybus.Proofs.Table.Insertion

/-! Headers that were printed. A table whose symbols can each stand on a line is printed
as a header that declares them in their order. Headers give no other tables, so what
was read from one is read again from what is printed of it. -/
namespace Greybus.Header
open Text

theorem declaredFits {source : String} {symbol : String × String}
    (declared : symbol ∈ declarations source) : Declarable symbol := by
  obtain ⟨piece, _, found⟩ := List.mem_filterMap.mp declared
  have stated : States piece symbol.1 symbol.2 := statesDeclared found
  exact ⟨stated.named, stated.solid, stated.trimmed, declaredWhole declared⟩

theorem printedChars (symbols : Symbols) : (print symbols).toList =
    (symbols.toList.map fun symbol => (line symbol).toList).flatMap fun piece => piece ++ ['\n'] := by
  rw [print]
  induction symbols.toList with
  | nil => rfl
  | cons symbol rest ih => simp [String.join_cons, ih, printSymbol, line]

theorem printedDeclares {symbols : Symbols} (fit : ∀ symbol ∈ symbols.toList, Declarable symbol) :
    declarations (print symbols) = symbols.toList := by
  have whole : ∀ piece ∈ symbols.toList.map fun symbol => (line symbol).toList, '\n' ∉ piece := by
    intro piece member
    obtain ⟨symbol, inside, rfl⟩ := List.mem_map.mp member
    exact lineWhole (fit symbol inside)
  have nothing : [[]].filterMap declaration? = [] := rfl
  calc
    declarations (print symbols)
    _ = (symbols.toList.map fun symbol => (line symbol).toList).filterMap declaration? := by
      rw [declarations, printedChars, splitEnded whole, List.filterMap_append, nothing, List.append_nil]
    _ = symbols.toList.filterMap some := by
      rw [List.filterMap_map]
      apply List.filterMap_congr
      intro symbol inside
      rw [Function.comp_apply, lineDeclares (fit symbol inside)]
    _ = symbols.toList := List.filterMap_some

theorem printedSymbols {table : Symbols} (fit : ∀ symbol ∈ table.toList, Declarable symbol) :
    symbols (print table) = table := by
  rw [symbols, printedDeclares fit, Table.ofListOwn]

theorem insertedFits {inserted : List (String × String)} (fit : ∀ symbol ∈ inserted, Declarable symbol) :
    ∀ symbol ∈ (Table.ofList inserted).toList, Declarable symbol := by
  intro symbol member
  exact fit symbol (Table.memOfList (Table.getIff.mpr member))

theorem printedReadBack :
    (∀ inserted : List (String × String), (∀ symbol ∈ inserted, Declarable symbol) →
      symbols (print (Table.ofList inserted)) = Table.ofList inserted) ∧
    ∀ source : String,
      (∃ inserted : List (String × String), (∀ symbol ∈ inserted, Declarable symbol) ∧
        symbols source = Table.ofList inserted) ∧
      symbols (print (symbols source)) = symbols source := by
  have back {inserted : List (String × String)} (fit : ∀ symbol ∈ inserted, Declarable symbol) :
      symbols (print (Table.ofList inserted)) = Table.ofList inserted :=
    printedSymbols (insertedFits fit)
  refine ⟨fun _ => back, fun source => ?_⟩
  have read : symbols source = Table.ofList (declarations source) := rfl
  have fit : ∀ symbol ∈ declarations source, Declarable symbol := fun _ => declaredFits
  rw [read]
  exact ⟨⟨declarations source, fit, rfl⟩, back fit⟩

theorem printedReadBackMarked :
    let inserted := [("A", "1"), ("B", ""), ("A", "#define C \"x\r y\""), ("Ä", "\"Ω")]
    (∀ symbol ∈ inserted, Declarable symbol) ∧
      (Table.ofList inserted).toList = [("A", "#define C \"x\r y\""), ("B", ""), ("Ä", "\"Ω")] ∧
      symbols (print (Table.ofList inserted)) = Table.ofList inserted := by
  intro inserted
  have fit : ∀ symbol ∈ inserted, Declarable symbol := by decide +kernel
  have back := printedReadBack.1 inserted fit
  exact ⟨fit, by decide +kernel, back⟩

end Greybus.Header
