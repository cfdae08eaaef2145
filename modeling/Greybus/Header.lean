import Greybus.Table
import Greybus.Text.Blank
import Greybus.Text.Cut

/-! A header declares symbols, one to a line: a marker, a name without blanks and
a value, which may be empty. Blanks around these parts do not count, and a line
of any other form declares nothing. -/
namespace Greybus.Header
open Text (isBlank trim trimStart after? split)

abbrev Symbols := Table String String

def marker : String := "#define "

def parts (rest : List Char) : List Char × List Char :=
  let declared := trimStart rest
  (declared.takeWhile fun c => !isBlank c, trim (declared.dropWhile fun c => !isBlank c))

def declaration? (line : List Char) : Option (String × String) := do
  let rest ← after? marker.toList (trim line)
  let (name, value) := parts rest
  if name.isEmpty then none else some (String.ofList name, String.ofList value)

theorem declarationIff {line : List Char} {symbol : String × String} :
    declaration? line = some symbol ↔ ∃ rest, after? marker.toList (trim line) = some rest ∧
      (parts rest).1 ≠ [] ∧ symbol = (String.ofList (parts rest).1, String.ofList (parts rest).2) := by
  simp only [declaration?, Option.bind_eq_bind, Option.bind_eq_some_iff]
  refine exists_congr fun rest => and_congr_right fun _ => ?_
  cases (parts rest).1 <;> simp [eq_comm]

def declarations (source : String) : List (String × String) :=
  (split '\n' source.toList).filterMap declaration?

def symbols (source : String) : Symbols := Table.ofList (declarations source)

def printSymbol (symbol : String × String) : String :=
  marker ++ symbol.1 ++ " " ++ symbol.2 ++ "\n"

def print (symbols : Symbols) : String := String.join (symbols.toList.map printSymbol)

end Greybus.Header
