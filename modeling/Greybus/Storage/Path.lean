import Greybus.Text.Cut

/-! Paths as text. A path is cut at its slashes; empty pieces and single dots lead
nowhere, so a slash or a dot at the end changes neither name nor extension. -/
namespace Greybus.Storage.Path
open Text (split cutLast?)

def pieces (path : String) : List String := (split '/' path.toList).map String.ofList

def steps (path : String) : List String :=
  (pieces path).filter fun piece => piece ≠ "" && piece ≠ "."

def isAbsolute (path : String) : Bool := path.toList.head? = some '/'

def fileName? (path : String) : Option String :=
  (steps path).getLast?.filter fun piece => piece ≠ ".."

def extension? (path : String) : Option String := do
  let name ← fileName? path
  let sides ← cutLast? ['.'] name.toList
  if sides.1.isEmpty then none else some (String.ofList sides.2)

def directory (path : String) : String :=
  let above := "/".intercalate (steps path).dropLast
  match steps path with
  | [] => "."
  | [_] => if isAbsolute path then "/" else "."
  | _ => if isAbsolute path then "/" ++ above else above

end Greybus.Storage.Path
