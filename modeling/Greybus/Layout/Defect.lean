import Greybus.Text.Number

/-! What can keep a devicetree from having a layout. Each defect names the node
that has it. -/
namespace Greybus.Layout
open Text

inductive Defect where
  | noAttribute (node attr : String)
  | noParent (node : String)
  | danglingLink (node attr target : String)
  | badNumber (node attr value : String) (fault : Number.Fault)
  | twoInterfaces (first second : String)
  deriving DecidableEq, Repr

private def quoted (text : String) : String := "'" ++ text ++ "'"

def Defect.message : Defect → String
  | .noAttribute node attr => "node " ++ quoted node ++ " has no " ++ quoted attr ++ " attribute"
  | .noParent node => "node " ++ quoted node ++ " has no parent"
  | .danglingLink node attr target =>
    quoted attr ++ " of node " ++ quoted node ++ " refers to unknown node " ++ quoted target
  | .badNumber node attr value fault =>
    quoted attr ++ " of node " ++ quoted node ++ " is not a valid integer: " ++ quoted value ++
      " (" ++ fault.message ++ ")"
  | .twoInterfaces first second =>
    "more than one interface node: " ++ quoted first ++ " and " ++ quoted second

end Greybus.Layout
