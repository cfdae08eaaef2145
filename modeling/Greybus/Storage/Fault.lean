import Greybus.Text.Number

/-! What can go wrong with a file. Only the wording of a fault reaches anyone; an error
of the system has a number in it, and contents may be no text in UTF-8. -/
namespace Greybus.Storage

structure Fault where
  message : String
  deriving DecidableEq, Repr

namespace Fault

def system (code : Nat) (text : String) : Fault :=
  ⟨text ++ " (os error " ++ Text.Number.decimal code ++ ")"⟩

def missing : Fault := .system 2 "No such file or directory"

def busy : Fault := .system 16 "Device or resource busy"

def taken : Fault := .system 17 "File exists"

def notDirectory : Fault := .system 20 "Not a directory"

def isDirectory : Fault := .system 21 "Is a directory"

def notText : Fault := ⟨"stream did not contain valid UTF-8"⟩

end Fault
end Greybus.Storage
