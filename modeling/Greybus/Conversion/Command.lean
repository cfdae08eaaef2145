import Greybus.Conversion.Basic

/-! The command line: a program name, an input and an output. It ends in a status
and in a text for standard error, which is empty on success. -/
namespace Greybus.Command
open Conversion (Options)

structure Outcome where
  status : UInt8
  errors : String
  deriving DecidableEq, Repr

def defaultName : String := "dt2mnfs"

def usageStatus : UInt8 := 1

def failureStatus : UInt8 := 2

def usage (program : String) : String := "usage: " ++ program ++ " <input> <output>\n"

def complaint (program : String) (failure : Conversion.Failure) : String :=
  program ++ ": error: " ++ failure.message ++ "\n"

def execute {m : Type → Type} {τ : Type} [Monad m] [Storage m τ] (args : List String) : m Outcome :=
  match args with
  | [program, input, output] => do
    match ← (Conversion.convertFile input output (Options.ofPath output)).run with
    | .ok () => return ⟨0, ""⟩
    | .error failure => return ⟨failureStatus, complaint program failure⟩
  | _ => pure ⟨usageStatus, usage (args.headD defaultName)⟩

end Greybus.Command
