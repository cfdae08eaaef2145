import Greybus.Kind

/-! The descriptors of a Greybus manifest. Every field has the width that it has
in a packed manifest. -/
namespace Greybus

structure Version where
  major : UInt8 := 0
  minor : UInt8 := 1
  deriving DecidableEq, Repr, Inhabited

structure Interface where
  vendor : UInt8
  product : UInt8
  deriving DecidableEq, Repr

structure StringEntry where
  id : UInt8
  text : String
  parent : Option Interface := none
  deriving DecidableEq, Repr

structure Bundle where
  id : UInt8
  classCode : UInt8
  deriving DecidableEq, Repr

structure CPort where
  id : UInt16
  bundle : UInt8
  protocol : UInt8
  deriving DecidableEq, Repr

inductive Descriptor where
  | interface (entry : Interface)
  | string (entry : StringEntry)
  | bundle (entry : Bundle)
  | cport (entry : CPort)
  deriving DecidableEq, Repr

namespace Descriptor

def kind : Descriptor → Kind
  | .interface _ => .interface
  | .string _ => .string
  | .bundle _ => .bundle
  | .cport _ => .cport

def interface? : Descriptor → Option Interface
  | .interface entry => some entry
  | _ => none

def string? : Descriptor → Option StringEntry
  | .string entry => some entry
  | _ => none

def bundle? : Descriptor → Option Bundle
  | .bundle entry => some entry
  | _ => none

def cport? : Descriptor → Option CPort
  | .cport entry => some entry
  | _ => none

end Descriptor
end Greybus
