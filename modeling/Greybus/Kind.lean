/-! The kinds of descriptors that a manifest is made of, which are also the kinds
of devicetree nodes that descriptors are read from. -/
namespace Greybus

inductive Kind where
  | interface
  | string
  | bundle
  | cport
  deriving DecidableEq, Repr

namespace Kind

def all : List Kind := [.interface, .string, .bundle, .cport]

def name : Kind → String
  | .interface => "interface"
  | .string => "string"
  | .bundle => "bundle"
  | .cport => "cport"

def code : Kind → UInt8
  | .interface => 1
  | .string => 2
  | .bundle => 3
  | .cport => 4

theorem memAll (kind : Kind) : kind ∈ all := by cases kind <;> decide

end Kind
end Greybus
