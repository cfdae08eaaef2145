import Greybus.Manifest.Basic
import Greybus.Text.Number

/-! The packed form of a manifest: its total size, its version and one record for
each descriptor. A record has its own size, a type code, a zero and a body, filled
up with zeros to a multiple of four bytes. Words have their low byte first. -/
namespace Greybus
open Text.Number (decimal)

namespace Blob

abbrev Bytes := List UInt8

def maxSize : Nat := 65535

def maxText : Nat := 255

def headSize : Nat := 4

def maxTextRecord : Nat := headSize + 2 + maxText

inductive Fault where
  | textTooLong (id : UInt8) (length : Nat)
  | blobTooLarge (size : Nat)
  deriving DecidableEq, Repr

def word (n : UInt16) : Bytes := [n.toUInt8, (n >>> 8).toUInt8]

def align (n : Nat) : Nat := (n + 3) / 4 * 4

def textBytes (text : String) : Bytes := text.toUTF8.data.toList

end Blob
open Blob

namespace Descriptor

def body : Descriptor → Bytes
  | .interface entry => [entry.vendor, entry.product, 0, 0]
  | .string entry => entry.text.utf8ByteSize.toUInt8 :: entry.id :: textBytes entry.text
  | .bundle entry => [entry.id, entry.classCode, 0, 0]
  | .cport entry => word entry.id ++ [entry.bundle, entry.protocol]

def record (descriptor : Descriptor) : Bytes :=
  let length := headSize + descriptor.body.length
  word (align length).toUInt16 ++ [descriptor.kind.code, 0] ++ descriptor.body ++
    List.replicate (align length - length) 0

def packed (descriptor : Descriptor) : Except Fault Bytes :=
  match descriptor with
  | .string entry =>
    let length := entry.text.utf8ByteSize
    if length ≤ maxText ∧ align (headSize + 2 + length) ≤ maxTextRecord then .ok descriptor.record
    else .error (.textTooLong entry.id length)
  | _ => .ok descriptor.record

end Descriptor

def Blob.records (size : Nat) : List Descriptor → Except Fault Bytes
  | [] => .ok []
  | descriptor :: rest => do
    let record ← descriptor.packed
    if size + record.length > maxSize then .error (.blobTooLarge (size + record.length))
    else
      let others ← records (size + record.length) rest
      return record ++ others

def Manifest.blob (m : Manifest) : Except Fault Bytes := do
  let records ← Blob.records headSize m.descriptors.toList
  let size := headSize + records.length
  if size > maxSize then .error (.blobTooLarge size)
  else return word size.toUInt16 ++ [m.version.major, m.version.minor] ++ records

def Blob.Fault.message : Fault → String
  | .textTooLong id length =>
    "string descriptor " ++ decimal id.toNat ++ " is " ++ decimal length ++
      " bytes long and does not fit in " ++ decimal maxTextRecord ++ " bytes"
  | .blobTooLarge size => "manifest is " ++ decimal size ++ " bytes (max " ++ decimal maxSize ++ ")"

end Greybus
