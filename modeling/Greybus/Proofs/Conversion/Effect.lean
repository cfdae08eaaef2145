import Greybus.Conversion.Basic
import Greybus.Proofs.Layout.Entries
import Greybus.Proofs.Storage.Replacement

/-! What a conversion does to a disk. Reading changes nothing and the output is replaced
as a whole. So a conversion that fails, at whichever step, leaves the disk as it was,
and one that succeeds changes the output alone, be it the input file itself. -/
namespace Greybus.Conversion
open Storage
open Storage.Disk (Replaced)

theorem contentsIff {symbols : Header.Symbols} {options : Options} {bytes : ByteArray} :
    contents symbols options = .ok bytes ↔ ∃ manifest,
      Manifest.ofSymbols symbols options.version = .ok manifest ∧
        manifest.encode options.format = .ok bytes := by
  simp only [contents, bindOkIff, mapErrorOk]

theorem decodeIff {bytes : ByteArray} {text : String} :
    decode bytes = .ok text ↔ String.fromUTF8? bytes = some text := by
  unfold decode
  cases String.fromUTF8? bytes <;> simp

theorem decodeError {bytes : ByteArray} {fault : Fault} :
    decode bytes = .error fault ↔ String.fromUTF8? bytes = none ∧ fault = .notText := by
  unfold decode
  cases String.fromUTF8? bytes <;> simp [eq_comm]

def Converted (source : ByteArray) (options : Options) (bytes : ByteArray) : Prop :=
  ∃ text manifest, String.fromUTF8? source = some text ∧
    Manifest.ofSymbols (Header.symbols text) options.version = .ok manifest ∧
    manifest.encode options.format = .ok bytes

section
variable {γ τ : Type} [Storage (OnDisk γ) τ] {place : τ → Place} (orderly : Orderly γ τ place)
  (conditions : γ) (disk : Disk)
include orderly

theorem leadsSymbols (path : String) :
    Leads (readSymbols path : ExceptT Failure (OnDisk γ) Header.Symbols) conditions disk
      (fun symbols after => after = disk ∧ ∃ source text, disk.read path = .ok source ∧
        String.fromUTF8? source = some text ∧ symbols = Header.symbols text)
      (fun after => after = disk) := by
  apply leadsBind
  apply leadsAdapt
  refine leadsMono (orderly.read path conditions disk) ?_ fun _ => id
  rintro source _ ⟨rfl, found⟩
  apply leadsBind
  refine leadsLift ?_ rfl
  intro text decoded
  exact leadsPure ⟨rfl, source, text, found, decodeIff.mp (mapErrorOk.mp decoded), rfl⟩

end

end Greybus.Conversion
