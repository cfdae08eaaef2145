import Greybus.Conversion.Command
import Greybus.Proofs.Blob.Size
import Greybus.Proofs.Conversion.Effect
import Greybus.Proofs.Layout.Demands
import Greybus.Proofs.Storage.Writing

/-! What a command line comes to. Without an input and an output it is a question of
usage and touches no file. With them it succeeds if every stage of the conversion does,
and otherwise the first stage that fails gives the status, the report and its cause. -/
namespace Greybus
open Storage
open Storage.Disk (Replaced)

namespace Conversion

def Renders (m : Manifest) (output : String) (bytes : ByteArray) : Prop :=
  match Format.ofPath output with
  | .mnfs => bytes = m.source.toUTF8
  | .mnfb => ∃ blob, m.blob = .ok blob ∧ bytes = blob.toByteArray

theorem rendersIff {m : Manifest} {output : String} {bytes : ByteArray} :
    m.encode (Format.ofPath output) = .ok bytes ↔ Renders m output bytes := by
  unfold Renders
  cases Format.ofPath output with
  | mnfs => simp [Manifest.encode, eq_comm]
  | mnfb => cases packed : m.blob <;> simp [Manifest.encode, packed, Except.map, eq_comm]

theorem encodeError {m : Manifest} {format : Format} {fault : Blob.Fault} :
    m.encode format = .error fault ↔ format = .mnfb ∧ m.blob = .error fault := by
  cases format with
  | mnfs => simp [Manifest.encode]
  | mnfb => cases packed : m.blob <;> simp [Manifest.encode, packed, Except.map]

theorem contentsPath {symbols : Header.Symbols} {output : String} {bytes : ByteArray} :
    contents symbols (.ofPath output) = .ok bytes ↔
      ∃ m, Manifest.ofSymbols symbols ⟨0, 1⟩ = .ok m ∧ Renders m output bytes := by
  simp only [contentsIff, ← rendersIff]
  rfl

theorem contentsError (symbols : Header.Symbols) (output : String) {failure : Failure} :
    contents symbols (.ofPath output) = .error failure ↔
      (∃ defect, Layout.ofSymbols symbols = .error defect ∧ .layout defect = failure) ∨
        ∃ m, Manifest.ofSymbols symbols ⟨0, 1⟩ = .ok m ∧
          ∃ fault, (Format.ofPath output = .mnfb ∧ m.blob = .error fault) ∧ .packing fault = failure := by
  simp only [contents, bindErrorIff, mapErrorOk, mapErrorError, Layout.manifestError,
    encodeError]
  rfl

section
variable {γ τ : Type} [Storage (OnDisk γ) τ] (conditions : γ) (disk : Disk)

def obtained (path : String) : Except Fault ByteArray :=
  (outcome (Storage.read path : ExceptT Fault (OnDisk γ) ByteArray) conditions disk).1

def Loads (path text : String) : Prop :=
  ∃ source, obtained conditions disk path = .ok source ∧ disk.read path = .ok source ∧
    String.fromUTF8? source = some text

def Builds (input : String) (m : Manifest) : Prop :=
  ∃ text, Loads conditions disk input text ∧ Manifest.ofSymbols (Header.symbols text) ⟨0, 1⟩ = .ok m

theorem buildsUnique {input : String} {m other : Manifest} (first : Builds conditions disk input m)
    (second : Builds conditions disk input other) : m = other := by
  obtain ⟨text, ⟨source, read, _, decoded⟩, made⟩ := first
  obtain ⟨text', ⟨source', read', _, decoded'⟩, made'⟩ := second
  obtain rfl := Except.ok.inj (read.symm.trans read')
  obtain rfl := Option.some.inj (decoded.symm.trans decoded')
  exact Except.ok.inj (made.symm.trans made')

def Succeeds (input output : String) : Prop :=
  ∃ m bytes, Builds conditions disk input m ∧ Renders m output bytes ∧
    Writes conditions output bytes disk (.ok ())

inductive FirstFailure (input output : String) : Failure → Prop where
  | unread {fault : Fault} (stopped : obtained conditions disk input = .error fault) :
      FirstFailure input output (.unreadable input fault)
  | notText {source : ByteArray} (read : obtained conditions disk input = .ok source)
      (stopped : String.fromUTF8? source = none) : FirstFailure input output (.unreadable input .notText)
  | layout {text : String} {defect : Layout.Defect} (loaded : Loads conditions disk input text)
      (stopped : Layout.ofSymbols (Header.symbols text) = .error defect) :
      FirstFailure input output (.layout defect)
  | packing {m : Manifest} {fault : Blob.Fault} (built : Builds conditions disk input m)
      (packed : Format.ofPath output = .mnfb) (stopped : m.blob = .error fault) :
      FirstFailure input output (.packing fault)
  | unwritten {m : Manifest} {bytes : ByteArray} {fault : Fault}
      (built : Builds conditions disk input m) (rendered : Renders m output bytes)
      (stopped : Writes conditions output bytes disk (.error fault)) :
      FirstFailure input output (.unwritable output fault)

def symbolsIn (path : String) : Except Failure Header.Symbols := do
  let source ← (obtained conditions disk path).mapError (.unreadable path)
  let text ← (decode source).mapError (.unreadable path)
  return Header.symbols text

theorem symbolsError {path : String} {failure : Failure} :
    symbolsIn conditions disk path = .error failure ↔
      (∃ fault, obtained conditions disk path = .error fault ∧ .unreadable path fault = failure) ∨
        ∃ source, obtained conditions disk path = .ok source ∧
          String.fromUTF8? source = none ∧ .unreadable path .notText = failure := by
  simp only [symbolsIn, bindErrorIff, mapErrorOk, mapErrorError, decodeIff, decodeError]
  refine or_congr Iff.rfl (exists_congr fun source => and_congr_right fun _ => ?_)
  constructor
  · intro h
    rcases h with ⟨_, ⟨binary, rfl⟩, same⟩ | ⟨_, _, last⟩
    · exact ⟨binary, same⟩
    · contradiction
  · intro h
    exact .inl ⟨_, ⟨h.1, rfl⟩, h.2⟩

theorem packingFails {input output : String} {m : Manifest} (built : Builds conditions disk input m) :
    (∃ fault, FirstFailure conditions disk input output (.packing fault)) ↔
      Format.ofPath output = .mnfb ∧
        ((∃ entry, .string entry ∈ m.descriptors ∧ 254 < entry.text.utf8ByteSize) ∨
          65535 < Blob.totalSize m.descriptors.toList) := by
  rw [← Blob.blobStops]
  constructor
  · intro h
    obtain ⟨fault, first⟩ := h
    cases first with
    | packing again packed stopped =>
      obtain rfl := buildsUnique conditions disk built again
      exact ⟨packed, fault, stopped⟩
  · intro h
    obtain ⟨packed, fault, stopped⟩ := h
    exact ⟨fault, .packing built packed stopped⟩

def prepared (input output : String) : Except Failure ByteArray := do
  let symbols ← symbolsIn conditions disk input
  contents symbols (.ofPath output)

end

section
variable {γ τ : Type} [Storage (OnDisk γ) τ] {place : τ → Place} (orderly : Orderly γ τ place)
  (conditions : γ) (disk : Disk) (input output : String)
include orderly

theorem readOutcome {result : Except Fault ByteArray} {after : Disk}
    (run : outcome (Storage.read input : ExceptT Fault (OnDisk γ) ByteArray) conditions disk =
      (result, after)) :
    after = disk ∧ ∀ source, result = .ok source → disk.read input = .ok source := by
  have leads := orderly.read input conditions disk
  unfold Leads at leads
  rw [run] at leads
  cases result with
  | ok source =>
    refine ⟨leads.1, ?_⟩
    rintro _ ⟨⟩
    exact leads.2
  | error fault => exact ⟨leads, nofun⟩

theorem symbolsOutcome :
    outcome (readSymbols input : ExceptT Failure (OnDisk γ) Header.Symbols) conditions disk =
      (symbolsIn conditions disk input, disk) := by
  rcases run : outcome (Storage.read input : ExceptT Fault (OnDisk γ) ByteArray) conditions disk
    with ⟨result, after⟩
  obtain ⟨rfl, _⟩ := readOutcome orderly conditions disk input run
  rw [readSymbols, symbolsIn, obtained, outcomeBind, outcomeAdapt, run]
  cases result with
  | error fault => rfl
  | ok source =>
    simp only [Except.mapError, outcomeBind, outcomeLift]
    cases decoded : decode source with
    | error fault => simp only [bind, Except.bind, decoded]
    | ok text =>
      simp only [bind, Except.bind, decoded]
      rfl

theorem convertOutcome :
    outcome (convertFile input output (.ofPath output) : ExceptT Failure (OnDisk γ) Unit) conditions disk =
      match prepared conditions disk input output with
      | .error failure => (.error failure, disk)
      | .ok bytes => outcome ((Storage.replace output bytes : ExceptT Fault (OnDisk γ) Unit).adapt
        (.unwritable output)) conditions disk := by
  rw [convertFile, prepared, outcomeBind, symbolsOutcome orderly]
  cases symbolsIn conditions disk input with
  | error failure => rfl
  | ok symbols =>
    simp only [outcomeBind, outcomeLift]
    cases made : contents symbols (.ofPath output) <;> simp only [bind, Except.bind, made]

theorem symbolsLoaded {symbols : Header.Symbols} : symbolsIn conditions disk input = .ok symbols ↔
    ∃ text, Loads conditions disk input text ∧ Header.symbols text = symbols := by
  simp only [symbolsIn, bindOkIff, mapErrorOk, decodeIff, Loads]
  constructor
  · intro h
    obtain ⟨source, read, text, decoded, last⟩ := h
    have found := (readOutcome orderly conditions disk input rfl).2 source read
    exact ⟨text, ⟨source, read, found, decoded⟩, Except.ok.inj last⟩
  · intro h
    obtain ⟨text, ⟨source, read, _, decoded⟩, rfl⟩ := h
    exact ⟨source, read, text, decoded, rfl⟩

theorem preparedIff {bytes : ByteArray} : prepared conditions disk input output = .ok bytes ↔
    ∃ m, Builds conditions disk input m ∧ Renders m output bytes := by
  simp only [prepared, bindOkIff, symbolsLoaded orderly, contentsPath, Builds]
  constructor
  · intro h
    obtain ⟨_, ⟨text, loaded, rfl⟩, m, made, rendered⟩ := h
    exact ⟨m, ⟨text, loaded, made⟩, rendered⟩
  · intro h
    obtain ⟨m, ⟨text, loaded, made⟩, rendered⟩ := h
    exact ⟨_, ⟨text, loaded, rfl⟩, m, made, rendered⟩

theorem preparedError {failure : Failure} (stopped : prepared conditions disk input output = .error failure) :
    FirstFailure conditions disk input output failure := by
  rcases bindErrorIff.mp stopped with unloaded | ⟨symbols, loaded, stopped⟩
  · rcases (symbolsError conditions disk).mp unloaded with ⟨fault, unread, rfl⟩ | ⟨source, read, binary, rfl⟩
    · exact .unread unread
    · exact .notText read binary
  · obtain ⟨text, found, rfl⟩ := (symbolsLoaded orderly conditions disk input).mp loaded
    rcases (contentsError _ output).mp stopped with ⟨defect, defective, rfl⟩ |
      ⟨m, made, fault, ⟨packed, full⟩, rfl⟩
    · exact .layout found defective
    · exact .packing ⟨text, found, made⟩ packed full

theorem convertStages :
    (outcome (convertFile input output (.ofPath output) : ExceptT Failure (OnDisk γ) Unit)
      conditions disk).1 = (prepared conditions disk input output >>= fun bytes =>
        (outcome (Storage.replace output bytes : ExceptT Fault (OnDisk γ) Unit) conditions
          disk).1.mapError (.unwritable output)) := by
  rw [convertOutcome orderly]
  cases prepared conditions disk input output <;> rfl

theorem convertDone :
    (outcome (convertFile input output (.ofPath output) : ExceptT Failure (OnDisk γ) Unit)
      conditions disk).1 = .ok () ↔ Succeeds conditions disk input output := by
  simp only [convertStages orderly, bindOkIff, mapErrorOk, preparedIff orderly, writesIff, Succeeds]
  constructor
  · intro h
    obtain ⟨bytes, ⟨m, built, rendered⟩, ended⟩ := h
    exact ⟨m, bytes, built, rendered, ended⟩
  · intro h
    obtain ⟨m, bytes, built, rendered, ended⟩ := h
    exact ⟨bytes, ⟨m, built, rendered⟩, ended⟩

theorem convertFailed {failure : Failure} :
    (outcome (convertFile input output (.ofPath output) : ExceptT Failure (OnDisk γ) Unit)
      conditions disk).1 = .error failure ↔ FirstFailure conditions disk input output failure := by
  rw [convertStages orderly, bindErrorIff]
  constructor
  · intro h
    rcases h with stopped | ⟨bytes, before, stopped⟩
    · exact preparedError orderly conditions disk input output stopped
    · obtain ⟨fault, failed, rfl⟩ := mapErrorError.mp stopped
      obtain ⟨m, built, rendered⟩ := (preparedIff orderly conditions disk input output).mp before
      exact .unwritten built rendered (writesIff.mp failed)
  · intro first
    have loads {text : String} (loaded : Loads conditions disk input text) :
        symbolsIn conditions disk input = .ok (Header.symbols text) :=
      (symbolsLoaded orderly conditions disk input).mpr ⟨text, loaded, rfl⟩
    cases first with
    | unread stopped =>
      have unloaded := (symbolsError conditions disk).mpr (.inl ⟨_, stopped, rfl⟩)
      exact .inl (bindErrorIff.mpr (.inl unloaded))
    | notText read stopped =>
      have unloaded := (symbolsError conditions disk).mpr (.inr ⟨_, read, stopped, rfl⟩)
      exact .inl (bindErrorIff.mpr (.inl unloaded))
    | layout loaded stopped =>
      have defective := (contentsError _ output).mpr (.inl ⟨_, stopped, rfl⟩)
      exact .inl (bindErrorIff.mpr (.inr ⟨_, loads loaded, defective⟩))
    | packing built packed stopped =>
      obtain ⟨text, loaded, made⟩ := built
      have full := (contentsError _ output).mpr (.inr ⟨_, made, _, ⟨packed, stopped⟩, rfl⟩)
      exact .inl (bindErrorIff.mpr (.inr ⟨_, loads loaded, full⟩))
    | unwritten built rendered stopped =>
      have before := (preparedIff orderly conditions disk input output).mpr ⟨_, built, rendered⟩
      exact .inr ⟨_, before, mapErrorError.mpr ⟨_, writesIff.mpr stopped, rfl⟩⟩

theorem convertDisk :
    Leads (convertFile input output (.ofPath output) : ExceptT Failure (OnDisk γ) Unit) conditions disk
      (fun _ after => ∃ m bytes rights, Builds conditions disk input m ∧ Renders m output bytes ∧
        Replaced disk output ⟨bytes, rights⟩ after)
      (fun after => after = disk) := by
  unfold Leads
  rw [convertOutcome orderly]
  cases before : prepared conditions disk input output with
  | error failure => rfl
  | ok bytes =>
    obtain ⟨m, built, rendered⟩ := (preparedIff orderly conditions disk input output).mp before
    have leads := leadsReplace orderly conditions disk output bytes
    dsimp only
    rw [outcomeAdapt]
    rcases run : outcome (Storage.replace output bytes : ExceptT Fault (OnDisk γ) Unit) conditions disk
      with ⟨_ | _, after⟩
    · exact leadsError leads run
    · obtain ⟨rights, replaced, _⟩ := leadsOk leads run
      exact ⟨m, bytes, rights, built, rendered, replaced⟩

end

end Conversion

namespace Command
open Conversion

section
variable {γ τ : Type} [Storage (OnDisk γ) τ] (conditions : γ) (disk : Disk)

structure Converts (program input output : String) (result : Outcome × Disk) : Prop where
  succeeds : result.1.status = 0 ↔ Succeeds conditions disk input output
  fails : result.1.status = 2 ↔ ¬ Succeeds conditions disk input output
  silent : result.1.status = 0 → result.1.errors = "" ∧
    ∃ m bytes rights, Builds conditions disk input m ∧ Renders m output bytes ∧
      Replaced disk output ⟨bytes, rights⟩ result.2
  caused : result.1.status = 2 → ∃ failure, FirstFailure conditions disk input output failure
  reported : ∀ failure, FirstFailure conditions disk input output failure →
    result = (⟨2, program ++ ": error: " ++ failure.message ++ "\n"⟩, disk)
  oversized : ∀ m, Builds conditions disk input m →
    ((∃ fault, FirstFailure conditions disk input output (.packing fault)) ↔
      Format.ofPath output = .mnfb ∧
        ((∃ entry, .string entry ∈ m.descriptors ∧ 254 < entry.text.utf8ByteSize) ∨
          65535 < Blob.totalSize m.descriptors.toList))

theorem Converts.noUsage {program input output : String} {result : Outcome × Disk}
    (converts : Converts conditions disk program input output result) : result.1.status ≠ 1 := by
  intro usage
  by_cases succeeds : Succeeds conditions disk input output
  · have zero := converts.succeeds.mpr succeeds
    rw [usage] at zero
    contradiction
  · have two := converts.fails.mpr succeeds
    rw [usage] at two
    contradiction

structure Contract (args : List String) (result : Outcome × Disk) : Prop where
  usage : result.1.status = 1 ↔ args.length ≠ 3
  help : args.length ≠ 3 →
    result = (⟨1, "usage: " ++ args.headD "dt2mnfs" ++ " <input> <output>\n"⟩, disk)
  converts : ∀ program input output, args = [program, input, output] →
    Converts conditions disk program input output result

theorem executeDone {program input output : String} {after : Disk}
    (run : outcome (convertFile input output (.ofPath output) : ExceptT Failure (OnDisk γ) Unit)
      conditions disk = (.ok (), after)) :
    (execute [program, input, output] : OnDisk γ Outcome) conditions disk = (⟨0, ""⟩, after) := by
  rw [execute, outcomeRun, run]
  rfl

theorem executeFailed {program input output : String} {failure : Failure} {after : Disk}
    (run : outcome (convertFile input output (.ofPath output) : ExceptT Failure (OnDisk γ) Unit)
      conditions disk = (.error failure, after)) :
    (execute [program, input, output] : OnDisk γ Outcome) conditions disk =
      (⟨2, program ++ ": error: " ++ failure.message ++ "\n"⟩, after) := by
  rw [execute, outcomeRun, run]
  rfl

theorem executeUsage {args : List String} (others : args.length ≠ 3) :
    (execute args : OnDisk γ Outcome) conditions disk =
      (⟨1, "usage: " ++ args.headD "dt2mnfs" ++ " <input> <output>\n"⟩, disk) := by
  unfold execute
  split
  · contradiction
  · rfl

end

section
variable {γ τ : Type} [Storage (OnDisk γ) τ] {place : τ → Place} (orderly : Orderly γ τ place)
  (conditions : γ) (disk : Disk)
include orderly

theorem executeConverts (program input output : String) :
    Converts conditions disk program input output
      ((execute [program, input, output] : OnDisk γ Outcome) conditions disk) := by
  have done := convertDone orderly conditions disk input output
  have failed {failure : Failure} := @convertFailed γ τ _ place orderly conditions disk input output failure
  have leads := convertDisk orderly conditions disk input output
  rcases run : outcome (convertFile input output (.ofPath output) : ExceptT Failure (OnDisk γ) Unit)
    conditions disk with ⟨result, after⟩
  rw [run] at done failed
  cases result with
  | ok value =>
    rw [executeDone conditions disk run]
    have succeeds := done.mp rfl
    have never {failure : Failure} (first : FirstFailure conditions disk input output failure) : False :=
      nomatch failed.mpr first
    exact
      { succeeds := iff_of_true rfl succeeds
        fails := iff_of_false nofun (not_not_intro succeeds)
        silent := fun _ => ⟨rfl, leadsOk leads run⟩
        caused := nofun
        reported := fun _ first => (never first).elim
        oversized := fun _ => packingFails conditions disk }
  | error failure =>
    rw [executeFailed conditions disk run]
    have fails : ¬ Succeeds conditions disk input output := fun succeeds => nomatch done.mpr succeeds
    obtain rfl : after = disk := leadsError leads run
    exact
      { succeeds := iff_of_false nofun fails
        fails := iff_of_true rfl fails
        silent := nofun
        caused := fun _ => ⟨failure, failed.mp rfl⟩
        reported := by
          intro first found
          obtain rfl := Except.error.inj (failed.mpr found)
          rfl
        oversized := fun _ => packingFails conditions _ }

end

end Command
end Greybus
