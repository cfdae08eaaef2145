import Greybus.Proofs.Storage.Target
import Greybus.Proofs.Result
import Greybus.Storage.Session

/-! The replacement of a file on a disk, whichever steps fail. A step that fails may
leave anything in the temporary file and touches nothing else, so a replacement that
fails leaves the disk as it was, and one that succeeds changes the target alone. -/
namespace Greybus.Storage
open Disk (Beside Replaced)

abbrev OnDisk (γ : Type) := ReaderT γ (StateM Disk)

variable {γ τ ε ζ α β : Type}

def outcome (action : ExceptT ε (OnDisk γ) α) (conditions : γ) (disk : Disk) : Except ε α × Disk :=
  action.run conditions disk

/-- An action ends with a value and a disk as `done` says, or it fails and leaves a
disk as `failed` says. -/
@[irreducible] def Leads (action : ExceptT ε (OnDisk γ) α) (conditions : γ) (disk : Disk)
    (done : α → Disk → Prop) (failed : Disk → Prop) : Prop :=
  match outcome action conditions disk with
  | (.ok value, after) => done value after
  | (.error _, after) => failed after

section
variable {conditions : γ} {disk : Disk} {done : α → Disk → Prop} {failed : Disk → Prop}

theorem leadsOk {action : ExceptT ε (OnDisk γ) α} (leads : Leads action conditions disk done failed)
    {value : α} {after : Disk} (run : outcome action conditions disk = (.ok value, after)) :
    done value after := by
  unfold Leads at leads
  rw [run] at leads
  exact leads

theorem leadsError {action : ExceptT ε (OnDisk γ) α} (leads : Leads action conditions disk done failed)
    {fault : ε} {after : Disk} (run : outcome action conditions disk = (.error fault, after)) :
    failed after := by
  unfold Leads at leads
  rw [run] at leads
  exact leads

theorem leadsMono {action : ExceptT ε (OnDisk γ) α} {done' : α → Disk → Prop} {failed' : Disk → Prop}
    (leads : Leads action conditions disk done' failed')
    (good : ∀ value after, done' value after → done value after)
    (bad : ∀ after, failed' after → failed after) : Leads action conditions disk done failed := by
  unfold Leads at leads ⊢
  split at leads
  · exact good _ _ leads
  · exact bad _ leads

theorem outcomeBind (action : ExceptT ε (OnDisk γ) β) (next : β → ExceptT ε (OnDisk γ) α)
    (conditions : γ) (disk : Disk) :
    outcome (action >>= next) conditions disk = match outcome action conditions disk with
      | (.ok value, middle) => outcome (next value) conditions middle
      | (.error fault, middle) => (.error fault, middle) := by
  have run : outcome (action >>= next) conditions disk =
      ExceptT.bindCont next (outcome action conditions disk).1 conditions
        (outcome action conditions disk).2 := rfl
  rw [run]
  rcases outcome action conditions disk with ⟨result, middle⟩
  cases result <;> rfl

theorem outcomeAdapt (action : ExceptT ζ (OnDisk γ) α) (change : ζ → ε) (conditions : γ) (disk : Disk) :
    outcome (action.adapt change) conditions disk =
      ((outcome action conditions disk).1.mapError change, (outcome action conditions disk).2) := rfl

theorem outcomeLift (result : Except ε α) (conditions : γ) (disk : Disk) :
    outcome (liftExcept result : ExceptT ε (OnDisk γ) α) conditions disk = (result, disk) := by
  cases result <;> rfl

theorem outcomeRun (action : ExceptT ε (OnDisk γ) α) (next : Except ε α → OnDisk γ β)
    (conditions : γ) (disk : Disk) : (action.run >>= next) conditions disk =
      next (outcome action conditions disk).1 conditions (outcome action conditions disk).2 := rfl

theorem outcomeAttempt (action : ExceptT ζ (OnDisk γ) β)
    (next : Except ζ β → ExceptT ε (OnDisk γ) α) (conditions : γ) (disk : Disk) :
    outcome (ExceptT.lift action.run >>= next) conditions disk =
      outcome (next (outcome action conditions disk).1) conditions
        (outcome action conditions disk).2 := rfl

theorem leadsBind {action : ExceptT ε (OnDisk γ) β} {next : β → ExceptT ε (OnDisk γ) α}
    (leads : Leads action conditions disk
      (fun value middle => Leads (next value) conditions middle done failed) failed) :
    Leads (action >>= next) conditions disk done failed := by
  unfold Leads at leads ⊢
  rw [outcomeBind]
  rcases first : outcome action conditions disk with ⟨result, middle⟩
  rw [first] at leads
  cases result with
  | ok value => exact leads
  | error fault => exact leads

theorem outcomeCatch (action : ExceptT ε (OnDisk γ) α) (rescue : ε → ExceptT ε (OnDisk γ) α)
    (conditions : γ) (disk : Disk) :
    outcome (tryCatch action rescue) conditions disk = match outcome action conditions disk with
      | (.ok value, after) => (.ok value, after)
      | (.error fault, middle) => outcome (rescue fault) conditions middle := by
  have run : outcome (tryCatch action rescue) conditions disk =
      (match (outcome action conditions disk).1 with
        | .ok value => pure (.ok value)
        | .error fault => rescue fault : OnDisk γ (Except ε α)) conditions
        (outcome action conditions disk).2 := rfl
  rw [run]
  rcases outcome action conditions disk with ⟨result, middle⟩
  cases result <;> rfl

theorem leadsCatch {action : ExceptT ε (OnDisk γ) α} {rescue : ε → ExceptT ε (OnDisk γ) α}
    (leads : Leads action conditions disk done
      fun middle => ∀ fault, Leads (rescue fault) conditions middle done failed) :
    Leads (tryCatch action rescue) conditions disk done failed := by
  unfold Leads at leads ⊢
  rw [outcomeCatch]
  rcases first : outcome action conditions disk with ⟨result, middle⟩
  rw [first] at leads
  cases result with
  | ok value => exact leads
  | error fault => exact leads fault

theorem leadsAdapt {action : ExceptT ζ (OnDisk γ) α} {change : ζ → ε}
    (leads : Leads action conditions disk done failed) :
    Leads (action.adapt change) conditions disk done failed := by
  unfold Leads at leads ⊢
  rw [outcomeAdapt]
  rcases first : outcome action conditions disk with ⟨result, middle⟩
  rw [first] at leads
  cases result with
  | ok value => exact leads
  | error fault => exact leads

theorem leadsLift {result : Except ε α} (good : ∀ value, result = .ok value → done value disk)
    (bad : failed disk) : Leads (liftExcept result : ExceptT ε (OnDisk γ) α) conditions disk done failed := by
  unfold Leads
  rw [outcomeLift]
  cases result with
  | ok value => exact good value rfl
  | error fault => exact bad

theorem leadsAlways {action : OnDisk γ α}
    (good : done (action conditions disk).1 (action conditions disk).2) :
    Leads (ExceptT.lift action : ExceptT ε (OnDisk γ) α) conditions disk done failed := by
  unfold Leads
  exact good

theorem leadsPure {value : α} (good : done value disk) :
    Leads (pure value : ExceptT ε (OnDisk γ) α) conditions disk done failed := by
  unfold Leads
  exact good

theorem leadsThrow {fault : ε} (bad : failed disk) :
    Leads (throw fault : ExceptT ε (OnDisk γ) α) conditions disk done failed := by
  unfold Leads
  exact bad

end

/-- What is known of a storage on a disk, whichever of its steps fail. Only the place
of a temporary file may be left in disorder by a step that fails. -/
structure Orderly (γ τ : Type) [Storage (OnDisk γ) τ] (place : τ → Place) : Prop where
  read (path : String) (conditions : γ) (disk : Disk) :
    Leads (Storage.read path) conditions disk
      (fun bytes after => after = disk ∧ disk.read path = .ok bytes) (fun after => after = disk)
  create (directory : String) (conditions : γ) (disk : Disk) :
    Leads (Storage.createTemporary directory) conditions disk
      (fun temporary after => disk.entry? (place temporary) = none ∧
        ∃ rights, after = disk.putFile (place temporary) ⟨.empty, rights⟩) (fun after => after = disk)
  rights (path : String) (conditions : γ) (disk : Disk) :
    Leads (Storage.rights path) conditions disk
      (fun rights after => after = disk ∧ disk.rights path = .ok rights) (fun after => after = disk)
  setRights (temporary : τ) (rights : Rights) (conditions : γ) (disk : Disk) (file : File)
    (found : disk.entry? (place temporary) = some (.file file)) :
    Leads (Storage.setRights temporary rights) conditions disk
      (fun _ after => after = disk.putFile (place temporary) { file with rights })
      (Beside (place temporary) disk)
  write (temporary : τ) (bytes : ByteArray) (conditions : γ) (disk : Disk) (rights : Rights)
    (new : disk.entry? (place temporary) = some (.file ⟨.empty, rights⟩)) :
    Leads (Storage.write temporary bytes) conditions disk
      (fun _ after => after = disk.putFile (place temporary) ⟨bytes, rights⟩)
      (Beside (place temporary) disk)
  sync (temporary : τ) (conditions : γ) (disk : Disk) :
    Leads (Storage.sync temporary) conditions disk
      (fun _ after => after = disk) (Beside (place temporary) disk)
  install (temporary : τ) (path : String) (conditions : γ) (disk : Disk) :
    Leads (Storage.install temporary path) conditions disk
      (fun _ after => disk.install (place temporary) path = .ok after) (Beside (place temporary) disk)
  discard (temporary : τ) (conditions : γ) (disk : Disk) :
    ((Storage.discard temporary : OnDisk γ Unit) conditions disk).2 = disk.remove (place temporary)

section
variable [Storage (OnDisk γ) τ] (place : τ → Place) (conditions : γ) (disk : Disk) (path : String)

/-- While a temporary file is there, the rights at a path cannot be asked for. -/
def Unasked : Prop :=
  ∃ temporary file fault, disk.entry? (place temporary) = none ∧
    (outcome (Storage.rights path : ExceptT Fault (OnDisk γ) Rights) conditions
      (disk.putFile (place temporary) file)).1 = .error fault

def Kept (rights : Rights) : Prop :=
  ∀ existing, disk.rights path = .ok existing → rights = existing ∨ Unasked place conditions disk path

end

theorem outcomeKeep [Storage (OnDisk γ) τ] (temporary : τ) (path : String) (conditions : γ)
    (disk : Disk) :
    outcome (keepRights temporary path : ExceptT Fault (OnDisk γ) Unit) conditions disk =
      match outcome (Storage.rights path : ExceptT Fault (OnDisk γ) Rights) conditions disk with
      | (.ok existing, asked) => outcome (Storage.setRights temporary existing) conditions asked
      | (.error _, asked) => (.ok (), asked) := by
  rw [keepRights, outcomeAttempt]
  rcases outcome (Storage.rights path : ExceptT Fault (OnDisk γ) Rights) conditions disk
    with ⟨result, asked⟩
  cases result <;> rfl

theorem leadsRights [Storage (OnDisk γ) τ] {temporary : τ} {path : String} {conditions : γ} {disk : Disk}
    {done : Unit → Disk → Prop} {failed : Disk → Prop}
    (given : ∀ rights asked, outcome (Storage.rights path : ExceptT Fault (OnDisk γ) Rights) conditions
      disk = (.ok rights, asked) → Leads (Storage.setRights temporary rights) conditions asked done failed)
    (own : ∀ fault asked, outcome (Storage.rights path : ExceptT Fault (OnDisk γ) Rights) conditions
      disk = (.error fault, asked) → done () asked) :
    Leads (keepRights temporary path : ExceptT Fault (OnDisk γ) Unit) conditions disk done failed := by
  rcases ask : outcome (Storage.rights path : ExceptT Fault (OnDisk γ) Rights) conditions disk
    with ⟨result, asked⟩
  cases result with
  | ok rights =>
    have leads := given rights asked ask
    unfold Leads at leads ⊢
    rw [outcomeKeep, ask]
    exact leads
  | error fault =>
    unfold Leads
    rw [outcomeKeep, ask]
    exact own fault asked ask

section
variable [Storage (OnDisk γ) τ] {place : τ → Place} (orderly : Orderly γ τ place)
  (conditions : γ) (disk : Disk) (path : String)
include orderly

theorem leadsKeep {temporary : τ} (fresh : disk.entry? (place temporary) = none) (own : Rights) :
    Leads (keepRights temporary path : ExceptT Fault (OnDisk γ) Unit) conditions
      (disk.putFile (place temporary) ⟨.empty, own⟩)
      (fun _ after => ∃ rights, after = disk.putFile (place temporary) ⟨.empty, rights⟩ ∧
        Kept place conditions disk path rights)
      (fun after => after.remove (place temporary) = disk) := by
  have asking := orderly.rights path conditions (disk.putFile (place temporary) ⟨.empty, own⟩)
  apply leadsRights
  · intro rights asked ask
    obtain ⟨rfl, known⟩ := leadsOk asking ask
    refine leadsMono (orderly.setRights temporary rights conditions _ _ (Disk.entryFresh fresh _)) ?_
      fun _ => Disk.removeNew fresh
    rintro _ _ rfl
    refine ⟨rights, Disk.putAgain _ _, fun existing found => .inl ?_⟩
    exact Except.ok.inj (known.symm.trans (Disk.rightsPut fresh found _))
  · intro fault asked ask
    obtain rfl := leadsError asking ask
    exact ⟨own, rfl, fun _ _ => .inr ⟨temporary, _, fault, fresh, congrArg Prod.fst ask⟩⟩

theorem leadsFill {temporary : τ} (fresh : disk.entry? (place temporary) = none) (own : Rights)
    (bytes : ByteArray) :
    Leads (fill temporary path bytes : ExceptT Fault (OnDisk γ) Unit) conditions
      (disk.putFile (place temporary) ⟨.empty, own⟩)
      (fun _ after => ∃ rights, Replaced disk path ⟨bytes, rights⟩ after ∧
        Kept place conditions disk path rights)
      (fun after => after.remove (place temporary) = disk) := by
  apply leadsBind
  refine leadsMono (leadsKeep orderly conditions disk path fresh own) ?_ fun _ => id
  rintro _ _ ⟨rights, rfl, kept⟩
  apply leadsBind
  refine leadsMono (orderly.write temporary bytes conditions _ rights (Disk.entryFresh fresh _)) ?_
    fun _ => Disk.removeNew fresh
  rintro _ _ rfl
  rw [Disk.putAgain]
  apply leadsBind
  refine leadsMono (orderly.sync temporary conditions _) ?_ fun _ => Disk.removeNew fresh
  rintro _ _ rfl
  refine leadsMono (orderly.install temporary path conditions _) ?_ fun _ => Disk.removeNew fresh
  intro _ after installed
  exact ⟨rights, Disk.installReplaced fresh installed, kept⟩

theorem leadsReplace (bytes : ByteArray) :
    Leads (replace path bytes : ExceptT Fault (OnDisk γ) Unit) conditions disk
      (fun _ after => ∃ rights, Replaced disk path ⟨bytes, rights⟩ after ∧
        Kept place conditions disk path rights)
      (fun after => after = disk) := by
  apply leadsBind
  refine leadsMono (orderly.create (Path.directory path) conditions disk) ?_ fun _ => id
  rintro temporary _ ⟨fresh, own, rfl⟩
  apply leadsCatch
  refine leadsMono (leadsFill orderly conditions disk path fresh own bytes) (fun _ _ => id) ?_
  intro middle clean fault
  apply leadsBind
  apply leadsAlways
  apply leadsThrow
  exact (orderly.discard temporary conditions middle).trans clean

end

section
variable {conditions : Conditions} {disk : Disk}

theorem leadsPerform {step : Step} {action : Conditions → Disk → Except Fault (α × Disk)}
    {done : α → Disk → Prop} {failed : Disk → Prop}
    (good : ∀ value after, action conditions disk = .ok (value, after) → done value after)
    (bad : failed disk) : Leads (Session.perform step action) conditions disk done failed := by
  have run : outcome (Session.perform step action) conditions disk =
      Session.perform step action conditions disk := rfl
  rw [Leads, run, Session.perform]
  cases conditions.failure step with
  | some fault => exact bad
  | none =>
    cases acted : action conditions disk with
    | error fault => exact bad
    | ok result => exact good _ _ acted

theorem leadsLook (step : Step) (question : Disk → Except Fault α) :
    Leads (Session.look step question) conditions disk
      (fun answer after => after = disk ∧ question disk = .ok answer) (fun after => after = disk) := by
  refine leadsPerform ?_ rfl
  intro answer after acted
  obtain ⟨_, answered, same⟩ := mapOkIff.mp acted
  cases same
  exact ⟨rfl, answered⟩

theorem leadsChange (step : Step) (action : Disk → Except Fault Disk) {place : Place} :
    Leads (Session.change step action) conditions disk
      (fun _ after => action disk = .ok after) (Beside place disk) := by
  refine leadsPerform ?_ rfl
  intro _ after acted
  obtain ⟨_, done, same⟩ := mapOkIff.mp acted
  cases same
  exact done

theorem createdFresh {names : List String} {directory : String} {place : Place} {after : Disk}
    (created : disk.createTemporary names directory = .ok (place, after)) :
    disk.entry? place = none ∧ ∃ rights, after = disk.putFile place ⟨.empty, rights⟩ := by
  simp only [Disk.createTemporary, bind, Except.bind] at created
  split at created
  · contradiction
  split at created
  · contradiction
  · contradiction
  split at created
  · contradiction
  · rename_i name found
    cases created
    exact ⟨by simpa using List.find?_some found, _, rfl⟩

theorem fileChanged {place : Place} {file : File} (found : disk.entry? place = some (.file file))
    {change : File → File} {after : Disk} (changed : disk.changeFile place change = .ok after) :
    after = disk.putFile place (change file) := by
  rw [Disk.changeFile, found] at changed
  exact (Except.ok.inj changed).symm

end

theorem sessionOrderly : Orderly Conditions Place id where
  read path _ _ := leadsLook .read fun disk => disk.read path
  create _ _ _ := leadsPerform (fun _ _ => createdFresh) rfl
  rights path _ _ := leadsLook .rights fun disk => disk.rights path
  setRights _ _ _ _ _ found :=
    leadsMono (leadsChange .setRights _) (fun _ _ => fileChanged found) fun _ => id
  write _ _ _ _ _ new := leadsMono (leadsChange .write _) (fun _ _ => fileChanged new) fun _ => id
  sync _ _ _ :=
    leadsMono (leadsChange .sync .ok) (fun _ _ same => (Except.ok.inj same).symm) fun _ => id
  install _ path _ _ := leadsChange .install fun disk => disk.install _ path
  discard _ _ _ := rfl

end Greybus.Storage
