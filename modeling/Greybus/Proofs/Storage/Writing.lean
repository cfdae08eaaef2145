import Greybus.Proofs.Storage.Replacement

/-! How a replacement ends, told from its steps alone: it succeeds if every step on the
files does, each on the disk that the one before it left, and otherwise it ends with the
fault of the first that fails. Only the question for the rights of the target may fail
without harm. -/
namespace Greybus.Storage

variable {γ τ : Type}

inductive Runs (conditions : γ) :
    List (ExceptT Fault (OnDisk γ) Unit) → Disk → Except Fault Unit → Prop where
  | done (disk : Disk) : Runs conditions [] disk (.ok ())
  | next {step rest disk middle result} (first : outcome step conditions disk = (.ok (), middle))
      (others : Runs conditions rest middle result) : Runs conditions (step :: rest) disk result
  | stopped {step rest disk after fault}
      (first : outcome step conditions disk = (.error fault, after)) :
      Runs conditions (step :: rest) disk (.error fault)

theorem runsUnique {conditions : γ} {steps : List (ExceptT Fault (OnDisk γ) Unit)} {disk : Disk}
    {result other : Except Fault Unit} (one : Runs conditions steps disk result)
    (two : Runs conditions steps disk other) : result = other := by
  induction one with
  | done =>
    cases two
    rfl
  | next first _ ih =>
    cases two with
    | next again others =>
      obtain ⟨_, rfl⟩ := Prod.mk.inj (first.symm.trans again)
      exact ih others
    | stopped again => nomatch first.symm.trans again
  | stopped first =>
    cases two with
    | next again _ => nomatch first.symm.trans again
    | stopped again =>
      cases first.symm.trans again
      rfl

theorem runsLast (conditions : γ) (step : ExceptT Fault (OnDisk γ) Unit) (disk : Disk) :
    Runs conditions [step] disk (outcome step conditions disk).1 := by
  rcases first : outcome step conditions disk with ⟨_ | _, after⟩
  · exact .stopped first
  · exact .next first (.done after)

theorem runsBind {conditions : γ} {rest : List (ExceptT Fault (OnDisk γ) Unit)}
    {others : ExceptT Fault (OnDisk γ) Unit}
    (run : ∀ middle, Runs conditions rest middle (outcome others conditions middle).1)
    (step : ExceptT Fault (OnDisk γ) Unit) (disk : Disk) :
    Runs conditions (step :: rest) disk (outcome (step >>= fun _ => others) conditions disk).1 := by
  rw [outcomeBind]
  rcases first : outcome step conditions disk with ⟨_ | _, middle⟩
  · exact .stopped first
  · exact .next first (run middle)

section
variable [Storage (OnDisk γ) τ] (conditions : γ) (path : String) (bytes : ByteArray)

def completion (temporary : τ) : List (ExceptT Fault (OnDisk γ) Unit) :=
  [Storage.write temporary bytes, Storage.sync temporary, Storage.install temporary path]

inductive Writes (disk : Disk) : Except Fault Unit → Prop where
  | uncreated {fault after}
      (create : outcome (Storage.createTemporary (Path.directory path) : ExceptT Fault (OnDisk γ) τ)
        conditions disk = (.error fault, after)) : Writes disk (.error fault)
  | ownRights {temporary : τ} {created fault asked result}
      (create : outcome (Storage.createTemporary (Path.directory path)) conditions disk =
        (.ok temporary, created))
      (ask : outcome (Storage.rights path : ExceptT Fault (OnDisk γ) Rights) conditions created =
        (.error fault, asked))
      (run : Runs conditions (completion path bytes temporary) asked result) : Writes disk result
  | keptRights {temporary : τ} {created rights asked result}
      (create : outcome (Storage.createTemporary (Path.directory path)) conditions disk =
        (.ok temporary, created))
      (ask : outcome (Storage.rights path) conditions created = (.ok rights, asked))
      (run : Runs conditions (Storage.setRights temporary rights :: completion path bytes temporary)
        asked result) : Writes disk result

variable {conditions path bytes} {disk : Disk}

theorem writesUnique {result other : Except Fault Unit} (one : Writes conditions path bytes disk result)
    (two : Writes conditions path bytes disk other) : result = other := by
  cases one with
  | uncreated create =>
    cases two with
    | uncreated again =>
      cases create.symm.trans again
      rfl
    | ownRights again => nomatch create.symm.trans again
    | keptRights again => nomatch create.symm.trans again
  | ownRights create ask run =>
    cases two with
    | uncreated again => nomatch create.symm.trans again
    | ownRights again asked others =>
      cases create.symm.trans again
      cases ask.symm.trans asked
      exact runsUnique run others
    | keptRights again asked _ =>
      cases create.symm.trans again
      nomatch ask.symm.trans asked
  | keptRights create ask run =>
    cases two with
    | uncreated again => nomatch create.symm.trans again
    | ownRights again asked _ =>
      cases create.symm.trans again
      nomatch ask.symm.trans asked
    | keptRights again asked others =>
      cases create.symm.trans again
      cases ask.symm.trans asked
      exact runsUnique run others

theorem replaceCreated {temporary : τ} {created : Disk}
    (create : outcome (Storage.createTemporary (Path.directory path) : ExceptT Fault (OnDisk γ) τ)
      conditions disk = (.ok temporary, created)) :
    (outcome (replace path bytes : ExceptT Fault (OnDisk γ) Unit) conditions disk).1 =
      (outcome (fill temporary path bytes : ExceptT Fault (OnDisk γ) Unit) conditions created).1 := by
  rw [replace, outcomeBind, create]
  dsimp only
  rw [outcomeCatch]
  rcases outcome (fill temporary path bytes : ExceptT Fault (OnDisk γ) Unit) conditions created
    with ⟨_ | _, filled⟩ <;> rfl

theorem replaceWrites :
    Writes conditions path bytes disk
      (outcome (replace path bytes : ExceptT Fault (OnDisk γ) Unit) conditions disk).1 := by
  have completed (temporary : τ) (asked : Disk) := runsBind (runsBind (runsLast conditions
    (Storage.install temporary path)) (Storage.sync temporary)) (Storage.write temporary bytes) asked
  rcases create : outcome (Storage.createTemporary (Path.directory path) : ExceptT Fault (OnDisk γ) τ)
    conditions disk with ⟨fault | temporary, created⟩
  · rw [replace, outcomeBind, create]
    exact .uncreated create
  · rw [replaceCreated create, fill, outcomeBind, outcomeKeep]
    rcases ask : outcome (Storage.rights path : ExceptT Fault (OnDisk γ) Rights) conditions created
      with ⟨fault | rights, asked⟩
    · exact .ownRights create ask (completed temporary asked)
    · have run := runsBind (completed temporary) (Storage.setRights temporary rights) asked
      rw [outcomeBind] at run
      exact .keptRights create ask run

theorem writesIff {result : Except Fault Unit} :
    (outcome (replace path bytes : ExceptT Fault (OnDisk γ) Unit) conditions disk).1 = result ↔
      Writes conditions path bytes disk result := by
  constructor
  · rintro rfl
    exact replaceWrites
  · exact fun writes => writesUnique replaceWrites writes

end

end Greybus.Storage
