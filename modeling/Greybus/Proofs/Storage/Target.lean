import Greybus.Storage.Disk

/-! What a file more or less means to the paths on a disk. A path goes through
directories only, so a new file or one with other contents changes no way, and the
place that a rename fills is the one that the path of the target leads to. -/
namespace Greybus.Storage
namespace Disk

variable {disk other : Disk} {place : Place}

def Beside (place : Place) (before after : Disk) : Prop := after.remove place = before.remove place

structure Similar (disk other : Disk) : Prop where
  here : disk.here = other.here
  directories : ∀ place, disk.entry? place = some .directory ↔ other.entry? place = some .directory

theorem Similar.symm (similar : Similar disk other) : Similar other disk :=
  ⟨similar.here.symm, fun place => (similar.directories place).symm⟩

theorem entryTree (named : place ≠ []) : disk.entry? place = disk.tree[place]? := by
  cases place with
  | nil => contradiction
  | cons name rest => rfl

theorem entryPut (named : place ≠ []) (file : File) (here : Place) :
    entry? (disk.putFile place file) here =
      if place = here then some (.file file) else disk.entry? here := by
  cases here with
  | nil =>
    rw [if_neg named]
    rfl
  | cons name rest =>
    have filled : name :: rest ≠ [] := List.cons_ne_nil name rest
    rw [entryTree filled, entryTree filled]
    simp [putFile, Std.ExtTreeMap.getElem?_insert]

theorem freshNamed (fresh : disk.entry? place = none) : place ≠ [] := by
  rintro rfl
  contradiction

theorem entryFresh (fresh : disk.entry? place = none) (file : File) :
    entry? (disk.putFile place file) place = some (.file file) := by
  rw [entryPut (freshNamed fresh), if_pos rfl]

theorem removePut (file : File) : (disk.putFile place file).remove place = disk.remove place := by
  have same : (disk.tree.insert place (.file file)).erase place = disk.tree.erase place := by
    apply Std.ExtTreeMap.ext_getElem?
    intro key
    simp only [Std.ExtTreeMap.getElem?_erase, Std.ExtTreeMap.getElem?_insert, Std.compare_eq_iff_eq]
    split <;> rfl
  simp only [remove, putFile, same]

theorem removeFresh (fresh : disk.entry? place = none) : disk.remove place = disk := by
  have same : disk.tree.erase place = disk.tree := by
    apply Std.ExtTreeMap.ext_getElem?
    intro key
    rw [entryTree (freshNamed fresh)] at fresh
    simp only [Std.ExtTreeMap.getElem?_erase, Std.compare_eq_iff_eq]
    split
    · rename_i here
      rw [← here, fresh]
    · rfl
  simp only [remove, same]

theorem putAgain (first second : File) :
    (disk.putFile place first).putFile place second = disk.putFile place second := by
  have same : (disk.tree.insert place (.file first)).insert place (.file second) =
      disk.tree.insert place (.file second) := by
    apply Std.ExtTreeMap.ext_getElem?
    intro key
    simp only [Std.ExtTreeMap.getElem?_insert, Std.compare_eq_iff_eq]
    split <;> rfl
  simp only [putFile, same]

theorem removeNew {after : Disk} {file : File} (fresh : disk.entry? place = none)
    (beside : Beside place (disk.putFile place file) after) : after.remove place = disk := by
  rw [beside, removePut, removeFresh fresh]

theorem similarPut (named : place ≠ []) (solid : disk.entry? place ≠ some .directory) (file : File) :
    Similar (disk.putFile place file) disk := by
  refine ⟨rfl, fun here => ?_⟩
  rw [entryPut named]
  split
  · rename_i same
    subst same
    simp [solid]
  · rfl

theorem followSimilar (similar : Similar disk other) {pieces : List String} {reached : Place}
    (led : disk.follow place pieces = .ok reached) : other.follow place pieces = .ok reached := by
  induction pieces generalizing place with
  | nil => exact led
  | cons piece rest ih =>
    rw [follow] at led ⊢
    split at led
    · contradiction
    · contradiction
    · rename_i directory
      rw [(similar.directories place).mp directory]
      -- The way goes on from the same place on both disks.
      dsimp only
      split at led
      · rename_i idle
        rw [if_pos idle]
        exact ih led
      · rename_i moving
        rw [if_neg moving]
        split at led
        · rename_i up
          rw [if_pos up]
          exact ih led
        · rename_i down
          rw [if_neg down]
          exact ih led

theorem followAppend (first second : List String) :
    disk.follow place (first ++ second) =
      (disk.follow place first).bind fun middle => disk.follow middle second := by
  induction first generalizing place with
  | nil => rfl
  | cons piece rest ih =>
    rw [List.cons_append, follow, follow]
    split
    · rfl
    · rfl
    · split
      · exact ih
      · split <;> exact ih

theorem followName {directory : Place} {name : String} (found : disk.entry? directory = some .directory)
    (solid : name ≠ "" ∧ name ≠ "." ∧ name ≠ "..") :
    disk.follow directory [name] = .ok (directory ++ [name]) := by
  simp [follow, found, solid]

theorem followEmpty {reached : Place} (led : disk.follow place [""] = .ok reached) :
    disk.entry? place = some .directory ∧ reached = place := by
  rw [follow] at led
  split at led
  · contradiction
  · contradiction
  · rename_i found
    exact ⟨found, (Except.ok.inj led).symm⟩

theorem lastPiece {pieces : List String} {name : String}
    (last : (pieces.reverse.dropWhile fun piece => piece = "").reverse.getLast? = some name) :
    name ≠ "" := by
  have first := List.head?_dropWhile_not (fun piece => decide (piece = "")) pieces.reverse
  rw [List.getLast?_reverse] at last
  simpa [last] using first

theorem targetParts {path : String} {found : Place} (targeted : disk.target path = .ok found) :
    ∃ names directory name, path ≠ "" ∧ Path.pieces path = names ++ [name] ∧
      disk.follow (disk.start path) (names ++ [""]) = .ok directory ∧
      (name ≠ "" ∧ name ≠ "." ∧ name ≠ "..") ∧
      disk.entry? (directory ++ [name]) ≠ some .directory ∧ found = directory ++ [name] := by
  unfold target at targeted
  extract_lets pieces named at targeted
  split at targeted
  · contradiction
  rename_i filled
  split at targeted
  · contradiction
  rename_i name last
  simp only [bind, Except.bind] at targeted
  split at targeted
  · contradiction
  rename_i directory led
  split at targeted
  · contradiction
  rename_i solid
  split at targeted
  · contradiction
  rename_i whole
  obtain ⟨names, parts⟩ := List.getLast?_eq_some_iff.mp last
  simp only [parts, List.dropLast_concat] at led
  refine ⟨names, directory, name, filled, (Decidable.not_not.mp whole).trans parts, led,
    ⟨lastPiece last, by simpa using solid⟩, ?_⟩
  split at targeted
  · contradiction
  · rename_i free
    cases targeted
    exact ⟨free, rfl⟩

theorem targetPlace {path : String} {found : Place} (targeted : disk.target path = .ok found) :
    disk.place path = .ok found ∧ found ≠ [] ∧ disk.entry? found ≠ some .directory := by
  obtain ⟨names, directory, name, filled, parts, led, solid, free, rfl⟩ := targetParts targeted
  refine ⟨?_, by simp, free⟩
  rw [followAppend] at led
  cases first : disk.follow (disk.start path) names with
  | error fault => simp [first, Except.bind] at led
  | ok middle =>
    rw [first] at led
    obtain ⟨present, rfl⟩ := followEmpty led
    rw [place, if_neg filled, parts, followAppend, first]
    exact followName present solid

theorem startSimilar (similar : Similar disk other) (path : String) : disk.start path = other.start path := by
  simp only [start, similar.here]

theorem placeSimilar (similar : Similar disk other) {path : String} {found : Place}
    (led : disk.place path = .ok found) : other.place path = .ok found := by
  unfold place at led ⊢
  rw [← startSimilar similar]
  split at led
  · contradiction
  · rename_i filled
    rw [if_neg filled]
    exact followSimilar similar led

theorem readPut {path : String} {found : Place} (led : disk.place path = .ok found) (named : found ≠ [])
    (solid : disk.entry? found ≠ some .directory) (file : File) :
    (disk.putFile found file).read path = .ok file.bytes := by
  have similar := similarPut named solid file
  have led' := placeSimilar (similar.symm) led
  rw [read, led']
  simp [bind, Except.bind, entryPut named]

structure Replaced (before : Disk) (path : String) (file : File) (after : Disk) : Prop where
  place : ∃ place, before.place path = .ok place ∧ after = before.putFile place file
  read : after.read path = .ok file.bytes

section
variable {temporary : Place} (fresh : disk.entry? temporary = none) {path : String}
include fresh

theorem installReplaced {file : File} {after : Disk}
    (installed : (disk.putFile temporary file).install temporary path = .ok after) :
    Replaced disk path file after := by
  have named := freshNamed fresh
  have solid : disk.entry? temporary ≠ some .directory := by simp [fresh]
  have similar := similarPut named solid file
  simp only [install, bind, Except.bind] at installed
  split at installed
  · contradiction
  rename_i found targeted
  rw [entryFresh fresh] at installed
  cases installed
  obtain ⟨led, filled, free⟩ := targetPlace targeted
  have led' := placeSimilar similar led
  have free' := free ∘ (similar.directories found).mpr
  rw [removePut, removeFresh fresh]
  exact ⟨⟨found, led', rfl⟩, readPut led' filled free' file⟩

theorem rightsPut {existing : Rights} (known : disk.rights path = .ok existing) (file : File) :
    (disk.putFile temporary file).rights path = .ok existing := by
  have named := freshNamed fresh
  have solid : disk.entry? temporary ≠ some .directory := by simp [fresh]
  have similar := (similarPut named solid file).symm
  simp only [rights, bind, Except.bind] at known ⊢
  split at known
  · contradiction
  rename_i found led
  rw [placeSimilar similar led]
  dsimp only
  rw [entryPut named, if_neg]
  · exact known
  · rintro rfl
    rw [fresh] at known
    contradiction

end

end Disk
end Greybus.Storage
