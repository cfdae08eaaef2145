import Mathlib.Data.List.Induction
import Greybus.Table.Lemmas

/-! What a table holds after any number of inserts. An association list that is written
in place, or at its end, goes through the same contents, so the first insert of a key
determines its place and the last one its value, and the index leads to every entry. -/
namespace Greybus.Table

universe u v
variable {κ : Type u} {α : Type v}

def Lasting (entries : List (κ × α)) (key : κ) (value : α) : Prop :=
  ∃ before after, entries = before ++ (key, value) :: after ∧ ∀ later ∈ after, later.1 ≠ key

variable [DecidableEq κ]

def write (entry : κ × α) : List (κ × α) → List (κ × α)
  | [] => [entry]
  | other :: rest => if other.1 = entry.1 then entry :: rest else other :: write entry rest

theorem writeNew {entry : κ × α} {list : List (κ × α)} (new : entry.1 ∉ list.map Prod.fst) :
    write entry list = list ++ [entry] := by
  induction list with
  | nil => rfl
  | cons other rest ih =>
    rw [List.map_cons, List.mem_cons, not_or] at new
    rw [write, if_neg (Ne.symm new.1), ih new.2, List.cons_append]

theorem writeOld {entry : κ × α} {list : List (κ × α)} (once : (list.map Prod.fst).Nodup) {n : Nat}
    (old : (list.map Prod.fst)[n]? = some entry.1) : write entry list = list.set n entry := by
  induction list generalizing n with
  | nil => simp at old
  | cons other rest ih =>
    rw [List.map_cons, List.nodup_cons] at once
    cases n with
    | zero =>
      have here : other.1 = entry.1 := by simpa using old
      rw [write, if_pos here, List.set_cons_zero]
    | succ n =>
      have later : (rest.map Prod.fst)[n]? = some entry.1 := by simpa using old
      have apart : other.1 ≠ entry.1 := fun same => once.1 (same ▸ List.mem_of_getElem? later)
      rw [write, if_neg apart, ih once.2 later, List.set_cons_succ]

theorem lastingFound {entries : List (κ × α)} {key : κ} {value : α} :
    (entries.reverse.find? fun entry => entry.1 = key).map Prod.snd = some value ↔
      Lasting entries key value := by
  rw [Option.map_eq_some_iff]
  simp only [List.find?_eq_some_iff_append]
  constructor
  · intro h
    obtain ⟨⟨name, _⟩, ⟨named, after, before, cut, none⟩, rfl⟩ := h
    obtain rfl : name = key := by simpa using named
    refine ⟨before.reverse, after.reverse, by simpa using congrArg List.reverse cut, ?_⟩
    intro later member
    simpa using none later (List.mem_reverse.mp member)
  · intro h
    obtain ⟨before, after, rfl, none⟩ := h
    refine ⟨(key, value), ⟨by simp, after.reverse, before.reverse, by simp, ?_⟩, rfl⟩
    intro later member
    simpa using none later (List.mem_reverse.mp member)

section
variable [Ord κ] [Std.TransOrd κ] [Std.LawfulEqOrd κ]

def insertAll (t : Table κ α) (entries : List (κ × α)) : Table κ α :=
  entries.foldl (fun t entry => t.insert entry.1 entry.2) t

omit [DecidableEq κ] in
theorem insertAllNext (t : Table κ α) (before : List (κ × α)) (entry : κ × α) :
    t.insertAll (before ++ [entry]) = (t.insertAll before).insert entry.1 entry.2 :=
  List.foldl_append

omit [DecidableEq κ] in
theorem ofListNext (before : List (κ × α)) (entry : κ × α) :
    ofList (before ++ [entry]) = (ofList before).insert entry.1 entry.2 :=
  insertAllNext ∅ before entry

theorem insertWrite (t : Table κ α) (key : κ) (value : α) :
    (t.insert key value).toList = write (key, value) t.toList := by
  unfold insert alter
  split
  · rename_i n found
    have old : t.keys[n]? = some key := positionIff.mp found
    simpa [toList] using (writeOld t.keysNodup old).symm
  · rename_i absent
    have new : (key, value).1 ∉ t.keys := positionNone.mp absent
    simpa [toList] using (writeNew new).symm

theorem insertAllNew {t : Table κ α} {entries : List (κ × α)} (once : (entries.map Prod.fst).Nodup)
    (new : ∀ entry ∈ entries, entry.1 ∉ t.keys) : (t.insertAll entries).toList = t.toList ++ entries := by
  induction entries generalizing t with
  | nil => simp [insertAll]
  | cons entry rest ih =>
    rw [List.map_cons, List.nodup_cons] at once
    have first : (t.insert entry.1 entry.2).toList = t.toList ++ [entry] := by
      rw [insertWrite]
      exact writeNew (new entry List.mem_cons_self)
    have later : ∀ other ∈ rest, other.1 ∉ (t.insert entry.1 entry.2).keys := by
      intro other member inside
      rcases memKeysAlter.mp inside with same | old
      · exact once.1 (same ▸ List.mem_map_of_mem member)
      · exact new other (List.mem_cons_of_mem _ member) old
    have tail := ih once.2 later
    rw [first, List.append_assoc, List.singleton_append] at tail
    exact tail

theorem ofListOwn (t : Table κ α) : ofList t.toList = t := by
  have once : (t.toList.map Prod.fst).Nodup := t.keysNodup
  exact eqOfToList (insertAllNew (t := ∅) once fun _ _ => List.not_mem_nil)

theorem insertsWritten (entries : List (κ × α)) :
    (ofList entries).toList = entries.foldl (fun list entry => write entry list) [] := by
  induction entries using List.reverseRecOn with
  | nil => rfl
  | append_singleton before entry ih =>
    rw [ofListNext, insertWrite, ih, List.foldl_append, List.foldl_cons, List.foldl_nil]

theorem keysOfList (entries : List (κ × α)) : (ofList entries).keys = (entries.map Prod.fst).eraseDups := by
  induction entries using List.reverseRecOn with
  | nil => rfl
  | append_singleton before entry ih =>
    rw [ofListNext, keysInsert, ih, List.map_append, List.map_singleton, distinctNext]
    simp only [List.mem_eraseDups]

theorem getLasting {entries : List (κ × α)} {key : κ} {value : α} :
    (ofList entries).get? key = some value ↔ Lasting entries key value := by
  rw [ofList, getFold, getEmpty, Option.or_none, lastingFound]

structure Holds (entries : List (κ × α)) (t : Table κ α) : Prop where
  keys : t.keys = (entries.map Prod.fst).eraseDups
  once : t.keys.Nodup
  pairs : ∀ key value, (key, value) ∈ t.toList ↔ Lasting entries key value
  get : ∀ key value, t.get? key = some value ↔ Lasting entries key value
  absent : ∀ key, t.get? key = none ↔ key ∉ entries.map Prod.fst
  contains : ∀ key, t.contains key = (t.get? key).isSome
  size : t.size = (entries.map Prod.fst).eraseDups.length
  isEmpty : t.isEmpty ↔ entries = []
  places : ∀ key n, t.position? key = some n ↔ (entries.map Prod.fst).eraseDups[n]? = some key
  entry : ∀ key n, t.position? key = some n →
    ∃ value, t.entries[n]? = some (key, value) ∧ Lasting entries key value
  narrow : (entries.map Prod.fst).eraseDups.length < UInt32.size →
    ∀ key n, t.position? key = some n → n.toUInt32.toNat = n
  written : t.toList = entries.foldl (fun list entry => write entry list) []

end

theorem insertsHeld (inserted : List (String × String)) (n : Nat) :
    Holds (inserted.take n) (ofList (inserted.take n)) := by
  generalize inserted.take n = entries
  have keys := keysOfList entries
  constructor
  · exact keys
  · exact keysNodup _
  · exact fun key value => getIff.symm.trans getLasting
  · exact fun key value => getLasting
  · intro key
    rw [getNone, keys, List.mem_eraseDups]
  · exact containsGet _
  · rw [sizeKeys, keys]
  · rw [isEmptyKeys, keys]
    cases entries <;> simp [List.eraseDups_cons]
  · intro key place
    rw [positionIff, keys]
  · intro key place found
    obtain ⟨value, here, read⟩ := entryAt found
    exact ⟨value, here, getLasting.mp read⟩
  · intro few key place found
    rw [positionIff, keys] at found
    obtain ⟨inside, _⟩ := List.getElem?_eq_some_iff.mp found
    exact Nat.mod_eq_of_lt (Nat.lt_trans inside few)
  · exact insertsWritten entries

example : (ofList [("b", "1"), ("", "2"), ("b", ""), ("a", "3")]).toList =
    [("b", ""), ("", "2"), ("a", "3")] := by
  decide +kernel

end Greybus.Table
