import Greybus.Table

/-! A table through its list of entries. No key stands twice, a look-up finds
exactly the entries, and a change of one key touches no other. -/
namespace Greybus.Table

universe u v
variable {κ : Type u} {α : Type v} [Ord κ] [Std.TransOrd κ] [Std.LawfulEqOrd κ]

theorem keyAt (t : Table κ α) (n : Nat) : t.keys[n]? = t.entries[n]?.map Prod.fst := by
  simp [keys, toList]

theorem positionIff {t : Table κ α} {key : κ} {n : Nat} :
    t.position? key = some n ↔ t.keys[n]? = some key := by
  rw [keyAt]
  exact t.coherent key n

theorem keysNodup (t : Table κ α) : t.keys.Nodup := by
  rw [List.nodup_iff_pairwise_ne, List.pairwise_iff_getElem]
  intro i j hi hj less same
  have left := positionIff.mpr (List.getElem?_eq_getElem hi)
  have right := positionIff.mpr (List.getElem?_eq_getElem hj)
  rw [same, right] at left
  cases left
  exact Nat.lt_irrefl _ less

theorem positionNone {t : Table κ α} {key : κ} : t.position? key = none ↔ key ∉ t.keys := by
  constructor
  · intro absent member
    obtain ⟨n, at_n⟩ := List.mem_iff_getElem?.mp member
    rw [positionIff.mpr at_n] at absent
    contradiction
  · intro absent
    cases found : t.position? key with
    | none => rfl
    | some n => exact absurd (List.mem_of_getElem? (positionIff.mp found)) absent

theorem containsIff {t : Table κ α} {key : κ} : t.contains key ↔ key ∈ t.keys := by
  have h : t.position? key = none ↔ key ∉ t.keys := positionNone
  cases found : t.position? key <;> simp_all [contains]

theorem getIff {t : Table κ α} {key : κ} {value : α} :
    t.get? key = some value ↔ (key, value) ∈ t.toList := by
  constructor
  · intro found
    obtain ⟨n, position, entry⟩ := Option.bind_eq_some_iff.mp found
    obtain ⟨e, at_n, rfl⟩ := Option.map_eq_some_iff.mp entry
    have name := (t.coherent key n).mp position
    rw [at_n] at name
    cases name
    exact Array.mem_toList_iff.mpr (Array.mem_of_getElem? at_n)
  · intro member
    obtain ⟨n, at_n⟩ := List.mem_iff_getElem?.mp member
    have entry : t.entries[n]? = some (key, value) := by simpa [toList] using at_n
    have position : t.position? key = some n := (t.coherent key n).mpr (by simp [entry])
    simp [get?, position, entry]

theorem getNone {t : Table κ α} {key : κ} : t.get? key = none ↔ key ∉ t.keys := by
  rw [← positionNone]
  cases found : t.position? key with
  | none => simp [get?, found]
  | some n =>
    have bound := t.positionBound found
    simp [get?, found, bound]

theorem entryAt {t : Table κ α} {key : κ} {n : Nat} (found : t.position? key = some n) :
    ∃ value, t.entries[n]? = some (key, value) ∧ t.get? key = some value := by
  have bound := t.positionBound found
  have named : t.entries[n].1 = key := by
    simpa [keyAt, bound] using positionIff.mp found
  refine ⟨t.entries[n].2, ?_, by simp [get?, found, bound]⟩
  rw [Array.getElem?_eq_getElem bound, ← named]

theorem containsGet (t : Table κ α) (key : κ) : t.contains key = (t.get? key).isSome := by
  have absent : t.get? key = none ↔ key ∉ t.keys := getNone
  have present : t.contains key ↔ key ∈ t.keys := containsIff
  cases found : t.get? key <;> simp_all

theorem eqOfToList {s t : Table κ α} (same : s.toList = t.toList) : s = t := by
  have entries : s.entries = t.entries := Array.toList_inj.mp same
  have index : s.index = t.index := by
    apply Std.ExtTreeMap.ext_getElem?
    intro key
    apply Option.ext
    intro n
    rw [s.coherent key n, t.coherent key n, entries]
  cases s
  cases t
  simp_all

theorem keysAlterOld {t : Table κ α} {key : κ} (old : key ∈ t.keys) (change : Option α → α) :
    (t.alter key change).keys = t.keys := by
  apply List.ext_getElem?
  intro m
  rw [keyAt, keyAt]
  unfold alter
  split
  · rename_i n found
    simp only [Array.getElem?_set]
    split
    · rename_i same
      subst same
      simpa using ((t.coherent key n).mp found).symm
    · rfl
  · rename_i absent
    exact absurd old (positionNone.mp absent)

theorem keysAlterNew {t : Table κ α} {key : κ} (new : key ∉ t.keys) (change : Option α → α) :
    (t.alter key change).keys = t.keys ++ [key] := by
  unfold alter
  split
  · rename_i n found
    exact absurd found (by rw [← position?, positionNone.mpr new]; simp)
  · simp [keys, toList]

theorem getAlterSame (t : Table κ α) (key : κ) (change : Option α → α) :
    (t.alter key change).get? key = some (change (t.get? key)) := by
  unfold alter
  split
  · rename_i n found
    have bound := t.positionBound found
    simp [get?, position?, found, bound]
  · rename_i absent
    simp [get?, position?, absent]

theorem getAlterOther {t : Table κ α} {key other : κ} (different : key ≠ other)
    (change : Option α → α) : (t.alter key change).get? other = t.get? other := by
  unfold alter
  split
  · rename_i n found
    cases place : t.index[other]? with
    | none => simp [get?, position?, place]
    | some m =>
      have apart : n ≠ m := by
        intro same
        subst same
        have h := ((t.coherent key n).mp found).symm.trans ((t.coherent other n).mp place)
        exact different (Option.some.inj h)
      simp [get?, position?, place, Array.getElem?_set, apart]
  · rename_i absent
    have h : (t.index.insert key t.entries.size)[other]? = t.index[other]? := by
      simp [Std.ExtTreeMap.getElem?_insert, different]
    simp only [get?, position?, h]
    cases place : t.index[other]? with
    | none => rfl
    | some m =>
      have apart : m ≠ t.entries.size := Nat.ne_of_lt (t.positionBound place)
      simp [Array.getElem?_push, apart]

theorem getAlter [DecidableEq κ] (t : Table κ α) (key : κ) (change : Option α → α) (other : κ) :
    (t.alter key change).get? other =
      if key = other then some (change (t.get? key)) else t.get? other := by
  split
  · rename_i same
    subst same
    exact getAlterSame t key change
  · rename_i different
    exact getAlterOther different change

theorem keysAlter [DecidableEq κ] (t : Table κ α) (key : κ) (change : Option α → α) :
    (t.alter key change).keys = if key ∈ t.keys then t.keys else t.keys ++ [key] := by
  split
  · rename_i old
    exact keysAlterOld old change
  · rename_i new
    exact keysAlterNew new change

theorem memKeysAlter {t : Table κ α} {key other : κ} {change : Option α → α} :
    other ∈ (t.alter key change).keys ↔ other = key ∨ other ∈ t.keys := by
  by_cases old : key ∈ t.keys
  · rw [keysAlterOld old]
    exact ⟨.inr, fun h => h.elim (fun same => same ▸ old) id⟩
  · rw [keysAlterNew old, List.mem_append, List.mem_singleton]
    exact Or.comm

theorem getInsert [DecidableEq κ] (t : Table κ α) (key : κ) (value : α) (other : κ) :
    (t.insert key value).get? other = if key = other then some value else t.get? other :=
  getAlter t key _ other

theorem keysInsert [DecidableEq κ] (t : Table κ α) (key : κ) (value : α) :
    (t.insert key value).keys = if key ∈ t.keys then t.keys else t.keys ++ [key] :=
  keysAlter t key _

@[simp] theorem getEmpty (key : κ) : (∅ : Table κ α).get? key = none := by
  rw [getNone]
  exact List.not_mem_nil

theorem distinctNext {β : Type v} [DecidableEq β] (list : List β) (next : β) :
    (list ++ [next]).eraseDups = if next ∈ list then list.eraseDups else list.eraseDups ++ [next] := by
  rw [List.eraseDups_append]
  split
  · rename_i old
    simp [List.removeAll, old]
  · rename_i new
    simp [List.removeAll, new, List.eraseDups_cons]

theorem distinctRun {β : Type v} [DecidableEq β] {list run : List β} {next : β} (new : next ∉ list)
    (filled : run ≠ []) (only : ∀ element ∈ run, element = next) :
    (list ++ run).eraseDups = list.eraseDups ++ [next] := by
  obtain ⟨rest, rfl⟩ : ∃ rest, run = next :: rest := by
    obtain ⟨first, rest, rfl⟩ := List.exists_cons_of_ne_nil filled
    exact ⟨rest, by rw [only first List.mem_cons_self]⟩
  have others : rest.filter (fun element => !element == next) = [] := by
    rw [List.filter_eq_nil_iff]
    intro element member
    simp [only element (List.mem_cons_of_mem _ member)]
  have kept : (next :: rest).removeAll list = next :: rest := by
    simp only [List.removeAll, List.filter_eq_self]
    intro element member
    simp [only element member, new]
  rw [List.eraseDups_append, kept, List.eraseDups_cons, others, List.eraseDups_nil]

theorem foundLast {β : Type v} {p : β → Bool} {list : List β}
    (unique : ∀ a ∈ list, ∀ b ∈ list, p a → p b → a = b) {a : β} :
    list.reverse.find? p = some a ↔ a ∈ list ∧ p a := by
  constructor
  · intro found
    exact ⟨List.mem_reverse.mp (List.mem_of_find?_eq_some found), List.find?_some found⟩
  · intro h
    obtain ⟨member, good⟩ := h
    cases found : list.reverse.find? p with
    | none => exact absurd good (List.find?_eq_none.mp found a (List.mem_reverse.mpr member))
    | some b =>
      have member' := List.mem_reverse.mp (List.mem_of_find?_eq_some found)
      rw [unique b member' a member (List.find?_some found) good]

theorem getFold [DecidableEq κ] (entries : List (κ × α)) (t : Table κ α) (key : κ) :
    (entries.foldl (fun t entry => t.insert entry.1 entry.2) t).get? key =
      ((entries.reverse.find? fun entry => entry.1 = key).map Prod.snd).or (t.get? key) := by
  induction entries generalizing t with
  | nil => rfl
  | cons entry rest ih =>
    rw [List.foldl_cons, ih, getInsert, List.reverse_cons, List.find?_append]
    cases rest.reverse.find? fun entry => entry.1 = key with
    | some later => rfl
    | none => by_cases same : entry.1 = key <;> simp [same]

theorem memOfList [DecidableEq κ] {entries : List (κ × α)} {key : κ} {value : α}
    (found : (ofList entries).get? key = some value) : (key, value) ∈ entries := by
  rw [ofList, getFold, getEmpty, Option.or_none, Option.map_eq_some_iff] at found
  obtain ⟨entry, last, rfl⟩ := found
  have named : entry.1 = key := by simpa using List.find?_some last
  exact named ▸ List.mem_reverse.mp (List.mem_of_find?_eq_some last)

theorem getOfList [DecidableEq κ] {entries : List (κ × α)}
    (unique : ∀ a ∈ entries, ∀ b ∈ entries, a.1 = b.1 → a = b) {key : κ} {value : α} :
    (ofList entries).get? key = some value ↔ (key, value) ∈ entries := by
  rw [ofList, getFold, getEmpty, Option.or_none, Option.map_eq_some_iff]
  have last {entry : κ × α} : entries.reverse.find? (fun entry => entry.1 = key) = some entry ↔
      entry ∈ entries ∧ entry.1 = key := by
    rw [foundLast fun a first b second left right => unique a first b second (by simp_all)]
    simp
  simp only [last]
  constructor
  · intro h
    obtain ⟨entry, ⟨member, rfl⟩, rfl⟩ := h
    exact member
  · intro member
    exact ⟨_, ⟨member, rfl⟩, rfl⟩

theorem sizeKeys (t : Table κ α) : t.size = t.keys.length := by
  simp [size, keys, toList]

theorem isEmptyKeys {t : Table κ α} : t.isEmpty ↔ t.keys = [] := by
  simp [isEmpty, keys, toList]

@[simp] theorem toListEmpty : (∅ : Table κ α).toList = [] := rfl

@[simp] theorem keysEmpty : (∅ : Table κ α).keys = [] := rfl

theorem entriesListed {t : Table κ α} {list : List (κ × α)} (keys : t.keys = list.map Prod.fst)
    (get : ∀ entry ∈ list, t.get? entry.1 = some entry.2) : t.toList = list := by
  have length : t.toList.length = list.length := by
    simpa [Table.keys] using congrArg List.length keys
  apply List.ext_getElem length
  intro n own listed
  have key : t.toList[n].1 = list[n].1 := by
    have h := congrArg (fun keys => keys[n]?) keys
    simpa [Table.keys, own, listed] using h
  have value : some t.toList[n].2 = some list[n].2 := by
    rw [← getIff.mpr (show (t.toList[n].1, t.toList[n].2) ∈ t.toList from List.getElem_mem own),
      ← get list[n] (List.getElem_mem listed), key]
  exact Prod.ext key (Option.some.inj value)

theorem eqOfGet {s t : Table κ α} (keys : s.keys = t.keys) (get : ∀ key, s.get? key = t.get? key) :
    s = t := by
  apply eqOfToList
  apply entriesListed keys
  intro entry member
  rw [get]
  exact getIff.mpr member

end Greybus.Table
