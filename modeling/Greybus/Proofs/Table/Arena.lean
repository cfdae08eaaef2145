import Mathlib.Data.List.Induction
import Greybus.Table.Lemmas

/-! Tables whose index keeps positions in 32 bits. A position is cut down when it is kept,
and one that leads out of the entries breaks an operation off. With fewer than 2^32 entries
neither ever happens: such a table goes through the same entries as one without a bound, and
look-ups in both find the same. -/
namespace Greybus

universe u v

structure Arena (κ : Type u) (α : Type v) [Ord κ] [Std.TransOrd κ] where
  entries : Array (κ × α) := #[]
  index : Std.ExtTreeMap κ UInt32 := ∅

namespace Arena
variable {κ : Type u} {α : Type v} [Ord κ] [Std.TransOrd κ]

def get (arena : Arena κ α) (key : κ) : Option (Option α) :=
  match arena.index[key]? with
  | some n => arena.entries[n.toNat]?.map fun entry => some entry.2
  | none => some none

def alter (arena : Arena κ α) (key : κ) (change : Option α → α) : Option (Arena κ α) :=
  match arena.index[key]? with
  | some n => arena.entries[n.toNat]?.map fun entry =>
    { arena with entries := arena.entries.setIfInBounds n.toNat (entry.1, change (some entry.2)) }
  | none => some
    { entries := arena.entries.push (key, change none)
      index := arena.index.insert key arena.entries.size.toUInt32 }

def ofList (entries : List (κ × α)) : Option (Arena κ α) :=
  entries.foldlM (fun arena entry => arena.alter entry.1 fun _ => entry.2) {}

end Arena

namespace Table
variable {κ : Type u} {α : Type v} [Ord κ] [Std.TransOrd κ] [Std.LawfulEqOrd κ]

def arena (t : Table κ α) : Arena κ α := ⟨t.entries, t.index.map fun _ n => n.toUInt32⟩

theorem sizeAlter (t : Table κ α) (key : κ) (change : Option α → α) :
    t.size ≤ (t.alter key change).size := by
  unfold alter
  split <;> simp [size]

theorem arenaIndex (t : Table κ α) (key : κ) :
    t.arena.index[key]? = (t.position? key).map Nat.toUInt32 := by
  simp [arena, position?]

theorem arenaEmpty : (∅ : Table κ α).arena = {} := by
  have index : (∅ : Table κ α).arena.index = ∅ := by
    apply Std.ExtTreeMap.ext_getElem?
    intro key
    rw [arenaIndex, position?, show (∅ : Table κ α).index = ∅ from rfl]
    simp
  exact congrArg (Arena.mk #[]) index

theorem positionWide {t : Table κ α} (few : t.size < UInt32.size) {key : κ} {n : Nat}
    (found : t.position? key = some n) : n.toUInt32.toNat = n :=
  Nat.mod_eq_of_lt (Nat.lt_trans (t.positionBound found) few)

theorem arenaGet {t : Table κ α} (few : t.size < UInt32.size) (key : κ) :
    t.arena.get key = some (t.get? key) := by
  rw [Arena.get, arenaIndex]
  cases found : t.position? key with
  | none => simp [get?, found]
  | some n =>
    obtain ⟨value, entry, known⟩ := entryAt found
    rw [known]
    simp only [Option.map_some, positionWide few found, arena, entry]

theorem arenaInsert (t : Table κ α) (key : κ) :
    t.arena.index.insert key t.size.toUInt32 =
      (t.index.insert key t.size).map fun _ n => n.toUInt32 := by
  apply Std.ExtTreeMap.ext_getElem?
  intro other
  simp only [arena, Std.ExtTreeMap.getElem?_insert, Std.ExtTreeMap.getElem?_map]
  split <;> rfl

theorem arenaAlter {t : Table κ α} (few : t.size < UInt32.size) (key : κ) (change : Option α → α) :
    t.arena.alter key change = some (t.alter key change).arena := by
  rw [Arena.alter, arenaIndex, position?, alter]
  split
  · rename_i m kept
    obtain ⟨n, found, rfl⟩ := Option.map_eq_some_iff.mp kept
    rw [positionWide few found]
    have bound := t.positionBound found
    have named : t.entries[n].1 = key := by simpa [bound] using (t.coherent key n).mp found
    split
    · rename_i same
      obtain rfl := Option.some.inj (found.symm.trans same)
      simp [arena, bound, named, Array.setIfInBounds]
    · rename_i absent
      rw [found] at absent
      contradiction
  · rename_i absent
    split
    · rename_i n found
      rw [found] at absent
      contradiction
    · exact congrArg (fun index => some (Arena.mk _ index)) (arenaInsert t key)

theorem arenaOfList {entries : List (κ × α)} (few : (ofList entries).size < UInt32.size) :
    Arena.ofList entries = some (ofList entries).arena := by
  induction entries using List.reverseRecOn with
  | nil => exact congrArg some arenaEmpty.symm
  | append_singleton before entry ih =>
    have last : ofList (before ++ [entry]) = (ofList before).insert entry.1 entry.2 := List.foldl_append
    rw [last, insert] at few ⊢
    have few' := Nat.lt_of_le_of_lt (sizeAlter (ofList before) entry.1 fun _ => entry.2) few
    rw [Arena.ofList] at ih ⊢
    rw [List.foldlM_append, ih few']
    simp only [List.foldlM_cons, List.foldlM_nil, Option.bind_eq_bind, Option.bind_some,
      arenaAlter few', bind_pure]

end Table
end Greybus
