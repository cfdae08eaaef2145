import Std.Data.ExtTreeMap

/-! Tables that keep the order in which their keys first came. The entries stand
in an array; an index tells at which position a key stands. Writing a key that is
present changes its entry in place, writing a new one adds an entry at the end. -/
namespace Greybus

universe u v

structure Table (κ : Type u) (α : Type v) [Ord κ] [Std.TransOrd κ] [Std.LawfulEqOrd κ] where
  entries : Array (κ × α)
  index : Std.ExtTreeMap κ Nat
  /-- The index holds a key exactly at the position where the entries have it. -/
  coherent : ∀ (key : κ) (n : Nat), index[key]? = some n ↔ entries[n]?.map Prod.fst = some key

namespace Table
variable {κ : Type u} {α : Type v} [Ord κ] [Std.TransOrd κ] [Std.LawfulEqOrd κ]

def empty : Table κ α where
  entries := #[]
  index := ∅
  coherent := by simp

instance : EmptyCollection (Table κ α) := ⟨empty⟩
instance : Inhabited (Table κ α) := ⟨empty⟩

def toList (t : Table κ α) : List (κ × α) := t.entries.toList

def keys (t : Table κ α) : List κ := t.toList.map Prod.fst

def size (t : Table κ α) : Nat := t.entries.size

def isEmpty (t : Table κ α) : Bool := t.entries.isEmpty

def position? (t : Table κ α) (key : κ) : Option Nat := t.index[key]?

def get? (t : Table κ α) (key : κ) : Option α :=
  (t.position? key).bind fun n => t.entries[n]?.map Prod.snd

def contains (t : Table κ α) (key : κ) : Bool := (t.position? key).isSome

theorem positionBound (t : Table κ α) {key : κ} {n : Nat} (found : t.index[key]? = some n) :
    n < t.entries.size := by
  have h := (t.coherent key n).mp found
  cases entry : t.entries[n]? with
  | none => simp [entry] at h
  | some e => exact (Array.getElem?_eq_some_iff.mp entry).1

theorem coherentSet (t : Table κ α) {key : κ} {n : Nat} (found : t.index[key]? = some n) (value : α) :
    ∀ (k : κ) (m : Nat), t.index[k]? = some m ↔
      (t.entries.set n (key, value) (t.positionBound found))[m]?.map Prod.fst = some k := by
  intro k m
  rw [t.coherent k m, Array.getElem?_set]
  split
  · rename_i same
    subst same
    have h := (t.coherent key n).mp found
    rw [h]
    rfl
  · rfl

theorem coherentPush (t : Table κ α) {key : κ} (fresh : t.index[key]? = none) (value : α) :
    ∀ (k : κ) (m : Nat), (t.index.insert key t.entries.size)[k]? = some m ↔
      (t.entries.push (key, value))[m]?.map Prod.fst = some k := by
  intro k m
  rw [Std.ExtTreeMap.getElem?_insert, Array.getElem?_push]
  have here (h : t.entries[m]?.map Prod.fst = some key) : False := by
    simp [(t.coherent key m).mpr h] at fresh
  have bound {k : κ} (h : t.index[k]? = some m) : m < t.entries.size := t.positionBound h
  grind [t.coherent k m]

def alter (t : Table κ α) (key : κ) (change : Option α → α) : Table κ α :=
  match found : t.index[key]? with
  | some n =>
    have bound := t.positionBound found
    { entries := t.entries.set n (key, change (some t.entries[n].2)) bound
      index := t.index
      coherent := t.coherentSet found _ }
  | none =>
    let position := t.entries.size
    { entries := t.entries.push (key, change none)
      index := t.index.insert key position
      coherent := t.coherentPush found _ }

def insert (t : Table κ α) (key : κ) (value : α) : Table κ α := t.alter key fun _ => value

def ofList (entries : List (κ × α)) : Table κ α :=
  entries.foldl (fun t entry => t.insert entry.1 entry.2) ∅

end Table
end Greybus
