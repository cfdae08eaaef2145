/-! Results that are made of others. A result tells what these came to, as long as they
follow one another and the first failure ends them. -/
namespace Greybus

theorem toOptionBind {ε α β : Type} (x : Except ε α) (f : α → Except ε β) :
    (x >>= f).toOption = x.toOption.bind fun a => (f a).toOption := by
  cases x <;> rfl

theorem toOptionMap {ε α β : Type} (f : α → β) (x : Except ε α) :
    (x.map f).toOption = x.toOption.map f := by
  cases x <;> rfl

theorem toOptionIff {ε α : Type} {x : Except ε α} {a : α} : x.toOption = some a ↔ x = .ok a := by
  cases x <;> simp [Except.toOption]

theorem mapOkIff {ε α β : Type} {f : α → β} {x : Except ε α} {b : β} :
    x.map f = .ok b ↔ ∃ a, x = .ok a ∧ f a = b := by
  cases x <;> simp [Except.map]

theorem mapErrorOk {ε ζ α : Type} {change : ε → ζ} {result : Except ε α} {value : α} :
    result.mapError change = .ok value ↔ result = .ok value := by
  cases result with
  | ok found =>
    change Except.ok found = Except.ok value ↔ Except.ok found = Except.ok value
    rw [Except.ok.injEq, Except.ok.injEq]
  | error fault => exact ⟨nofun, nofun⟩

theorem mapErrorError {ε ζ α : Type} {change : ε → ζ} {result : Except ε α} {failure : ζ} :
    result.mapError change = .error failure ↔
      ∃ fault, result = .error fault ∧ change fault = failure := by
  cases result with
  | ok found => exact ⟨nofun, fun ⟨_, failed, _⟩ => nomatch failed⟩
  | error fault =>
    constructor
    · exact fun failed => ⟨fault, rfl, Except.error.inj failed⟩
    · rintro ⟨_, ⟨⟩, same⟩
      exact congrArg Except.error same

theorem bindOkIff {ε α β : Type} {x : Except ε α} {f : α → Except ε β} {b : β} :
    x >>= f = .ok b ↔ ∃ a, x = .ok a ∧ f a = .ok b := by
  cases x <;> simp [bind, Except.bind]

theorem bindErrorIff {ε α β : Type} {x : Except ε α} {f : α → Except ε β} {fault : ε} :
    x >>= f = .error fault ↔ x = .error fault ∨ ∃ a, x = .ok a ∧ f a = .error fault := by
  cases x <;> simp [bind, Except.bind]

theorem mapMIff {ε α β : Type} {f : α → Except ε β} {xs : List α} {ys : List β} :
    xs.mapM f = .ok ys ↔
      (∀ x ∈ xs, (f x).toOption.isSome) ∧ ys = xs.filterMap fun x => (f x).toOption := by
  induction xs generalizing ys with
  | nil =>
    rw [List.mapM_nil]
    constructor
    · intro h
      cases h
      exact ⟨by simp, rfl⟩
    · intro h
      rw [h.2]
      rfl
  | cons x xs ih =>
    rw [List.mapM_cons, ← toOptionIff, toOptionBind]
    cases head : (f x).toOption with
    | none => simp [head]
    | some y =>
      rw [Option.bind_some, toOptionBind, Option.bind_eq_some_iff]
      simp only [toOptionIff, ih, List.forall_mem_cons, head, Option.isSome_some, true_and,
        List.filterMap_cons]
      constructor
      · intro h
        obtain ⟨tail, ⟨all, rfl⟩, last⟩ := h
        exact ⟨all, (Except.ok.inj last).symm⟩
      · intro h
        obtain ⟨all, rfl⟩ := h
        exact ⟨_, ⟨all, rfl⟩, rfl⟩

end Greybus
