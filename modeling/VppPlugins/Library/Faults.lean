import Mathlib.Logic.Basic

/-! Straight-line code that stops at its first fault. -/
namespace Faults

universe u v

variable {ε : Type u} {α β : Type v}

/-- The value, or the fault its absence means. -/
def orFault (e : ε) : Option α → Except ε α
  | none => .error e
  | some a => .ok a

theorem ok_bind (a : α) (f : α → Except ε β) : (Except.ok a >>= f) = f a := rfl

theorem map_eq (f : α → β) (x : Except ε α) : x.map f = x >>= fun a => pure (f a) := by
  cases x <;> rfl

theorem bind_ok {x : Except ε α} {f : α → Except ε β} {b : β} :
    (x >>= f) = .ok b ↔ ∃ a, x = .ok a ∧ f a = .ok b := by
  cases x <;> simp [bind, Except.bind]

theorem bind_error {x : Except ε α} {f : α → Except ε β} {e : ε} :
    (x >>= f) = .error e ↔ x = .error e ∨ ∃ a, x = .ok a ∧ f a = .error e := by
  cases x <;> simp [bind, Except.bind]

theorem orFault_error {e e' : ε} {o : Option α} :
    orFault e o = .error e' ↔ o = none ∧ e = e' := by
  cases o <;> simp [orFault]

theorem orFault_ok {e : ε} {o : Option α} {a : α} : orFault e o = .ok a ↔ o = some a := by
  cases o <;> simp [orFault]

theorem pure_ok {a b : α} : (pure a : Except ε α) = .ok b ↔ a = b :=
  ⟨fun h => Except.ok.inj h, fun h => congrArg Except.ok h⟩

/-- Two computations that complete together, with answers that look alike through `f`. -/
theorem toOption_map_congr {γ : Type*} {x y : Except ε α} {f : α → γ}
    (forth : ∀ a, x = .ok a → ∃ b, y = .ok b ∧ f b = f a)
    (back : ∀ b, y = .ok b → ∃ a, x = .ok a) : x.toOption.map f = y.toOption.map f := by
  cases hx : x with
  | ok a =>
      obtain ⟨b, hy, same⟩ := forth a hx
      rw [hy]
      exact congrArg some same.symm
  | error e =>
      cases hy : y with
      | ok b =>
          obtain ⟨a, ok⟩ := back b hy
          cases hx.symm.trans ok
      | error e' => rfl

end Faults
