import Mathlib.Tactic

/-! # Computations that may fail

`Except` computations read step by step: what a result says of the steps (`bind_ok`, `bind_ok_iff`), and what the
errors of a computation have in common (`Raises`). -/

namespace BuildEngine.Base

variable {ε ε' α β : Type}

/-- A result of two steps is a result of the second after one of the first. -/
theorem bind_ok {x : Except ε α} {f : α → Except ε β} {b : β} (h : x >>= f = .ok b) :
    ∃ a, x = .ok a ∧ f a = .ok b := by
  cases x with
  | error => cases h
  | ok a => exact ⟨a, rfl, h⟩

theorem bind_ok_iff (x : Except ε α) (f : α → Except ε β) :
    (∃ b, x >>= f = .ok b) ↔ ∃ a, x = .ok a ∧ ∃ b, f a = .ok b := by
  constructor
  · rintro ⟨b, h⟩
    obtain ⟨a, ha, hb⟩ := bind_ok h
    exact ⟨a, ha, b, hb⟩
  · rintro ⟨a, rfl, b, hb⟩
    exact ⟨b, hb⟩

theorem mapError_ok_iff (f : ε → ε') (x : Except ε α) (a : α) : x.mapError f = .ok a ↔ x = .ok a := by
  cases x <;> simp [Except.mapError]

/-- Whatever the computation raises satisfies `P`. -/
def Raises (P : ε → Prop) (x : Except ε α) : Prop := ∀ e, x = .error e → P e

variable {P : ε → Prop}

@[simp] theorem raises_ok (a : α) : Raises P (.ok a : Except ε α) := fun _ h => by cases h

@[simp] theorem raises_pure (a : α) : Raises P (pure a : Except ε α) := raises_ok a

@[simp] theorem raises_error (e : ε) : Raises P (.error e : Except ε α) ↔ P e :=
  ⟨fun h => h e rfl, fun h _ he => Except.error.inj he ▸ h⟩

/-- **The rule for two steps.** -/
theorem raises_bind (x : Except ε α) (f : α → Except ε β) :
    Raises P (x >>= f) ↔ Raises P x ∧ ∀ a, x = .ok a → Raises P (f a) := by
  cases x with
  | error e =>
    have hbind : (Except.error e >>= f) = .error e := rfl
    simp [hbind]
  | ok a =>
    have hbind : (Except.ok a >>= f) = f a := rfl
    simp [hbind]

/-- A step after which a value is only returned. -/
theorem raises_map (x : Except ε α) (f : α → β) : Raises P (do let a ← x; return f a) ↔ Raises P x := by
  rw [raises_bind]
  exact and_iff_left fun a _ => raises_pure (f a)

theorem raises_mapError (f : ε' → ε) (x : Except ε' α) : Raises P (x.mapError f) ↔ Raises (fun e => P (f e)) x := by
  cases x with
  | error e => exact (raises_error (f e)).trans (raises_error (P := fun e => P (f e)) e).symm
  | ok a => exact iff_of_true (raises_ok a) (raises_ok a)

/-- A computation that must not raise returns. -/
theorem raises_false_iff (x : Except ε α) : Raises (fun _ => False) x ↔ ∃ a, x = .ok a := by
  cases x <;> simp

end BuildEngine.Base
