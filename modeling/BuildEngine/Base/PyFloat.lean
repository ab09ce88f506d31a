import Mathlib.Tactic
import Mathlib.Order.WithBot

/-! # Python floats

Floats as the comparisons see them: NaN, with which no comparison holds, or one of the rationals and the two
infinities. -/

namespace BuildEngine.Base

/-- A Python float: `none` is NaN, and the infinities are below and above the rationals. -/
abbrev PyFloat := Option (WithBot (WithTop ℚ))

namespace PyFloat

/-- A finite float. -/
def finite (q : ℚ) : PyFloat := some ((q : WithTop ℚ) : WithBot (WithTop ℚ))

/-- `x <= y` -/
def le : PyFloat → PyFloat → Prop
  | some a, some b => a ≤ b
  | _, _ => False

/-- `x < y` -/
def lt : PyFloat → PyFloat → Prop
  | some a, some b => a < b
  | _, _ => False

instance decidableLe (x y : PyFloat) : Decidable (le x y) :=
  match x, y with
  | some a, some b => inferInstanceAs (Decidable (a ≤ b))
  | some _, none => .isFalse id
  | none, _ => .isFalse id

instance decidableLt (x y : PyFloat) : Decidable (lt x y) :=
  match x, y with
  | some a, some b => inferInstanceAs (Decidable (a < b))
  | some _, none => .isFalse id
  | none, _ => .isFalse id

/-- `x or y`, for a float that may be missing. -/
def orElse (x : Option PyFloat) (y : PyFloat) : PyFloat :=
  match x with
  | none => y
  | some x => if x = finite 0 then y else x

theorem not_lt_nan (x : PyFloat) : ¬ lt x none := by
  rcases x with _ | a <;> exact id

theorem not_le_nan (x : PyFloat) : ¬ le x none := by
  rcases x with _ | a <;> exact id

theorem le_refl_iff {x : PyFloat} : le x x ↔ x ≠ none := by
  rcases x with _ | a
  · exact ⟨fun h => h.elim, fun h => (h rfl).elim⟩
  · exact ⟨fun _ h => (by cases h), fun _ => le_refl a⟩

/-- Floats other than NaN are compared by a total order. -/
theorem lt_of_not_le {x y : PyFloat} (hx : x ≠ none) (hy : y ≠ none) (h : ¬ le y x) : lt x y := by
  rcases x with _ | a
  · exact absurd rfl hx
  rcases y with _ | b
  · exact absurd rfl hy
  exact not_le.mp h

theorem ne_of_lt {x y : PyFloat} (h : lt x y) : y ≠ x := by
  rcases x with _ | a
  · exact absurd h id
  rcases y with _ | b
  · exact absurd h id
  rintro heq
  rw [heq] at h
  exact lt_irrefl a h

theorem orElse_of_lt {x : PyFloat} (h : lt (finite 0) x) (y : PyFloat) : orElse (some x) y = x :=
  if_neg (ne_of_lt h)

end PyFloat

end BuildEngine.Base
