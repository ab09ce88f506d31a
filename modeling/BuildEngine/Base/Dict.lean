import Mathlib.Tactic

/-! # Dicts as assignments

A dict is the list of the assignments that made it: `d[key] = value` appends one, `d.update(e)` appends those of
`e`, and the last assignment of a key is the value it has. So the layers of a layered dict are its parts, and what
is set in the last of them counts (`get?_flatten`). -/

namespace BuildEngine.Base

variable {κ α : Type*} [DecidableEq κ]

/-- A dict: its assignments, in their order. -/
abbrev Dict (κ α : Type*) := List (κ × α)

namespace Dict

/-- `d.get(key)` -/
def get? (d : Dict κ α) (k : κ) : Option α := (d.reverse.find? fun kv => kv.1 = k).map Prod.snd

@[simp] theorem get?_nil (k : κ) : get? ([] : Dict κ α) k = none := rfl

theorem get?_singleton (k k' : κ) (v : α) : get? [(k, v)] k' = if k = k' then some v else none := by
  unfold get?
  rw [List.reverse_singleton, List.find?_singleton]
  by_cases h : k = k'
  · simp [h]
  · simp [h]

/-- `d.update(e)`: what `e` has counts. -/
theorem get?_append (d e : Dict κ α) (k : κ) : get? (d ++ e) k = (get? e k).or (get? d k) := by
  unfold get?
  rw [List.reverse_append, List.find?_append, Option.map_or]

theorem get?_cons (kv : κ × α) (d : Dict κ α) (k : κ) :
    get? (kv :: d) k = (get? d k).or (if kv.1 = k then some kv.2 else none) := by
  rw [← List.singleton_append, get?_append, get?_singleton]

theorem get?_concat (d : Dict κ α) (k k' : κ) (v : α) :
    get? (d ++ [(k, v)]) k' = if k = k' then some v else get? d k' := by
  rw [get?_append, get?_singleton]
  split_ifs <;> rfl

/-- The last of the layers that sets the key. -/
theorem get?_flatten (layers : List (Dict κ α)) (k : κ) :
    get? layers.flatten k = layers.reverse.findSome? fun d => get? d k := by
  induction layers with
  | nil => rfl
  | cons d layers ih =>
    rw [List.flatten_cons, get?_append, ih, List.reverse_cons, List.findSome?_append, List.findSome?_singleton]

/-- A key has a value exactly if it has been assigned one. -/
theorem isSome_get? {d : Dict κ α} {k : κ} : (get? d k).isSome = true ↔ k ∈ d.map Prod.fst := by
  induction d with
  | nil => simp
  | cons kv d ih =>
    rw [get?_cons, Option.isSome_or, Bool.or_eq_true, ih, List.map_cons, List.mem_cons]
    by_cases h : kv.1 = k
    · simp [h]
    · simp [h, Ne.symm h]

theorem get?_eq_none {d : Dict κ α} {k : κ} : get? d k = none ↔ k ∉ d.map Prod.fst := by
  rw [← isSome_get?, Option.not_isSome_iff_eq_none]

end Dict

end BuildEngine.Base
