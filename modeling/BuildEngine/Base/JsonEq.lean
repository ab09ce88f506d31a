import BuildEngine.Base.JsonSort

/-! # Equal dictionaries

Python compares dictionaries by their members, whatever the order in which these stand. `Same` is that
comparison on JSON values. Sorting the members of a value gives an equal one (`same_sortKeys`), and sorting
twice is sorting once (`sortKeys_idem`), so that an equal value read back from a sorted text is written as
that text again. -/

namespace BuildEngine.Base.Json

/-! ### Equality -/

/-- The two values are equal as Python values of the same types: lists element by element, dictionaries
member by member. -/
inductive Same : Json → Json → Prop where
  | null : Same .null .null
  | bool (b : Bool) : Same (.bool b) (.bool b)
  | int (n : ℤ) : Same (.int n) (.int n)
  | float (t : FloatText) : Same (.float t) (.float t)
  | str (s : PyStr) : Same (.str s) (.str s)
  | arr {xs ys : List Json} (h : List.Forall₂ Same xs ys) : Same (.arr xs) (.arr ys)
  | obj {kvs kvs' : List (PyStr × Json)} (h : ∀ k, Option.Rel Same (get? kvs k) (get? kvs' k)) :
      Same (.obj kvs) (.obj kvs')

theorem mem_of_get? {kvs : List (PyStr × Json)} {k : PyStr} {v : Json} (h : get? kvs k = some v) :
    (k, v) ∈ kvs := by
  unfold get? at h
  obtain ⟨⟨k', v'⟩, hfound, rfl⟩ := Option.map_eq_some_iff.mp h
  have hk : k' = k := by simpa using List.find?_some hfound
  exact hk ▸ List.mem_of_find?_eq_some hfound

mutual

/-- Sorting the members of a value gives an equal value. -/
theorem same_sortKeys : ∀ j : Json, wf j = true → Same (sortKeys j) j
  | .null, _ => .null
  | .bool b, _ => .bool b
  | .int n, _ => .int n
  | .float t, _ => .float t
  | .str s, _ => .str s
  | .arr xs, h => by
    rw [wf] at h
    rw [sortKeys]
    exact .arr (same_sortKeysElems xs h)
  | .obj kvs, h => by
    rw [wf, Bool.and_eq_true] at h
    rw [sortKeys_obj]
    refine .obj fun k => ?_
    rw [get?_sortedMembers (of_decide_eq_true h.1)]
    rcases hv : get? kvs k with _ | v
    · exact .none
    · exact .some (same_sortKeysMembers kvs h.2 (k, v) (mem_of_get? hv))

theorem same_sortKeysElems : ∀ xs : List Json, wfElems xs = true → List.Forall₂ Same (sortKeysElems xs) xs
  | [], _ => .nil
  | x :: xs, h => by
    rw [wfElems, Bool.and_eq_true] at h
    rw [sortKeysElems]
    exact .cons (same_sortKeys x h.1) (same_sortKeysElems xs h.2)

theorem same_sortKeysMembers : ∀ kvs : List (PyStr × Json), wfMembers kvs = true →
    ∀ kv ∈ kvs, Same (sortKeys kv.2) kv.2
  | [], _, kv, hkv => by simp at hkv
  | (k, v) :: kvs, h, kv, hkv => by
    rw [wfMembers, Bool.and_eq_true, Bool.and_eq_true] at h
    rcases List.mem_cons.mp hkv with rfl | hkv
    · exact same_sortKeys v h.1.2
    · exact same_sortKeysMembers kvs h.2 kv hkv

end

/-! ### Sorting twice -/

/-- Members in order stay as they are. -/
theorem sortMembers_idem (kvs : List (PyStr × Json)) : sortMembers (sortMembers kvs) = sortMembers kvs := by
  let le : PyStr × Json → PyStr × Json → Prop := fun a b => a.1 ≤ b.1
  have : Std.Total le := ⟨fun a b => le_total a.1 b.1⟩
  have : IsTrans (PyStr × Json) le := ⟨fun _ _ _ hab hbc => le_trans hab hbc⟩
  exact List.Pairwise.insertionSort_eq (List.pairwise_insertionSort le kvs)

/-- Sorting the members of an object whose values are sorted changes no value. -/
theorem sortKeysMembers_of_sorted {kvs : List (PyStr × Json)} (h : ∀ kv ∈ kvs, sortKeys kv.2 = kv.2) :
    sortKeysMembers kvs = kvs := by
  rw [sortKeysMembers_eq]
  conv_rhs => rw [← List.map_id kvs]
  refine List.map_congr_left fun kv hkv => ?_
  rw [h kv hkv]
  rfl

mutual

/-- Sorting twice is sorting once. -/
theorem sortKeys_idem : ∀ j : Json, sortKeys (sortKeys j) = sortKeys j
  | .null => rfl
  | .bool _ => rfl
  | .int _ => rfl
  | .float _ => rfl
  | .str _ => rfl
  | .arr xs => by
    rw [sortKeys, sortKeys, sortKeysElems_idem xs]
  | .obj kvs => by
    rw [sortKeys_obj, sortKeys_obj]
    have hvalues : ∀ kv ∈ sortedMembers kvs, sortKeys kv.2 = kv.2 := fun kv hkv =>
      sortKeysMembers_idem kvs kv ((sortMembers_perm _).mem_iff.mp hkv)
    have hagain : sortedMembers (sortedMembers kvs) = sortMembers (sortedMembers kvs) := by
      show sortMembers (sortKeysMembers (sortedMembers kvs)) = _
      rw [sortKeysMembers_of_sorted hvalues]
    rw [hagain]
    exact congrArg Json.obj (sortMembers_idem _)

theorem sortKeysElems_idem : ∀ xs : List Json, sortKeysElems (sortKeysElems xs) = sortKeysElems xs
  | [] => rfl
  | x :: xs => by
    rw [sortKeysElems, sortKeysElems, sortKeys_idem x, sortKeysElems_idem xs]

theorem sortKeysMembers_idem : ∀ kvs : List (PyStr × Json), ∀ kv ∈ sortKeysMembers kvs, sortKeys kv.2 = kv.2
  | [], kv, hkv => by simp [sortKeysMembers] at hkv
  | (k, v) :: kvs, kv, hkv => by
    rw [sortKeysMembers] at hkv
    rcases List.mem_cons.mp hkv with rfl | hkv
    · exact sortKeys_idem v
    · exact sortKeysMembers_idem kvs kv hkv

end

end BuildEngine.Base.Json
