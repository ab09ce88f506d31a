import BuildEngine.Base.JsonRoundTrip

/-! # Sorted members

`json.dumps(…, sort_keys=True)` writes the members of every object in the order of their names. Sorting
keeps a value well formed (`WF.sortKeys`) and does not change what the members of an object are
(`get?_sortMembers`), so reading the text back gives the value up to the order of its members
(`loads_dumpsSorted`). -/

namespace BuildEngine.Base.Json

/-! ### Lookup -/

theorem get?_eq_some {kvs : List (PyStr × Json)} (hn : (kvs.map Prod.fst).Nodup) {k : PyStr} {v : Json} :
    get? kvs k = some v ↔ (k, v) ∈ kvs := by
  induction kvs with
  | nil => simp [get?]
  | cons kv kvs ih =>
    obtain ⟨k', v'⟩ := kv
    rw [List.map_cons, List.nodup_cons] at hn
    have ih := ih hn.2
    unfold get? at ih ⊢
    by_cases hk : k' = k
    · subst hk
      simp only [List.find?_cons, decide_true, Option.map_some, Option.some.injEq, List.mem_cons,
        Prod.mk.injEq, true_and]
      refine ⟨fun h => Or.inl h.symm, ?_⟩
      rintro (h | h)
      · exact h.symm
      · exact absurd (List.mem_map_of_mem (f := Prod.fst) h) hn.1
    · simp only [List.find?_cons, decide_eq_false hk, List.mem_cons, Prod.mk.injEq, ih]
      constructor
      · exact Or.inr
      · rintro (⟨h, -⟩ | h)
        · exact absurd h.symm hk
        · exact h

/-- Lookup does not see the order of the members. -/
theorem get?_perm {kvs kvs' : List (PyStr × Json)} (hp : kvs.Perm kvs') (hn : (kvs.map Prod.fst).Nodup)
    (k : PyStr) : get? kvs k = get? kvs' k := by
  have hn' : (kvs'.map Prod.fst).Nodup := (hp.map Prod.fst).nodup_iff.mp hn
  rcases h : get? kvs' k with _ | v
  · rcases h' : get? kvs k with _ | v
    · rfl
    · rw [get?_eq_some hn, hp.mem_iff, ← get?_eq_some hn', h] at h'
      cases h'
  · rw [get?_eq_some hn'] at h
    rw [get?_eq_some hn, hp.mem_iff]; exact h

theorem sortMembers_perm (kvs : List (PyStr × Json)) : (sortMembers kvs).Perm kvs :=
  List.perm_insertionSort _ _

theorem sortKeysMembers_eq : ∀ kvs : List (PyStr × Json),
    sortKeysMembers kvs = kvs.map fun kv => (kv.1, sortKeys kv.2)
  | [] => rfl
  | (k, v) :: kvs => by rw [sortKeysMembers, sortKeysMembers_eq kvs]; rfl

theorem map_fst_sortKeysMembers (kvs : List (PyStr × Json)) :
    (sortKeysMembers kvs).map Prod.fst = kvs.map Prod.fst := by
  rw [sortKeysMembers_eq, List.map_map]; rfl

/-- The members of an object in the order of their names, each value sorted. -/
def sortedMembers (kvs : List (PyStr × Json)) : List (PyStr × Json) := sortMembers (sortKeysMembers kvs)

theorem sortKeys_obj (kvs : List (PyStr × Json)) : sortKeys (.obj kvs) = .obj (sortedMembers kvs) := by
  rw [sortKeys]; rfl

theorem map_fst_sortedMembers (kvs : List (PyStr × Json)) :
    ((sortedMembers kvs).map Prod.fst).Perm (kvs.map Prod.fst) := by
  have := (sortMembers_perm (sortKeysMembers kvs)).map Prod.fst
  rwa [map_fst_sortKeysMembers] at this

/-- Sorting the members keeps each value, up to its own order. -/
theorem get?_sortedMembers {kvs : List (PyStr × Json)} (hn : (kvs.map Prod.fst).Nodup) (k : PyStr) :
    get? (sortedMembers kvs) k = (get? kvs k).map sortKeys := by
  have hn' : ((sortKeysMembers kvs).map Prod.fst).Nodup := by rwa [map_fst_sortKeysMembers]
  unfold sortedMembers
  rw [← get?_perm (sortMembers_perm _).symm hn', sortKeysMembers_eq]
  unfold get?
  rw [List.find?_map, Option.map_map, Option.map_map]
  rfl

/-- The sorted members do not depend on the order in which the members stood. -/
theorem sortedMembers_perm {kvs kvs' : List (PyStr × Json)} (hp : kvs.Perm kvs')
    (hn : (kvs.map Prod.fst).Nodup) : sortedMembers kvs = sortedMembers kvs' := by
  let le : PyStr × Json → PyStr × Json → Prop := fun a b => a.1 ≤ b.1
  have : Std.Total le := ⟨fun a b => le_total a.1 b.1⟩
  have : IsTrans (PyStr × Json) le := ⟨fun _ _ _ hab hbc => le_trans hab hbc⟩
  have hsorted : (sortKeysMembers kvs).Perm (sortKeysMembers kvs') := by
    rw [sortKeysMembers_eq, sortKeysMembers_eq]
    exact hp.map _
  refine List.Perm.eq_of_pairwise ?_ (List.pairwise_insertionSort le _)
    (List.pairwise_insertionSort le _)
    ((sortMembers_perm _).trans (hsorted.trans (sortMembers_perm _).symm))
  intro a b ha hb hab hba
  -- two members with one name are the same
  have ha' : a ∈ sortKeysMembers kvs := (sortMembers_perm _).mem_iff.mp ha
  have hb' : b ∈ sortKeysMembers kvs := hsorted.mem_iff.mpr ((sortMembers_perm _).mem_iff.mp hb)
  have hn' : ((sortKeysMembers kvs).map Prod.fst).Nodup := by rwa [map_fst_sortKeysMembers]
  exact List.inj_on_of_nodup_map hn' ha' hb' (le_antisymm hab hba)

/-- A member that is set is found. -/
theorem get?_set_self (kvs : List (PyStr × Json)) (k : PyStr) (v : Json) :
    get? (Json.set kvs k v) k = some v := by
  have hkeep : ((fun kv : PyStr × Json => decide (kv.1 = k)) ∘
      fun kv => if kv.1 = k then (kv.1, v) else kv) = fun kv => decide (kv.1 = k) := by
    funext kv
    simp only [Function.comp_apply]
    split_ifs <;> rfl
  unfold get? Json.set
  split_ifs with h
  · obtain ⟨kv, hkv⟩ := Option.isSome_iff_exists.mp (List.find?_isSome.mpr (List.any_eq_true.mp h))
    have hk : kv.1 = k := by simpa using List.find?_some hkv
    rw [List.find?_map, hkeep, hkv, Option.map_some, Option.map_some, if_pos hk]
  · have hnone : kvs.find? (fun kv => decide (kv.1 = k)) = none :=
      List.find?_eq_none.mpr fun kv hkv hk => h (List.any_eq_true.mpr ⟨kv, hkv, hk⟩)
    rw [List.find?_append, hnone]
    simp

/-- Setting a member leaves the others alone. -/
theorem get?_set_of_ne (kvs : List (PyStr × Json)) {k k' : PyStr} (v : Json) (h : k' ≠ k) :
    get? (Json.set kvs k v) k' = get? kvs k' := by
  unfold get? Json.set
  split_ifs
  · rw [List.find?_map, Option.map_map]
    have hkeep : ((fun kv : PyStr × Json => decide (kv.1 = k')) ∘
        fun kv => if kv.1 = k then (kv.1, v) else kv) = fun kv => decide (kv.1 = k') := by
      funext kv
      simp only [Function.comp_apply]
      split_ifs <;> rfl
    rw [hkeep]
    refine Option.map_congr fun kv hfound => ?_
    have hk : kv.1 = k' := by simpa using List.find?_some hfound
    have hne : kv.1 ≠ k := hk ▸ h
    simp only [Function.comp_apply, if_neg hne]
  · rw [List.find?_append]
    simp [h.symm]

/-! ### Well-formedness -/

theorem wfMembers_iff : ∀ {kvs : List (PyStr × Json)},
    wfMembers kvs = true ↔ ∀ kv ∈ kvs, noPair kv.1 = true ∧ wf kv.2 = true
  | [] => by simp [wfMembers]
  | (k, v) :: kvs => by
    rw [wfMembers, Bool.and_eq_true, Bool.and_eq_true, wfMembers_iff]
    simp

theorem wfElems_iff : ∀ {xs : List Json}, wfElems xs = true ↔ ∀ x ∈ xs, wf x = true
  | [] => by simp [wfElems]
  | x :: xs => by
    rw [wfElems, Bool.and_eq_true, wfElems_iff]
    simp

theorem nodup_of_wf {kvs : List (PyStr × Json)} (h : WF (.obj kvs)) : (kvs.map Prod.fst).Nodup := by
  unfold WF at h
  rw [wf, Bool.and_eq_true] at h
  exact of_decide_eq_true h.1

mutual

theorem wf_sortKeys : ∀ j : Json, wf j = true → wf (sortKeys j) = true
  | .null, h => h
  | .bool _, h => h
  | .int _, h => h
  | .float _, h => h
  | .str _, h => h
  | .arr xs, h => by
    rw [wf] at h
    rw [sortKeys, wf]; exact wfElems_sortKeys xs h
  | .obj kvs, h => by
    rw [wf, Bool.and_eq_true] at h
    rw [sortKeys, wf, Bool.and_eq_true]
    constructor
    · exact decide_eq_true ((map_fst_sortedMembers kvs).nodup_iff.mpr (of_decide_eq_true h.1))
    · rw [wfMembers_iff]
      intro kv hkv
      exact wfMembers_iff.mp (wfMembers_sortKeys kvs h.2) kv ((sortMembers_perm _).mem_iff.mp hkv)

theorem wfElems_sortKeys : ∀ xs : List Json, wfElems xs = true → wfElems (sortKeysElems xs) = true
  | [], h => h
  | x :: xs, h => by
    rw [wfElems, Bool.and_eq_true] at h
    rw [sortKeysElems, wfElems, wf_sortKeys x h.1, wfElems_sortKeys xs h.2]; rfl

theorem wfMembers_sortKeys : ∀ kvs : List (PyStr × Json), wfMembers kvs = true →
    wfMembers (sortKeysMembers kvs) = true
  | [], h => h
  | (k, v) :: kvs, h => by
    rw [wfMembers, Bool.and_eq_true, Bool.and_eq_true] at h
    rw [sortKeysMembers, wfMembers, h.1.1, wf_sortKeys v h.1.2, wfMembers_sortKeys kvs h.2]; rfl

end

theorem WF.sortKeys {j : Json} (h : j.WF) : (Json.sortKeys j).WF := wf_sortKeys j h

/-- Reading back a sorted text gives the value with its members in order. -/
theorem loads_dumpsSorted {j : Json} (h : j.WF) : loads (dumpsSorted j) = .ok (sortKeys j) :=
  loads_dumps h.sortKeys

/-! ### Texts and numbers -/

theorem noPair_of_ascii : ∀ {s : PyStr}, Ascii s → noPair s = true
  | [], _ => rfl
  | [_], _ => rfl
  | c :: d :: s, h => by
    have hc : c.val < 0x80 := h c (by simp)
    have hhigh : isHigh c.val = false := by simp [isHigh]; omega
    rw [noPair, hhigh, noPair_of_ascii fun x hx => h x (List.mem_cons_of_mem _ hx)]; rfl

theorem length_digitsAux : ∀ (k fuel n : ℕ) (acc : PyStr), n < 10 ^ (k + 1) →
    (digitsAux fuel n acc).length ≤ acc.length + (k + 1)
  | k, 0, n, acc, _ => by simp [digitsAux]
  | 0, fuel + 1, n, acc, h => by
    rw [digitsAux, if_pos (by simpa using h)]; simp
  | k + 1, fuel + 1, n, acc, h => by
    rw [digitsAux]
    split_ifs
    · simp
    · have hlt : n / 10 < 10 ^ (k + 1) := by
        rw [Nat.div_lt_iff_lt_mul (by norm_num)]
        calc n < 10 ^ (k + 1 + 1) := h
          _ = 10 ^ (k + 1) * 10 := pow_succ 10 (k + 1)
      have := length_digitsAux k fuel (n / 10) (Fin.ofNat 0x110000 (48 + n % 10) :: acc) hlt
      rw [List.length_cons] at this
      omega

/-- An integer of at most twenty digits is well formed. -/
theorem wf_int {n : ℕ} (h : n < 10 ^ 20) : wf (.int n) = true := by
  have := length_digitsAux 19 (n + 1) n [] h
  have hlen : (natText n).length ≤ maxDigits := le_trans this (by decide)
  rw [wf]
  simpa using hlen

end BuildEngine.Base.Json
