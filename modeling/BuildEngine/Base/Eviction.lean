import Mathlib.Tactic

/-! # Evicting until a limit is kept

`evict` takes the elements of a queue out of a store, one after the other, as long as the weight of the store is above
a limit. What it takes is the shortest part of the queue that is enough, or the whole queue (`evict_spec`): the store
that still had the last element taken was too heavy. -/

namespace BuildEngine.Base

variable {α κ : Type*} [DecidableEq κ]

/-- The weight of a store. -/
def total (weight : α → ℕ) (store : List α) : ℕ := (store.map weight).sum

/-- The store without the elements of some keys. -/
def without (key : α → κ) (keys : List κ) (store : List α) : List α := store.filter fun a => key a ∉ keys

/-- Take the elements of the queue out of the store while it is too heavy. -/
def evict (key : α → κ) (weight : α → ℕ) (limit : ℕ) : List α → List α → List α
  | [], store => store
  | a :: queue, store =>
    if total weight store ≤ limit then store else evict key weight limit queue (without key [key a] store)

section Without
variable {key : α → κ} {weight : α → ℕ}

@[simp] theorem without_nil (store : List α) : without key [] store = store := by simp [without]

theorem mem_without {keys : List κ} {store : List α} {a : α} :
    a ∈ without key keys store ↔ a ∈ store ∧ key a ∉ keys := by
  simp [without]

theorem without_without (keys keys' : List κ) (store : List α) :
    without key keys' (without key keys store) = without key (keys ++ keys') store := by
  simp [without, List.filter_filter, Bool.and_comm]

theorem without_sublist (key : α → κ) (keys : List κ) (store : List α) : (without key keys store).Sublist store :=
  List.filter_sublist

/-- An element weighs what its store loses without it. -/
theorem total_without {store : List α} (hn : (store.map key).Nodup) {a : α} (ha : a ∈ store) :
    total weight (without key [key a] store) + weight a = total weight store := by
  induction store with
  | nil => exact absurd ha List.not_mem_nil
  | cons b store ih =>
    obtain ⟨hb, hn⟩ := List.nodup_cons.mp hn
    by_cases hkey : key b = key a
    · have hrest : without key [key a] store = store := by
        refine List.filter_eq_self.mpr fun c hc => decide_eq_true fun hmem => hb ?_
        rw [hkey, ← List.mem_singleton.mp hmem]
        exact List.mem_map_of_mem hc
      have heq : a = b := by
        rcases List.mem_cons.mp ha with heq | hmem
        · exact heq
        · exact absurd (hkey ▸ List.mem_map_of_mem hmem) hb
      have hfirst : without key [key a] (b :: store) = without key [key a] store := by
        simp [without, hkey]
      rw [hfirst, hrest, heq, total, total, List.map_cons, List.sum_cons, Nat.add_comm]
    · have hmem : a ∈ store := (List.mem_cons.mp ha).resolve_left fun heq => hkey (congrArg key heq.symm)
      have hfirst : without key [key a] (b :: store) = b :: without key [key a] store := by
        simp [without, hkey]
      have hrest := ih hn hmem
      rw [hfirst]
      unfold total at hrest ⊢
      rw [List.map_cons, List.map_cons, List.sum_cons, List.sum_cons]
      omega

end Without

/-- **What an eviction takes**: a first part of the queue, after which the store is light enough unless the queue has
come to its end, and before the last element of which it was not. -/
theorem evict_spec (key : α → κ) (weight : α → ℕ) (limit : ℕ) : ∀ queue store : List α,
    ∃ gone left, queue = gone ++ left ∧ evict key weight limit queue store = without key (gone.map key) store ∧
      (left = [] ∨ total weight (evict key weight limit queue store) ≤ limit) ∧
      ∀ before a, gone = before ++ [a] → limit < total weight (without key (before.map key) store)
  | [], store => ⟨[], [], rfl, by simp [evict], Or.inl rfl, fun before a h => by simp at h⟩
  | a :: queue, store => by
    unfold evict
    by_cases hfits : total weight store ≤ limit
    · rw [if_pos hfits]
      exact ⟨[], a :: queue, rfl, by simp, Or.inr hfits, fun before b h => by simp at h⟩
    · rw [if_neg hfits]
      obtain ⟨gone, left, rfl, hresult, hend, hlast⟩ := evict_spec key weight limit queue (without key [key a] store)
      refine ⟨a :: gone, left, rfl, ?_, hend, fun before b h => ?_⟩
      · rw [hresult, without_without]
        rfl
      · rcases before with _ | ⟨c, before⟩
        · simpa using hfits
        · obtain ⟨rfl, hgone⟩ := List.cons.inj h
          have hrest := hlast before b hgone
          rwa [without_without] at hrest

/-- What an eviction leaves is part of the store. -/
theorem evict_sublist (key : α → κ) (weight : α → ℕ) (limit : ℕ) (queue store : List α) :
    (evict key weight limit queue store).Sublist store := by
  obtain ⟨gone, -, -, hresult, -⟩ := evict_spec key weight limit queue store
  rw [hresult]
  exact without_sublist key _ store

end BuildEngine.Base
