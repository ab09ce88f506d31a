import BuildEngine.Base.Replace

/-! # What a replacement leaves in place

`Aligned covered text pieces` says that the pieces are the text with some of its parts taken out, each a gap now, and
that only covered positions were taken out. Taking out the occurrences of a text keeps it, if the occurrences are
covered (`Aligned.replace`). In the rendered pieces every position that is not covered has a place, neighbours are
neighbours and the order is the same (`Aligned.places`). -/

namespace BuildEngine.Base

variable {α : Type*}

/-- The text with parts taken out at covered positions. -/
inductive Aligned : (ℕ → Prop) → List α → List (Option α) → Prop
  | nil (covered : ℕ → Prop) : Aligned covered [] []
  | keep {covered : ℕ → Prop} {text : List α} {m : List (Option α)} (c : α) :
      Aligned (fun i => covered (i + 1)) text m → Aligned covered (c :: text) (some c :: m)
  | gap {covered : ℕ → Prop} {text : List α} {m : List (Option α)} (x : List α) :
      x ≠ [] → (∀ i < x.length, covered i) → Aligned (fun i => covered (i + x.length)) text m →
      Aligned covered (x ++ text) (none :: m)

/-- The occurrences of `s` in the text are covered. -/
def Covers (s : List α) (covered : ℕ → Prop) (text : List α) : Prop :=
  ∀ start, s <+: text.drop start → ∀ i, start ≤ i → i < start + s.length → covered i

theorem aligned_map_some (covered : ℕ → Prop) : ∀ text : List α, Aligned covered text (text.map some)
  | [] => .nil covered
  | c :: text => .keep c (aligned_map_some _ text)

theorem Covers.shift {s : List α} {covered : ℕ → Prop} {x text : List α} (h : Covers s covered (x ++ text)) :
    Covers s (fun i => covered (i + x.length)) text := by
  intro start hs i hle hlt
  have hdrop : (x ++ text).drop (start + x.length) = text.drop start := by
    rw [Nat.add_comm, ← List.drop_drop, List.drop_left]
  exact h (start + x.length) (by rwa [hdrop]) (i + x.length) (by omega) (by omega)

/-! ### Replacing -/

section Replace
variable [DecidableEq α]

theorem replaceFrom_append_length (old new rest : List α) : ∀ s : List α,
    replaceFrom old new s.length (s ++ rest) = replaceFrom old new 0 rest
  | [] => rfl
  | _ :: s => replaceFrom_append_length old new rest s

/-- An occurrence in front is replaced as a whole. -/
theorem replace_old_append {old : List α} (new rest : List α) (h : old ≠ []) :
    replace old new (old ++ rest) = new ++ replace old new rest := by
  obtain ⟨c, s, rfl⟩ := List.exists_cons_of_ne_nil h
  have hp : c :: s <+: c :: (s ++ rest) := ⟨rest, rfl⟩
  unfold replace
  rw [List.cons_append, replaceFrom_of_present hp, List.length_cons, Nat.add_sub_cancel, replaceFrom_append_length]

end Replace

namespace Aligned
variable {covered : ℕ → Prop} {text : List α} {m : List (Option α)}

/-- Characters that are left in front are in front of the text. -/
theorem of_append : ∀ {s : List α} {covered : ℕ → Prop} {text : List α}, Aligned covered text (s.map some ++ m) →
    ∃ rest, text = s ++ rest ∧ Aligned (fun i => covered (i + s.length)) rest m
  | [], _, text, h => ⟨text, rfl, h⟩
  | c :: s, covered, text, h => by
    rcases h with _ | @⟨_, text, _, _, h⟩ | _
    obtain ⟨rest, rfl, hrest⟩ := of_append h
    refine ⟨rest, rfl, ?_⟩
    have heq : (fun i => covered (i + (c :: s).length)) = fun i => covered (i + s.length + 1) := rfl
    rw [heq]
    exact hrest

/-- **Taking out occurrences** that are covered. -/
theorem replace [DecidableEq α] {s : List α} (hs : s ≠ []) (h : Aligned covered text m) (hc : Covers s covered text) :
    Aligned covered text (replace (s.map some) [none] m) := by
  have hpos := List.length_pos_of_ne_nil hs
  induction hlen : m.length using Nat.strong_induction_on generalizing covered text m with
  | _ len ih =>
  subst hlen
  by_cases hp : s.map some <+: m
  · obtain ⟨n, rfl⟩ := hp
    obtain ⟨rest, rfl, hrest⟩ := h.of_append
    have hshorter : n.length < (s.map some ++ n).length := by
      rw [List.length_append, List.length_map]
      omega
    rw [replace_old_append [none] n (by simpa using hs)]
    exact .gap s hs (fun i hi => hc 0 ⟨rest, rfl⟩ i (Nat.zero_le i) (by omega)) (ih _ hshorter hrest hc.shift rfl)
  · rcases h with _ | @⟨_, text, m, c, h⟩ | @⟨_, text, m, x, hx, hcov, h⟩
    · exact .nil covered
    · have hskip : BuildEngine.Base.replace (s.map some) [none] (some c :: m) =
          some c :: BuildEngine.Base.replace (s.map some) [none] m := replaceFrom_of_absent hp
      rw [hskip]
      exact .keep c (ih _ (Nat.lt_succ_self m.length) h (hc.shift (x := [c])) rfl)
    · have hskip : BuildEngine.Base.replace (s.map some) [none] (none :: m) =
          none :: BuildEngine.Base.replace (s.map some) [none] m := replaceFrom_of_absent hp
      rw [hskip]
      exact .gap x hx hcov (ih _ (Nat.lt_succ_self m.length) h hc.shift rfl)

/-! ### Places -/

/-- Where the positions of the text that are not covered are in the rendered pieces. -/
structure Places (covered : ℕ → Prop) (text shown : List α) (place : ℕ → ℕ) : Prop where
  same : ∀ i < text.length, ¬ covered i → shown[place i]? = text[i]?
  ordered : ∀ i j, i < j → j < text.length → ¬ covered i → ¬ covered j → place i < place j
  neighbours : ∀ i, i + 1 < text.length → ¬ covered i → ¬ covered (i + 1) → place (i + 1) = place i + 1
  first : 0 < text.length → ¬ covered 0 → place 0 = 0

/-- The places when a character in front is kept. -/
def keepPlace (place : ℕ → ℕ) : ℕ → ℕ
  | 0 => 0
  | i + 1 => place i + 1

theorem places_keep (c : α) {shown : List α} {place : ℕ → ℕ}
    (h : Places (fun i => covered (i + 1)) text shown place) :
    Places covered (c :: text) (c :: shown) (keepPlace place) where
  same
    | 0, _, _ => rfl
    | i + 1, hi, hn => h.same i (Nat.lt_of_succ_lt_succ hi) hn
  ordered
    | i, 0, hij, _, _, _ => absurd hij (Nat.not_lt_zero i)
    | 0, _ + 1, _, _, _, _ => Nat.succ_pos _
    | i + 1, j + 1, hij, hj, hi', hj' =>
      Nat.succ_lt_succ (h.ordered i j (Nat.lt_of_succ_lt_succ hij) (Nat.lt_of_succ_lt_succ hj) hi' hj')
  neighbours
    | 0, hi, _, hn => congrArg Nat.succ (h.first (Nat.lt_of_succ_lt_succ hi) hn)
    | i + 1, hi, hn, hn' => congrArg Nat.succ (h.neighbours i (Nat.lt_of_succ_lt_succ hi) hn hn')
  first _ _ := rfl

theorem places_gap {x : List α} (token : List α) {shown : List α} {place : ℕ → ℕ} (hx : x ≠ [])
    (hcov : ∀ i < x.length, covered i) (h : Places (fun i => covered (i + x.length)) text shown place) :
    Places covered (x ++ text) (token ++ shown) fun i => token.length + place (i - x.length) := by
  have hback : ∀ i, ¬ covered i → ∃ k, i = k + x.length ∧ i - x.length = k := by
    intro i hi
    have hge : x.length ≤ i := not_lt.mp fun hlt => hi (hcov i hlt)
    exact ⟨i - x.length, by omega, rfl⟩
  have hpos := List.length_pos_of_ne_nil hx
  refine ⟨fun i hi hn => ?_, fun i j hij hj hi' hj' => ?_, fun i hi hn hn' => ?_, fun _ hn => ?_⟩
  · obtain ⟨k, rfl, hk⟩ := hback i hn
    rw [List.length_append] at hi
    have hsame := h.same k (by omega) hn
    rw [hk, List.getElem?_append_right (by omega), List.getElem?_append_right (by omega), Nat.add_sub_cancel_left,
      Nat.add_sub_cancel, hsame]
  · obtain ⟨k, rfl, hk⟩ := hback i hi'
    obtain ⟨l, rfl, hl⟩ := hback j hj'
    rw [List.length_append] at hj
    have hlt := h.ordered k l (by omega) (by omega) hi' hj'
    rw [hk, hl]
    omega
  · obtain ⟨k, rfl, hk⟩ := hback i hn
    rw [List.length_append] at hi
    have hnext : k + x.length + 1 = k + 1 + x.length := by omega
    rw [hnext] at hn' ⊢
    have hneighbours := h.neighbours k (by omega) hn hn'
    rw [hk, Nat.add_sub_cancel, hneighbours]
    omega
  · exact absurd (hcov 0 hpos) hn

/-- **What is not covered is shown as it is**, in the same order. -/
theorem places (token : List α) (h : Aligned covered text m) :
    ∃ place, Places covered text (render token m) place := by
  induction h with
  | nil covered =>
    exact ⟨id, fun i hi => absurd hi (Nat.not_lt_zero i), fun i j _ hj => absurd hj (Nat.not_lt_zero j),
      fun i hi => absurd hi (Nat.not_lt_zero _), fun hi => absurd hi (Nat.not_lt_zero 0)⟩
  | keep c _ ih =>
    obtain ⟨place, hplace⟩ := ih
    exact ⟨_, places_keep c hplace⟩
  | gap x hx hcov _ ih =>
    obtain ⟨place, hplace⟩ := ih
    exact ⟨_, places_gap token hx hcov hplace⟩

end Aligned

end BuildEngine.Base
