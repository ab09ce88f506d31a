import Mathlib.Tactic

/-! # Replacing a text

`replace old new s` is Python's `s.replace(old, new)`: the occurrences of `old` in `s` are replaced from
left to right, a replaced occurrence is not looked at again.

A text in which some occurrences were replaced by a token is a list of pieces: `some c` for a character that
is left, `none` for a token (`render`). Replacing by a gap removes every occurrence (`not_infix_replace`) and
brings in none (`infix_of_replace`). If the token is bracketed by two characters that the replaced text does
not have, and the text does not occur between them (`Bracketed`), replacing in the text is replacing in
the pieces (`render_replace`), and the text occurs only in the characters that are left
(`infix_render_iff`). -/

namespace BuildEngine.Base

variable {α : Type*}

section Replace
variable [DecidableEq α]

/-- The scan: `skip` characters belong to an occurrence already replaced. -/
def replaceFrom (old new : List α) : ℕ → List α → List α
  | _, [] => []
  | skip + 1, _ :: s => replaceFrom old new skip s
  | 0, c :: s =>
    if old.isPrefixOf (c :: s) then new ++ replaceFrom old new (old.length - 1) s
    else c :: replaceFrom old new 0 s

/-- `s.replace(old, new)` for a non-empty `old`. -/
def replace (old new s : List α) : List α := replaceFrom old new 0 s

theorem mem_replaceFrom {old new : List α} {c : α} : ∀ {skip : ℕ} {s : List α},
    c ∈ replaceFrom old new skip s → c ∈ new ∨ c ∈ s
  | _, [], h => by simp [replaceFrom] at h
  | skip + 1, d :: s, h => by
    rw [replaceFrom] at h
    rcases mem_replaceFrom h with h | h
    · exact Or.inl h
    · exact Or.inr (List.mem_cons_of_mem _ h)
  | 0, d :: s, h => by
    rw [replaceFrom] at h
    split_ifs at h
    · rcases List.mem_append.mp h with h | h
      · exact Or.inl h
      · rcases mem_replaceFrom h with h | h
        · exact Or.inl h
        · exact Or.inr (List.mem_cons_of_mem _ h)
    · rcases List.mem_cons.mp h with rfl | h
      · exact Or.inr List.mem_cons_self
      · rcases mem_replaceFrom h with h | h
        · exact Or.inl h
        · exact Or.inr (List.mem_cons_of_mem _ h)

/-- The characters of the result are those of the new text and of the old one. -/
theorem mem_replace {old new s : List α} {c : α} (h : c ∈ replace old new s) : c ∈ new ∨ c ∈ s :=
  mem_replaceFrom h

/-- A text that lacks a character of the old text has no occurrence of it. -/
theorem replace_of_not_mem {old new : List α} {c : α} (hc : c ∈ old) : ∀ {s : List α}, c ∉ s →
    replace old new s = s
  | [], _ => rfl
  | d :: s, h => by
    have habsent : ¬ old.isPrefixOf (d :: s) = true := fun hp =>
      h ((List.isPrefixOf_iff_prefix.mp hp).subset hc)
    have hrest : replace old new s = s := replace_of_not_mem hc fun hmem => h (List.mem_cons_of_mem d hmem)
    unfold replace at hrest ⊢
    rw [replaceFrom, if_neg habsent, hrest]

/-! ### Gaps -/

theorem isPrefixOf_iff {x s : List α} : x.isPrefixOf s = true ↔ x <+: s := List.isPrefixOf_iff_prefix

theorem replaceFrom_of_present {old new : List α} {c : α} {s : List α} (h : old <+: c :: s) :
    replaceFrom old new 0 (c :: s) = new ++ replaceFrom old new (old.length - 1) s := by
  rw [replaceFrom, if_pos (isPrefixOf_iff.mpr h)]

theorem replaceFrom_of_absent {old new : List α} {c : α} {s : List α} (h : ¬ old <+: c :: s) :
    replaceFrom old new 0 (c :: s) = c :: replaceFrom old new 0 s := by
  rw [replaceFrom, if_neg fun hp => h (isPrefixOf_iff.mp hp)]

/-- What is left in front of the first gap is a prefix. -/
theorem replaceFrom_length (old new : List α) : ∀ s : List α, replaceFrom old new s.length s = []
  | [] => rfl
  | _ :: s => replaceFrom_length old new s

/-- An old text at the end, after characters that its first one is not among. -/
theorem replace_append_old {c : α} {rest new : List α} : ∀ {s : List α}, c ∉ s →
    replace (c :: rest) new (s ++ c :: rest) = s ++ new
  | [], _ => by
    unfold replace
    rw [List.nil_append, replaceFrom_of_present (List.prefix_refl (c :: rest)), List.length_cons,
      Nat.add_sub_cancel, replaceFrom_length, List.append_nil, List.nil_append]
  | d :: s, h => by
    have hne : c ≠ d := fun heq => h (heq ▸ List.mem_cons_self)
    have habsent : ¬ c :: rest <+: d :: (s ++ c :: rest) := fun hp => hne (List.cons_prefix_cons.mp hp).1
    have hrest : replace (c :: rest) new (s ++ c :: rest) = s ++ new :=
      replace_append_old fun hmem => h (List.mem_cons_of_mem d hmem)
    unfold replace at hrest ⊢
    rw [List.cons_append, replaceFrom_of_absent habsent, hrest, List.cons_append]

theorem prefix_of_replaceFrom (old : List (Option α)) : ∀ {m : List (Option α)} {x : List α},
    x.map some <+: replaceFrom old [none] 0 m → x.map some <+: m
  | [], _, h => h
  | p :: m, [], _ => List.nil_prefix
  | p :: m, c :: x, h => by
    rw [replaceFrom] at h
    split_ifs at h
    · exact absurd (List.cons_prefix_cons.mp h).1 (by simp)
    · rw [List.map_cons] at h ⊢
      obtain ⟨hp, hx⟩ := List.cons_prefix_cons.mp h
      exact List.cons_prefix_cons.mpr ⟨hp, prefix_of_replaceFrom old hx⟩

theorem infix_of_replaceFrom {old : List (Option α)} : ∀ {skip : ℕ} {m : List (Option α)} {x : List α},
    x.map some <:+: replaceFrom old [none] skip m → x.map some <:+: m
  | _, [], _, h => by rwa [replaceFrom] at h
  | skip + 1, p :: m, x, h => by
    rw [replaceFrom] at h
    exact List.infix_cons (infix_of_replaceFrom h)
  | 0, p :: m, x, h => by
    rw [replaceFrom] at h
    split_ifs at h with hold
    · rcases List.infix_cons_iff.mp h with hp | hi
      · cases x with
        | nil => exact List.nil_infix
        | cons c x => exact absurd (List.cons_prefix_cons.mp hp).1 (by simp)
      · exact List.infix_cons (infix_of_replaceFrom hi)
    · rcases List.infix_cons_iff.mp h with hp | hi
      · refine (prefix_of_replaceFrom old ?_).isInfix
        rw [replaceFrom, if_neg hold]
        exact hp
      · exact List.infix_cons (infix_of_replaceFrom hi)

/-- Replacing by a gap brings in no text. -/
theorem infix_of_replace {old : List (Option α)} {m : List (Option α)} {x : List α}
    (h : x.map some <:+: replace old [none] m) : x.map some <:+: m := infix_of_replaceFrom h

theorem not_infix_replaceFrom {s : List α} (hs : s ≠ []) : ∀ {skip : ℕ} {m : List (Option α)},
    ¬ s.map some <:+: replaceFrom (s.map some) [none] skip m
  | _, [] => by simpa [replaceFrom] using hs
  | skip + 1, p :: m => by
    rw [replaceFrom]
    exact not_infix_replaceFrom hs
  | 0, p :: m => by
    intro h
    have hself := h
    rw [replaceFrom] at h
    split_ifs at h with hold
    · rcases List.infix_cons_iff.mp h with hp | hi
      · cases s with
        | nil => exact hs rfl
        | cons c s => exact absurd (List.cons_prefix_cons.mp hp).1 (by simp)
      · exact not_infix_replaceFrom hs hi
    · rcases List.infix_cons_iff.mp h with hp | hi
      · -- an occurrence in front would have been replaced
        have hm : s.map some <+: p :: m := by
          refine prefix_of_replaceFrom (s.map some) ?_
          rw [replaceFrom, if_neg hold]
          exact hp
        exact hold (isPrefixOf_iff.mpr hm)
      · exact not_infix_replaceFrom hs hi

/-- Replacing by a gap removes every occurrence. -/
theorem not_infix_replace {s : List α} (hs : s ≠ []) (m : List (Option α)) :
    ¬ s.map some <:+: replace (s.map some) [none] m := not_infix_replaceFrom hs

end Replace

/-! ### Rendering -/

/-- The text of some pieces. -/
def render (token : List α) : List (Option α) → List α
  | [] => []
  | some c :: m => c :: render token m
  | none :: m => token ++ render token m

section Render
variable {s token : List α}

theorem render_append (token : List α) : ∀ m n : List (Option α),
    render token (m ++ n) = render token m ++ render token n
  | [], _ => rfl
  | some c :: m, n => by simp [render, render_append token m n]
  | none :: m, n => by simp [render, render_append token m n]

theorem render_map_some (token : List α) : ∀ x : List α, render token (x.map some) = x
  | [] => rfl
  | c :: x => by simp [render, render_map_some token x]

/-- The token stands between two characters that are not in `s`, and `s` does not occur between them. -/
structure Bracketed (s token : List α) : Prop where
  nonempty : s ≠ []
  token_eq : ∃ o body c, token = o :: (body ++ [c]) ∧ o ∉ s ∧ c ∉ s ∧ ¬ s <:+: body

/-- A prefix without a character ends in front of it. -/
theorem prefix_of_append_cons {c : α} : ∀ {x body rest : List α}, c ∉ x → x <+: body ++ c :: rest →
    x <+: body
  | [], _, _, _, _ => List.nil_prefix
  | d :: x, [], rest, hc, h => by
    have := (List.cons_prefix_cons.mp h).1
    exact absurd (this ▸ List.mem_cons_self) hc
  | d :: x, e :: body, rest, hc, h => by
    obtain ⟨rfl, hx⟩ := List.cons_prefix_cons.mp h
    exact List.cons_prefix_cons.mpr ⟨rfl, prefix_of_append_cons (fun hm => hc (List.mem_cons_of_mem _ hm)) hx⟩

/-- The text does not start inside a token. -/
theorem Bracketed.not_start (h : Bracketed s token) {u rest : List α} (hu : u <:+ token) (hne : u ≠ []) :
    ¬ s <+: u ++ rest := by
  obtain ⟨o, body, c, rfl, ho, hc, hbody⟩ := h.token_eq
  intro hp
  rcases List.suffix_cons_iff.mp hu with rfl | hu
  · cases s with
    | nil => exact h.nonempty rfl
    | cons d s =>
      have := (List.cons_prefix_cons.mp hp).1
      exact ho (this ▸ List.mem_cons_self)
  · rcases List.suffix_concat_iff.mp hu with rfl | ⟨body', rfl, hb⟩
    · exact hne rfl
    · rw [List.append_assoc] at hp
      exact hbody ((prefix_of_append_cons hc hp).isInfix.trans hb.isInfix)

/-- The text in front is made of characters that are left. -/
theorem prefix_render {o : α} {body : List α} : ∀ {x : List α} {m : List (Option α)}, o ∉ x →
    x <+: render (o :: body) m → x.map some <+: m
  | [], _, _, _ => List.nil_prefix
  | c :: x, [], _, h => absurd h (by simp [render])
  | c :: x, some d :: m, ho, h => by
    obtain ⟨rfl, hx⟩ := List.cons_prefix_cons.mp h
    exact List.cons_prefix_cons.mpr ⟨rfl, prefix_render (fun hm => ho (List.mem_cons_of_mem _ hm)) hx⟩
  | c :: x, none :: m, ho, h => by
    have := (List.cons_prefix_cons.mp h).1
    exact absurd (this ▸ List.mem_cons_self) ho

theorem Bracketed.prefix_iff (h : Bracketed s token) {m : List (Option α)} :
    s <+: render token m ↔ s.map some <+: m := by
  obtain ⟨o, body, c, rfl, ho, -⟩ := h.token_eq
  constructor
  · exact prefix_render ho
  · rintro ⟨n, rfl⟩
    rw [render_append, render_map_some]
    exact List.prefix_append _ _

/-- The text occurs only in the characters that are left. -/
theorem infix_render_iff (h : Bracketed s token) : ∀ {m : List (Option α)},
    s <:+: render token m ↔ s.map some <:+: m
  | [] => by simp [render]
  | some c :: m => by
    rw [List.infix_cons_iff, ← infix_render_iff h, ← h.prefix_iff]
    exact List.infix_cons_iff
  | none :: m => by
    have hskip : ∀ u : List α, u <:+ token → (s <:+: u ++ render token m ↔ s <:+: render token m) := by
      intro u
      induction u with
      | nil => simp
      | cons d u ih =>
        intro hu
        rw [List.cons_append, List.infix_cons_iff, ih ((List.suffix_cons d u).trans hu)]
        exact or_iff_right (h.not_start hu (by simp))
    rw [List.infix_cons_iff, ← infix_render_iff h]
    refine (hskip token (List.suffix_refl _)).trans (or_iff_right ?_).symm
    intro hp
    rcases s with _ | ⟨c, s⟩
    · exact h.nonempty rfl
    · exact absurd (List.cons_prefix_cons.mp hp).1 (by simp)

variable [DecidableEq α]

/-- Nothing is replaced inside a token. -/
theorem Bracketed.replaceFrom_append (h : Bracketed s token) (rest : List α) : ∀ {u : List α},
    u <:+ token → replaceFrom s token 0 (u ++ rest) = u ++ replaceFrom s token 0 rest
  | [], _ => rfl
  | d :: u, hu => by
    have hno : ¬ s <+: d :: (u ++ rest) := h.not_start hu (by simp)
    rw [List.cons_append, replaceFrom_of_absent hno,
      h.replaceFrom_append rest ((List.suffix_cons d u).trans hu), List.cons_append]

theorem render_replaceFrom (h : Bracketed s token) : ∀ {m : List (Option α)} {skip : ℕ},
    (∀ p ∈ m.take skip, p ≠ none) →
    replaceFrom s token skip (render token m) =
      render token (replaceFrom (s.map some) [none] skip m)
  | [], skip, _ => by cases skip <;> rfl
  | some c :: m, skip + 1, hall => by
    rw [render, replaceFrom, replaceFrom]
    exact render_replaceFrom h fun p hp => hall p (List.mem_cons_of_mem _ hp)
  | none :: m, skip + 1, hall => absurd rfl (hall none List.mem_cons_self)
  | some c :: m, 0, _ => by
    rw [render]
    by_cases hp : s.map some <+: some c :: m
    · have hrest : ∀ p ∈ m.take (s.length - 1), p ≠ none := by
        -- the rest of the occurrence is made of characters that are left
        obtain ⟨n, hn⟩ := hp
        rcases s with _ | ⟨d, s⟩
        · exact absurd rfl h.nonempty
        · rw [List.map_cons, List.cons_append, List.cons.injEq] at hn
          rw [← hn.2]
          simp
      have hp' : s <+: c :: render token m := h.prefix_iff (m := some c :: m) |>.mpr hp
      rw [replaceFrom_of_present hp, replaceFrom_of_present hp', List.length_map,
        render_replaceFrom h hrest]
      rfl
    · have hp' : ¬ s <+: c :: render token m := fun hp' => hp (h.prefix_iff.mp hp')
      rw [replaceFrom_of_absent hp, replaceFrom_of_absent hp', render_replaceFrom h (by simp)]
      rfl
  | none :: m, 0, _ => by
    have hno : ¬ s.map some <+: none :: m := by
      intro hp
      rcases s with _ | ⟨c, s⟩
      · exact h.nonempty rfl
      · exact absurd (List.cons_prefix_cons.mp hp).1 (by simp)
    rw [render, h.replaceFrom_append _ (List.suffix_refl _), render_replaceFrom h (by simp),
      replaceFrom_of_absent hno]
    rfl

/-- Replacing in the text is replacing in the pieces. -/
theorem render_replace (h : Bracketed s token) (m : List (Option α)) :
    replace s token (render token m) = render token (replace (s.map some) [none] m) :=
  render_replaceFrom h (by simp)

end Render

/-! ### Concatenations -/

/-- What occurs in a concatenation occurs in one of the parts, or is cut by a boundary between them. -/
theorem infix_flatten {x : List α} (hx : x ≠ []) : ∀ {parts : List (List α)}, x <:+: parts.flatten →
    (∃ part ∈ parts, x <:+: part) ∨ ∃ before after y z, parts = before ++ after ∧ y ≠ [] ∧ z ≠ [] ∧
      x = y ++ z ∧ y <:+ before.flatten ∧ z <+: after.flatten
  | [], h => absurd (List.infix_nil.mp h) hx
  | part :: parts, h => by
    rw [List.flatten_cons] at h
    rcases List.infix_append_iff_ne_nil.mp h with hp | hrest | ⟨y, z, hy, hz, rfl, hyp, hzp⟩
    · exact Or.inl ⟨part, List.mem_cons_self, hp⟩
    · rcases infix_flatten hx hrest with ⟨p, hp, hi⟩ | ⟨before, after, y, z, rfl, hy, hz, rfl, hyp, hzp⟩
      · exact Or.inl ⟨p, List.mem_cons_of_mem _ hp, hi⟩
      · exact Or.inr ⟨part :: before, after, y, z, rfl, hy, hz, rfl,
          hyp.trans (List.suffix_append part before.flatten), hzp⟩
    · exact Or.inr ⟨[part], parts, y, z, rfl, hy, hz, rfl, by simpa using hyp, hzp⟩

end BuildEngine.Base
