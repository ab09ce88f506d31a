import Mathlib.Tactic

/-! # Tables with a primary key

A table is a list of rows no two of which have the same key, in the order of insertion. The
statements of a relational store are `select`, `update`, `delete` and `insert`; their effect on a
single row is read off the lookup `find?` (`find?_update`, `find?_delete`, `find?_insert`), so that
later proofs never look at the list of rows. -/

namespace BuildEngine.Base

variable {ρ κ : Type*}

/-- A table of rows `ρ` with the primary key `key`. -/
@[ext] structure Table (key : ρ → κ) where
  rows : List ρ
  nodup : (rows.map key).Nodup

namespace Table

variable {key : ρ → κ}

instance [DecidableEq ρ] : DecidableEq (Table key) := fun t u =>
  decidable_of_iff (t.rows = u.rows) Table.ext_iff.symm

/-- The empty table. -/
def empty : Table key := ⟨[], List.nodup_nil⟩

/-- The row with the key `k`. -/
def find? [DecidableEq κ] (t : Table key) (k : κ) : Option ρ := t.rows.find? fun r => key r = k

/-- Apply `f` to the rows that satisfy `p`. -/
def update (t : Table key) (p : ρ → Bool) (f : ρ → ρ) (hf : ∀ r, key (f r) = key r) : Table key where
  rows := t.rows.map fun r => if p r then f r else r
  nodup := by
    have h : (key ∘ fun r => if p r then f r else r) = key := by
      funext r
      simp only [Function.comp_apply]
      split_ifs
      · exact hf r
      · rfl
    rw [List.map_map, h]; exact t.nodup

/-- Delete the rows that satisfy `p`. -/
def delete (t : Table key) (p : ρ → Bool) : Table key where
  rows := t.rows.filter fun r => !p r
  nodup := t.nodup.sublist (List.filter_sublist.map key)

/-- Insert a row whose key is not in use. -/
def insert [DecidableEq κ] (t : Table key) (r : ρ) (h : t.find? (key r) = none) : Table key where
  rows := t.rows ++ [r]
  nodup := by
    have hr : key r ∉ t.rows.map key := by
      intro hm
      obtain ⟨r', hr', he⟩ := List.mem_map.mp hm
      have := List.find?_eq_none.mp h r' hr'
      simp [he] at this
    rw [List.map_append]
    exact List.nodup_append.mpr ⟨t.nodup, by simp, by
      intro a ha b hb
      simp only [List.map_cons, List.map_nil, List.mem_singleton] at hb
      rintro rfl
      exact hr (hb ▸ ha)⟩

/-- The rows that satisfy `p`, ordered by `le`. -/
def select (t : Table key) (p : ρ → Bool) (le : ρ → ρ → Prop) [DecidableRel le] : List ρ :=
  (t.rows.filter p).insertionSort le

/-- The first row that satisfies `p` in the order `le`. -/
def selectFirst (t : Table key) (p : ρ → Bool) (le : ρ → ρ → Prop) [DecidableRel le] : Option ρ :=
  (t.select p le).head?

/-! ### Rows -/

theorem mem_select {t : Table key} {p : ρ → Bool} {le : ρ → ρ → Prop} [DecidableRel le] {r : ρ} :
    r ∈ t.select p le ↔ r ∈ t.rows ∧ p r = true := by
  rw [select, List.mem_insertionSort, List.mem_filter]

theorem of_selectFirst {t : Table key} {p : ρ → Bool} {le : ρ → ρ → Prop} [DecidableRel le] {r : ρ}
    (h : t.selectFirst p le = some r) : r ∈ t.rows ∧ p r = true :=
  mem_select.mp (List.mem_of_mem_head? h)

theorem selectFirst_eq_none {t : Table key} {p : ρ → Bool} {le : ρ → ρ → Prop} [DecidableRel le] :
    t.selectFirst p le = none ↔ ∀ r ∈ t.rows, p r = false := by
  rw [selectFirst, List.head?_eq_none_iff, List.eq_nil_iff_forall_not_mem]
  simp [mem_select]

/-- The first row comes before every row that satisfies `p`. -/
theorem le_of_selectFirst {t : Table key} {p : ρ → Bool} {le : ρ → ρ → Prop} [DecidableRel le]
    [Std.Total le] [IsTrans ρ le] {r r' : ρ} (h : t.selectFirst p le = some r) (hr' : r' ∈ t.rows)
    (hp : p r' = true) : le r r' := by
  have hmem : r' ∈ t.select p le := mem_select.mpr ⟨hr', hp⟩
  have hsorted : (t.select p le).Pairwise le := List.pairwise_insertionSort le _
  obtain ⟨rest, hrest⟩ := List.head?_eq_some_iff.mp h
  rw [hrest] at hmem hsorted
  rcases List.mem_cons.mp hmem with rfl | hmem
  · exact (total_of le r' r').elim id id
  · exact (List.pairwise_cons.mp hsorted).1 r' hmem

/-- Without its first row, a table gives the rest. -/
theorem select_eq_tail [DecidableEq ρ] {t t' : Table key} {p : ρ → Bool} {le : ρ → ρ → Prop} [DecidableRel le]
    [Std.Total le] [IsTrans ρ le] (hanti : ∀ a ∈ t.rows, ∀ b ∈ t.rows, le a b → le b a → a = b)
    (hrows : t'.rows.filter p = (t.rows.filter p).filter fun r => t.selectFirst p le ≠ some r) :
    t'.select p le = (t.select p le).tail := by
  have hperm : (t.select p le).Perm (t.rows.filter p) := List.perm_insertionSort le _
  have hsorted : (t.select p le).Pairwise le := List.pairwise_insertionSort le _
  have hnodup : (t.select p le).Nodup := hperm.nodup_iff.mpr ((t.nodup.of_map key).filter p)
  have hmem : ∀ r ∈ t.select p le, r ∈ t.rows := fun r hr => (mem_select.mp hr).1
  have hrest : (t'.select p le).Perm (t.select p le).tail := by
    refine (List.perm_insertionSort le _).trans ?_
    rw [hrows]
    refine (hperm.symm.filter _).trans (List.Perm.of_eq ?_)
    rw [selectFirst]
    rcases hl : t.select p le with _ | ⟨r, rest⟩
    · rfl
    · rw [hl] at hnodup
      have hr : ∀ x ∈ rest, r ≠ x := (List.pairwise_cons.mp hnodup).1
      rw [List.filter_cons_of_neg (by simp)]
      exact List.filter_eq_self.mpr fun x hx => by simpa using hr x hx
  have htail : ∀ r ∈ (t.select p le).tail, r ∈ t.rows := fun r hr => hmem r (List.mem_of_mem_tail hr)
  refine hrest.eq_of_pairwise (fun a b ha hb => ?_) (List.pairwise_insertionSort le _) hsorted.tail
  exact hanti a (htail a (hrest.mem_iff.mp ha)) b (htail b hb)

@[simp] theorem mem_update {t : Table key} {p : ρ → Bool} {f : ρ → ρ} {hf : ∀ r, key (f r) = key r}
    {r : ρ} : r ∈ (t.update p f hf).rows ↔ ∃ r' ∈ t.rows, (if p r' then f r' else r') = r := by
  simp [update]

@[simp] theorem mem_delete {t : Table key} {p : ρ → Bool} {r : ρ} :
    r ∈ (t.delete p).rows ↔ r ∈ t.rows ∧ p r = false := by
  simp [delete]

/-- Updating no row changes nothing. -/
theorem update_of_none {t : Table key} {p : ρ → Bool} {f : ρ → ρ} {hf : ∀ r, key (f r) = key r}
    (h : ∀ r ∈ t.rows, p r = false) : t.update p f hf = t := by
  ext1
  show t.rows.map _ = t.rows
  conv_rhs => rw [← List.map_id t.rows]
  refine List.map_congr_left fun r hr => ?_
  simp [h r hr]

/-- An update that makes no row satisfy `q` and some row stop satisfying it lowers their number. -/
theorem countP_update_lt {t : Table key} {p q : ρ → Bool} {f : ρ → ρ} (hf : ∀ r, key (f r) = key r)
    {r : ρ} (hq : ∀ r, p r = true → q (f r) = false) (hr : r ∈ t.rows) (hp : p r = true)
    (hqr : q r = true) : (t.update p f hf).rows.countP q < t.rows.countP q := by
  obtain ⟨l₁, l₂, hl⟩ := List.append_of_mem hr
  have hle : ∀ l : List ρ, (l.map fun r => if p r then f r else r).countP q ≤ l.countP q := by
    intro l
    rw [List.countP_map]
    refine List.countP_mono_left fun x _ hx => ?_
    simp only [Function.comp_apply] at hx
    split_ifs at hx with hpx
    · rw [hq x hpx] at hx; cases hx
    · exact hx
  have h₁ := hle l₁
  have h₂ := hle l₂
  have hr' : q (if p r then f r else r) = false := by rw [if_pos hp]; exact hq r hp
  show (t.rows.map _).countP q < _
  rw [hl, List.map_append, List.map_cons, List.countP_append, List.countP_append,
    List.countP_cons_of_neg (by simp [hr']), List.countP_cons_of_pos hqr]
  omega

/-! ### Lookup -/

variable [DecidableEq κ]

@[simp] theorem find?_empty (k : κ) : (empty : Table key).find? k = none := rfl

theorem mem_of_find? {t : Table key} {k : κ} {r : ρ} (h : t.find? k = some r) : r ∈ t.rows :=
  List.mem_of_find?_eq_some h

theorem key_of_find? {t : Table key} {k : κ} {r : ρ} (h : t.find? k = some r) : key r = k := by
  have := List.find?_some h
  simpa using this

theorem find?_list_of_mem : ∀ {l : List ρ}, (l.map key).Nodup → ∀ {r : ρ}, r ∈ l →
    l.find? (fun r' => key r' = key r) = some r
  | [], _, _, h => by simp at h
  | a :: l, hn, r, h => by
    rw [List.map_cons, List.nodup_cons] at hn
    rcases List.mem_cons.mp h with rfl | h
    · simp
    · have hne : key a ≠ key r := fun he => hn.1 (he ▸ List.mem_map_of_mem h)
      rw [List.find?_cons_of_neg (by simpa using hne)]
      exact find?_list_of_mem hn.2 h

/-- A row is found under its own key. -/
theorem find?_of_mem {t : Table key} {r : ρ} (h : r ∈ t.rows) : t.find? (key r) = some r :=
  find?_list_of_mem t.nodup h

theorem find?_eq_none {t : Table key} {k : κ} : t.find? k = none ↔ ∀ r ∈ t.rows, key r ≠ k := by
  simp [find?, List.find?_eq_none]

/-- A table is determined by what its statements left of each row, and their order. -/
theorem eq_of_mem_of_key {t : Table key} {r r' : ρ} (h : r ∈ t.rows) (h' : r' ∈ t.rows)
    (he : key r = key r') : r = r' := by
  have h1 := find?_of_mem h
  rw [he, find?_of_mem h'] at h1
  exact (Option.some.inj h1).symm

/-! ### The statements, row by row -/

theorem find?_update (t : Table key) (p : ρ → Bool) (f : ρ → ρ) (hf : ∀ r, key (f r) = key r)
    (k : κ) : (t.update p f hf).find? k = (t.find? k).map fun r => if p r then f r else r := by
  have hk : ∀ r, key (if p r then f r else r) = key r := by
    intro r
    split_ifs
    · exact hf r
    · rfl
  unfold find? update
  rw [List.find?_map]
  congr 2
  funext r
  simp [hk]

theorem find?_delete (t : Table key) (p : ρ → Bool) (k : κ) :
    (t.delete p).find? k = (t.find? k).filter fun r => !p r := by
  rcases h : t.find? k with _ | r
  · rw [find?_eq_none] at h
    simp only [Option.filter_none]
    rw [find?_eq_none]
    exact fun r hr => h r (List.mem_of_mem_filter hr)
  · have hk := key_of_find? h
    have hm := mem_of_find? h
    by_cases hp : p r
    · simp only [Option.filter_some, hp, Bool.not_true, Bool.false_eq_true, if_false]
      rw [find?_eq_none]
      intro r' hr' he
      have hr'' := List.mem_filter.mp hr'
      have : r' = r := eq_of_mem_of_key hr''.1 hm (he.trans hk.symm)
      subst this
      simp [hp] at hr''
    · simp only [Option.filter_some, hp, Bool.not_false, if_true]
      have : r ∈ (t.delete p).rows := List.mem_filter.mpr ⟨hm, by simp [hp]⟩
      rw [← hk]; exact find?_of_mem this

theorem find?_insert (t : Table key) (r : ρ) (h : t.find? (key r) = none) (k : κ) :
    (t.insert r h).find? k = if key r = k then some r else t.find? k := by
  unfold find? insert
  rw [List.find?_append]
  split_ifs with hk
  · subst hk
    have := h
    unfold find? at this
    rw [this]; simp
  · simp [hk]

@[simp] theorem mem_insert {t : Table key} {r r' : ρ} {h : t.find? (key r) = none} :
    r' ∈ (t.insert r h).rows ↔ r' ∈ t.rows ∨ r' = r := by
  simp [insert]

end Table

end BuildEngine.Base
