import Mathlib.Tactic

/-! # Runs of a machine

A machine is a step function `step : σ → α → σ`: what an input of type `α` does to a state. An input
that is not enabled leaves the state as it is. A run is the list of its inputs. `run_invariant` is the
induction rule for properties every step keeps, `Along.invariant` the same rule for runs all of whose
steps meet a condition, `along_iff` and `iff_along_of_doomed` the rules for a condition that is exact,
`run_rel` the rule for a reflexive and transitive relation between a state and the later ones,
`run_related` the rule for two runs side by side, `run_refined` the rule for a machine whose steps are
runs of a finer one, and `Along.rank` the rule that bounds how often steps of a kind are taken. `Reaches` is a run of inputs of one kind, to say that a machine refines another. -/

namespace BuildEngine.Base.Run

variable {σ α : Type*} (step : σ → α → σ)

/-- The state after a run. -/
def run : σ → List α → σ
  | s, [] => s
  | s, a :: as => run (step s a) as

@[simp] theorem run_nil (s : σ) : run step s [] = s := rfl

@[simp] theorem run_cons (s : σ) (a : α) (as : List α) :
    run step s (a :: as) = run step (step s a) as := rfl

theorem run_append : ∀ (as bs : List α) (s : σ),
    run step s (as ++ bs) = run step (run step s as) bs
  | [], _, _ => rfl
  | a :: as, bs, s => run_append as bs (step s a)

theorem run_concat (s : σ) (as : List α) (a : α) :
    run step s (as ++ [a]) = step (run step s as) a := by
  rw [run_append]; rfl

theorem run_concat_two (s : σ) (as : List α) (a b : α) :
    run step s (as ++ [a, b]) = step (step (run step s as) a) b := by
  rw [run_append, run_cons, run_cons, run_nil]

/-- Every step of the run meets the condition `C` on the state before the step and its input. -/
def Along (C : σ → α → Prop) : σ → List α → Prop
  | _, [] => True
  | s, a :: as => C s a ∧ Along C (step s a) as

instance Along.decidable {C : σ → α → Prop} [∀ s a, Decidable (C s a)] :
    ∀ (s : σ) (as : List α), Decidable (Along step C s as)
  | _, [] => inferInstanceAs (Decidable True)
  | s, a :: as =>
    have := Along.decidable (C := C) (step s a) as
    inferInstanceAs (Decidable (C s a ∧ Along step C (step s a) as))

variable {step}

theorem Along.imp {C D : σ → α → Prop} (h : ∀ s a, C s a → D s a) :
    ∀ {as : List α} {s : σ}, Along step C s as → Along step D s as
  | [], _, hC => hC
  | a :: _, s, hC => ⟨h s a hC.1, Along.imp h hC.2⟩

/-- A condition on the inputs alone. -/
theorem Along.of_forall {C : α → Prop} : ∀ {as : List α} {s : σ}, (∀ a ∈ as, C a) → Along step (fun _ a => C a) s as
  | [], _, _ => trivial
  | a :: _, _, h => ⟨h a List.mem_cons_self, Along.of_forall fun b hb => h b (List.mem_cons_of_mem _ hb)⟩

theorem Along.append {C : σ → α → Prop} : ∀ {as bs : List α} {s : σ},
    Along step C s (as ++ bs) ↔ Along step C s as ∧ Along step C (run step s as) bs
  | [], _, _ => by simp [Along]
  | a :: as, bs, s => by
    simp only [List.cons_append, Along, run_cons, and_assoc]
    rw [Along.append]

/-- **The invariant rule**: what holds at the start and is kept by every step holds after every run. -/
theorem run_invariant {I : σ → Prop} (hstep : ∀ s a, I s → I (step s a)) :
    ∀ (as : List α) {s : σ}, I s → I (run step s as)
  | [], _, h => h
  | a :: as, s, h => run_invariant hstep as (hstep s a h)

/-- **The invariant rule under a condition on the steps.** -/
theorem Along.invariant {C : σ → α → Prop} {I : σ → Prop}
    (hstep : ∀ s a, C s a → I s → I (step s a)) :
    ∀ (as : List α) {s : σ}, Along step C s as → I s → I (run step s as)
  | [], _, _, h => h
  | a :: as, s, hC, h => Along.invariant hstep as hC.2 (hstep s a hC.1 h)

/-- The rule for properties of the steps: what an invariant says of every step is so along a run. -/
theorem Along.of_invariant {C P : σ → α → Prop} {I : σ → Prop} (hstep : ∀ s a, C s a → I s → I (step s a))
    (hP : ∀ s a, I s → P s a) : ∀ (as : List α) {s : σ}, Along step C s as → I s → Along step P s as
  | [], _, _, _ => trivial
  | a :: as, s, hC, h => ⟨hP s a h, Along.of_invariant hstep hP as hC.2 (hstep s a hC.1 h)⟩

/-- The rule for exact conditions on the steps: two conditions that agree in the states an invariant describes are
met by the same runs, if a step that meets the second keeps the invariant. -/
theorem Along.congr {C P : σ → α → Prop} {I : σ → Prop} (hiff : ∀ s a, I s → (P s a ↔ C s a))
    (hstep : ∀ s a, C s a → I s → I (step s a)) : ∀ (as : List α) {s : σ}, I s →
      (Along step P s as ↔ Along step C s as)
  | [], _, _ => Iff.rfl
  | a :: as, s, h => by
    have hhead := hiff s a h
    constructor
    · rintro ⟨hP, hrest⟩
      have hC := hhead.mp hP
      exact ⟨hC, (Along.congr hiff hstep as (hstep s a hC h)).mp hrest⟩
    · rintro ⟨hC, hrest⟩
      exact ⟨hhead.mpr hC, (Along.congr hiff hstep as (hstep s a hC h)).mpr hrest⟩

/-- **The rule for exact conditions**: if a step from a good state leads to a good state exactly when it
meets the condition, a run passes only through good states exactly when all its steps meet it. -/
theorem along_iff {C : σ → α → Prop} {P : σ → Prop} : ∀ (as : List α) {s : σ},
    (∀ a ∈ as, ∀ s, P s → (P (step s a) ↔ C s a)) → P s →
      ((∀ before after, as = before ++ after → P (run step s before)) ↔ Along step C s as)
  | [], s, _, h => by
    refine ⟨fun _ => trivial, fun _ before after heq => ?_⟩
    obtain ⟨rfl, -⟩ := List.append_eq_nil_iff.mp heq.symm
    exact h
  | a :: as, s, hstep, h => by
    have hhead := hstep a List.mem_cons_self s h
    have htail : ∀ b ∈ as, ∀ s, P s → (P (step s b) ↔ C s b) :=
      fun b hb => hstep b (List.mem_cons_of_mem _ hb)
    constructor
    · intro hall
      have hnext : P (step s a) := hall [a] as rfl
      refine ⟨hhead.mp hnext, (along_iff as htail hnext).mp fun before after heq => ?_⟩
      exact hall (a :: before) after (by rw [heq, List.cons_append])
    · rintro ⟨hC, hrest⟩ before after heq
      have hnext : P (step s a) := hhead.mpr hC
      rcases before with _ | ⟨b, before⟩
      · exact h
      · obtain ⟨rfl, hsplit⟩ := List.cons_eq_cons.mp heq
        exact (along_iff as htail hnext).mpr hrest before after hsplit

/-- The rule for exact conditions, in the states an invariant describes. -/
theorem along_iff_of_invariant {C : σ → α → Prop} {I P : σ → Prop} (hinv : ∀ s a, I s → I (step s a))
    (hstep : ∀ s a, I s → P s → (P (step s a) ↔ C s a)) (as : List α) {s : σ} (hI : I s) (h : P s) :
    (∀ before after, as = before ++ after → P (run step s before)) ↔ Along step C s as := by
  have hboth : ∀ a ∈ as, ∀ s, I s ∧ P s → (I (step s a) ∧ P (step s a) ↔ C s a) := by
    rintro a - s ⟨hI, hP⟩
    exact (and_iff_right (hinv s a hI)).trans (hstep s a hI hP)
  rw [← along_iff (P := fun s => I s ∧ P s) as hboth ⟨hI, h⟩]
  constructor
  · exact fun hall before after heq => ⟨run_invariant hinv before hI, hall before after heq⟩
  · exact fun hall before after heq => (hall before after heq).2

/-- **The rule for exact conditions at the end of a run**: if the steps that meet the condition keep the good states
good, every other step leads to a doomed state, and a doomed state stays doomed, then a run that ends as it should
has its property exactly when all its steps meet the condition. -/
theorem iff_along_of_doomed {C : σ → α → Prop} {I D E P : σ → Prop}
    (hkeep : ∀ s a, I s → C s a → I (step s a)) (hlose : ∀ s a, I s → ¬ C s a → D (step s a))
    (hdoom : ∀ s a, D s → D (step s a)) (hI : ∀ s, I s → E s → P s) (hD : ∀ s, D s → E s → ¬ P s) :
    ∀ (as : List α) {s : σ}, I s → E (run step s as) → (P (run step s as) ↔ Along step C s as)
  | [], s, h, hend => ⟨fun _ => trivial, fun _ => hI s h hend⟩
  | a :: as, s, h, hend => by
    by_cases hC : C s a
    · have hrest := iff_along_of_doomed hkeep hlose hdoom hI hD as (hkeep s a h hC) hend
      exact hrest.trans (and_iff_right hC).symm
    · have hdoomed : D (run step (step s a) as) := run_invariant hdoom as (hlose s a h hC)
      exact ⟨fun hP => absurd hP (hD _ hdoomed hend), fun hall => absurd hall.1 hC⟩

/-- A reflexive and transitive relation that every step respects relates a state to all later ones. -/
theorem run_rel {R : σ → σ → Prop} (hrefl : ∀ s, R s s) (htrans : ∀ s t u, R s t → R t u → R s u)
    (hstep : ∀ s a, R s (step s a)) : ∀ (as : List α) (s : σ), R s (run step s as)
  | [], s => hrefl s
  | a :: as, s => htrans s (step s a) _ (hstep s a) (run_rel hrefl htrans hstep as (step s a))

/-- **The rule for two runs**: a relation between the states of two machines that related inputs keep holds
after runs with related inputs. -/
theorem run_related {τ β : Type*} {step' : τ → β → τ} {R : σ → τ → Prop} {Q : α → β → Prop}
    (hstep : ∀ s t a b, R s t → Q a b → R (step s a) (step' t b)) :
    ∀ {as : List α} {bs : List β} {s : σ} {t : τ}, List.Forall₂ Q as bs → R s t →
      R (run step s as) (run step' t bs)
  | [], [], _, _, .nil, h => h
  | a :: _, b :: _, s, t, .cons hab hrest, h => by
    rw [run_cons, run_cons]
    exact run_related hstep hrest (hstep s t a b h hab)

/-- **The rule for refinement**: if every step of a machine is a run of a finer one, every run is. -/
theorem run_refined {τ β : Type*} {step' : τ → β → τ} {R : σ → τ → Prop} {Q : α → Prop}
    (hstep : ∀ s t a, R s t → Q a → ∃ bs, R (step s a) (run step' t bs)) :
    ∀ (as : List α) {s : σ} {t : τ}, (∀ a ∈ as, Q a) → R s t → ∃ bs, R (run step s as) (run step' t bs)
  | [], _, _, _, h => ⟨[], h⟩
  | a :: as, s, t, hQ, h => by
    obtain ⟨bs, hhead⟩ := hstep s t a h (hQ a List.mem_cons_self)
    obtain ⟨cs, htail⟩ := run_refined hstep as (fun b hb => hQ b (List.mem_cons_of_mem _ hb)) hhead
    refine ⟨bs ++ cs, ?_⟩
    rw [run_cons, run_append]
    exact htail

/-! ### Counting steps -/

variable (step) in
/-- The number of steps of the run of the kind `K`. -/
def countAlong (K : σ → α → Bool) : σ → List α → ℕ
  | _, [] => 0
  | s, a :: as => (K s a).toNat + countAlong K (step s a) as

theorem countAlong_eq_countP (K : α → Bool) : ∀ (as : List α) (s : σ),
    countAlong step (fun _ a => K a) s as = as.countP K
  | [], _ => rfl
  | a :: as, s => by
    rw [countAlong, countAlong_eq_countP K as, List.countP_cons, Nat.add_comm]
    rcases K a with _ | _ <;> rfl

/-- **The ranking rule**: if, up to the step that ends it, every step of the kind `K` lowers the rank and only
those of the kind `G` may raise it, by one, then a run with more steps of the kind `K` than the rank and its steps
of the kind `G` allow has reached that step. -/
theorem Along.rank {C E : σ → α → Prop} {I : σ → Prop} {K G : σ → α → Bool} {m : σ → ℕ}
    (hstep : ∀ s a, C s a → I s → ¬ E s a →
      I (step s a) ∧ m (step s a) + (K s a).toNat ≤ m s + (G s a).toNat) :
    ∀ (as : List α) {s : σ}, Along step C s as → I s → m s + countAlong step G s as < countAlong step K s as →
      ∃ before a after, as = before ++ a :: after ∧ I (run step s before) ∧ E (run step s before) a
  | [], s, _, _, hlt => absurd hlt (Nat.not_lt_zero _)
  | a :: as, s, hC, hI, hlt => by
    by_cases hE : E s a
    · exact ⟨[], a, as, rfl, hI, hE⟩
    · obtain ⟨hnext, hrank⟩ := hstep s a hC.1 hI hE
      rw [countAlong, countAlong] at hlt
      have hrest : m (step s a) + countAlong step G (step s a) as < countAlong step K (step s a) as := by omega
      obtain ⟨before, b, after, rfl, hreach, hend⟩ := Along.rank hstep as hC.2 hnext hrest
      exact ⟨a :: before, b, after, rfl, hreach, hend⟩

/-! ### Steps of one kind -/

/-- The state `t` is reached from `s` by inputs that satisfy `P`. -/
def Reaches (step : σ → α → σ) (P : α → Prop) (s t : σ) : Prop := ∃ as, (∀ a ∈ as, P a) ∧ t = run step s as

theorem Reaches.refl {P : α → Prop} (s : σ) : Reaches step P s s := ⟨[], by simp, rfl⟩

theorem Reaches.one {P : α → Prop} (s : σ) {a : α} (h : P a) : Reaches step P s (step s a) :=
  ⟨[a], by simpa using h, rfl⟩

theorem Reaches.trans {P : α → Prop} {s t u : σ} (h : Reaches step P s t) (h' : Reaches step P t u) :
    Reaches step P s u := by
  obtain ⟨as, hP, rfl⟩ := h
  obtain ⟨bs, hP', rfl⟩ := h'
  refine ⟨as ++ bs, fun a ha => ?_, (run_append step as bs s).symm⟩
  rcases List.mem_append.mp ha with ha | ha
  · exact hP a ha
  · exact hP' a ha

theorem Reaches.imp {P Q : α → Prop} {s t : σ} (h : Reaches step P s t) (himp : ∀ a, P a → Q a) :
    Reaches step Q s t := by
  obtain ⟨as, hP, ht⟩ := h
  exact ⟨as, fun a ha => himp a (hP a ha), ht⟩

/-- A reflexive and transitive relation that the inputs of the kind respect holds between the two states. -/
theorem Reaches.rel {P : α → Prop} {R : σ → σ → Prop} (hrefl : ∀ s, R s s)
    (htrans : ∀ s t u, R s t → R t u → R s u) (hstep : ∀ s a, P a → R s (step s a)) {s t : σ}
    (h : Reaches step P s t) : R s t := by
  obtain ⟨as, hP, rfl⟩ := h
  induction as generalizing s with
  | nil => exact hrefl s
  | cons a as ih =>
    have hhead := hstep s a (hP a List.mem_cons_self)
    exact htrans s (step s a) _ hhead (ih fun b hb => hP b (List.mem_cons_of_mem _ hb))

end BuildEngine.Base.Run
