import BuildEngine.Queue.Ops

/-! # The state machine of an attempt

`Edge` is the state diagram of `docs/design.md`. Every call moves the row of an attempt along an edge or
leaves its state alone (`RowStep.edge`), a terminal row keeps its state until `prune_terminal` deletes it
(`RowStep.terminal`), and `acquire_lease` never returns a terminal attempt. -/

namespace BuildEngine.Queue.StateMachine

open BuildEngine.Base BuildEngine.Base.Run BuildEngine.Agent.Protocol BuildEngine.Queue.Schema
open BuildEngine.Queue BuildEngine.Queue.Store BuildEngine.Queue.Outbox BuildEngine.Queue.Ops

/-- The edges of the state diagram. -/
inductive Edge : JobState → JobState → Prop where
  | lease : Edge .queued .leased
  | start : Edge .leased .running
  | reclaim {st : JobState} (h : st.isLeased = true) : Edge st .leased
  | requeue {st : JobState} (h : st.isLeased = true) : Edge st .queued
  | succeed : Edge .running .succeeded
  | stop {st st' : JobState} (h : st.isTerminal = false)
      (h' : st' = .failed ∨ st' = .cancelled ∨ st' = .timedOut) : Edge st st'

theorem edge_of_legalPreviousStates {st target : JobState} (h : st ∈ legalPreviousStates target) :
    Edge st target := by
  cases target <;> simp only [legalPreviousStates, List.mem_cons, List.not_mem_nil, or_false] at h
  case queued => rcases h with rfl | rfl <;> exact .requeue rfl
  case leased => subst h; exact .lease
  case running => subst h; exact .start
  case succeeded => subst h; exact .succeed
  all_goals rcases h with rfl | rfl | rfl <;> exact .stop rfl (by simp)

theorem isTerminal_of_isLeased {st : JobState} (h : st.isLeased = true) : st.isTerminal = false := by
  cases st <;> simp_all [JobState.isLeased, JobState.isTerminal]

/-- No edge leaves a terminal state. -/
theorem isTerminal_of_edge {st st' : JobState} (h : Edge st st') : st.isTerminal = false := by
  cases h with
  | lease | start | succeed => rfl
  | reclaim h | requeue h => exact isTerminal_of_isLeased h
  | stop h _ => exact h

theorem running_of_edge {st : JobState} (h : Edge st .succeeded) : st = .running := by
  cases h with
  | succeed => rfl
  | stop _ h => simp at h

/-- An eligible row is waiting, or its lease has run out. -/
theorem eligible_cases {now : Stamp} {r : JobRow} (h : eligible now r = true) :
    r.state = .queued ∨ (r.state.isLeased = true ∧ ∃ t, r.leaseExpiresAt = some t ∧ t ≤ now) := by
  unfold eligible at h
  rw [Bool.or_eq_true, Bool.and_eq_true] at h
  rcases h with h | ⟨h, ht⟩
  · exact Or.inl (by simpa using h)
  · rcases hx : r.leaseExpiresAt with _ | t
    · rw [hx] at ht; cases ht
    · rw [hx] at ht
      exact Or.inr ⟨h, t, rfl, by simpa using ht⟩

theorem isTerminal_of_eligible {now : Stamp} {r : JobRow} (h : eligible now r = true) :
    r.state.isTerminal = false := by
  rcases eligible_cases h with h | ⟨h, -⟩
  · rw [h]; rfl
  · exact isTerminal_of_isLeased h

/-! ### One call -/

/-- A call moves a row along an edge or leaves its state alone. -/
theorem RowStep.edge {op : Op} {r r' : JobRow} (h : RowStep op (some r) (some r')) :
    r'.state = r.state ∨ Edge r.state r'.state := by
  cases h with
  | keep => exact Or.inl rfl
  | lease he _ =>
    right
    rcases eligible_cases he with h | ⟨h, -⟩
    · rw [h]; exact .lease
    · exact .reclaim h
  | cancel he _ => exact Or.inr (.stop (isTerminal_of_eligible he) (by simp [cancelRow]))
  | refresh => exact Or.inl rfl
  | transition _ _ hc => exact Or.inr (edge_of_legalPreviousStates (of_transitionCheck hc).2.2.2)
  | requestCancel => exact Or.inl rfl
  | crash _ hl _ _ =>
    right
    simp only [crashRow]
    split_ifs
    · exact .stop (isTerminal_of_isLeased hl) (Or.inl rfl)
    · exact .requeue hl
  | cursor => exact Or.inl rfl

/-- A row is leased again only by `acquire_lease`, and only when its lease has run out. -/
theorem RowStep.reclaim {op : Op} {r r' : JobRow} (h : RowStep op (some r) (some r'))
    (hl : r.state.isLeased = true) (hl' : r'.state = .leased)
    (hne : r'.state ≠ r.state ∨ r'.leaseToken ≠ r.leaseToken ∨ r'.attempts ≠ r.attempts) :
    ∃ now token owner timeout t, op = .acquireLease now token owner timeout ∧
      r.leaseExpiresAt = some t ∧ t ≤ formatDatetime now := by
  cases h with
  | lease he _ =>
    rcases eligible_cases he with h | ⟨-, t, ht, hle⟩
    · rw [h] at hl; cases hl
    · exact ⟨_, _, _, _, t, rfl, ht, hle⟩
  | cancel => cases hl'
  | transition _ _ hc =>
    have hlegal := (of_transitionCheck hc).2.2.2
    simp only [transitionRow] at hl'
    subst hl'
    simp only [legalPreviousStates, List.mem_singleton] at hlegal
    rw [hlegal] at hl; cases hl
  | crash => simp only [crashRow] at hl'; split_ifs at hl'
  | keep => simp at hne
  | refresh => simp [refreshRow] at hne
  | requestCancel => simp [requestRow] at hne
  | cursor => simp [cursorRow] at hne

/-- A terminal row keeps its state, and only `prune_terminal` deletes it. -/
theorem RowStep.terminal {op : Op} {r : JobRow} {y : Option JobRow} (h : RowStep op (some r) y)
    (ht : r.state.isTerminal = true) :
    (∃ r', y = some r' ∧ r'.state = r.state) ∨ (∃ now days, op = .pruneTerminal now days) := by
  cases h with
  | keep => exact Or.inl ⟨r, rfl, rfl⟩
  | lease he _ => rw [isTerminal_of_eligible he] at ht; cases ht
  | cancel he _ => rw [isTerminal_of_eligible he] at ht; cases ht
  | refresh => exact Or.inl ⟨_, rfl, rfl⟩
  | transition _ _ hc =>
    rw [isTerminal_of_edge (edge_of_legalPreviousStates (of_transitionCheck hc).2.2.2)] at ht
    cases ht
  | requestCancel => exact Or.inl ⟨_, rfl, rfl⟩
  | crash _ hl _ _ => rw [isTerminal_of_isLeased hl] at ht; cases ht
  | delete => exact Or.inr ⟨_, _, rfl⟩
  | cursor => exact Or.inl ⟨_, rfl, rfl⟩

/-- A terminal attempt is not returned by `acquire_lease`. -/
theorem acquireLease_not_terminal {s : Store} {a : PyStr} {r : JobRow} (hr : s.db.job? a = some r)
    (ht : r.state.isTerminal = true) (now : Instant) (token owner : PyStr) (timeout : ℤ) (job : JobRecord)
    (hj : (s.acquireLease now token owner timeout).1 = .ok (some job)) : job.attemptId ≠ a := by
  rintro rfl
  obtain ⟨r', hr', he, -⟩ := acquireLease_returns hj
  cases hr.symm.trans hr'
  rw [isTerminal_of_eligible he] at ht; cases ht

/-! ### Whole runs -/

/-- The row of an attempt is in a terminal state. -/
def InTerminal (a : PyStr) (st : JobState) (s : Store) : Prop :=
  st.isTerminal = true ∧ ∃ r, s.db.job? a = some r ∧ r.state = st

/-- The call is the `prune_terminal` that deletes the row of `a`. -/
def Deletes (a : PyStr) (s : Store) (op : Op) : Prop :=
  (∃ now days, op = .pruneTerminal now days) ∧ (s.db.job? a).isSome ∧ (apply s op).db.job? a = none

/-- A terminal row stays in its state, call after call, up to the `prune_terminal` that deletes it. -/
theorem terminal_run {a : PyStr} {st : JobState} : ∀ (ops : List Op) {s : Store}, InTerminal a st s →
    InTerminal a st (run apply s ops) ∨
      ∃ before op after, ops = before ++ op :: after ∧ InTerminal a st (run apply s before) ∧
        Deletes a (run apply s before) op
  | [], _, h => Or.inl h
  | op :: ops, s, ⟨ht, r, hr, hst⟩ => by
    have hstep := rowStep s op a
    rw [hr] at hstep
    by_cases hd : Deletes a s op
    · exact Or.inr ⟨[], op, ops, rfl, ⟨ht, r, hr, hst⟩, hd⟩
    · have hkeep : InTerminal a st (apply s op) := by
        rcases RowStep.terminal hstep (hst ▸ ht) with ⟨r', hr', hst'⟩ | hp
        · exact ⟨ht, r', hr', hst'.trans hst⟩
        · rcases hr' : (apply s op).db.job? a with _ | r'
          · exact absurd ⟨hp, by rw [hr]; rfl, hr'⟩ hd
          · rw [hr'] at hstep
            rcases RowStep.edge hstep with he | he
            · exact ⟨ht, r', hr', he.trans hst⟩
            · rw [hst] at he
              rw [isTerminal_of_edge he] at ht; cases ht
      rcases terminal_run ops hkeep with h | ⟨before, op', after, rfl, h, hd'⟩
      · exact Or.inl h
      · exact Or.inr ⟨op :: before, op', after, rfl, h, hd'⟩

/-- **The attempt state machine.** In every run of the store, a call moves the row of an attempt along an
edge of the diagram or leaves its state alone; a row that was leased is leased again only by an
`acquire_lease` that finds its lease expired; a row appears as `QUEUED` and `SUCCEEDED` is entered from
`RUNNING` only; and a terminal row keeps its state, and is not returned by `acquire_lease`, up to the
`prune_terminal` that deletes it. -/
theorem attempt_state_machine (a : PyStr) (ops : List Op) :
    (∀ op r', (apply (run apply Store.empty ops) op).db.job? a = some r' →
      match (run apply Store.empty ops).db.job? a with
      | none => r'.state = .queued
      | some r =>
        (r'.state = r.state ∨ Edge r.state r'.state) ∧
        (r'.state = .succeeded → r.state = .succeeded ∨ r.state = .running) ∧
        (r.state.isLeased = true → r'.state = .leased →
          r'.state ≠ r.state ∨ r'.leaseToken ≠ r.leaseToken ∨ r'.attempts ≠ r.attempts →
          ∃ now token owner timeout t, op = .acquireLease now token owner timeout ∧
            r.leaseExpiresAt = some t ∧ t ≤ formatDatetime now)) ∧
    (∀ st, InTerminal a st (run apply Store.empty ops) → ∀ later : List Op,
      (InTerminal a st (run apply Store.empty (ops ++ later)) ∧
        ∀ now token owner timeout job,
          ((run apply Store.empty (ops ++ later)).acquireLease now token owner timeout).1 =
            .ok (some job) → job.attemptId ≠ a) ∨
      ∃ before op after, later = before ++ op :: after ∧
        InTerminal a st (run apply Store.empty (ops ++ before)) ∧
        Deletes a (run apply Store.empty (ops ++ before)) op) := by
  constructor
  · intro op r' hr'
    have hstep := rowStep (run apply Store.empty ops) op a
    rw [hr'] at hstep
    rcases hr : (run apply Store.empty ops).db.job? a with _ | r
    · rw [hr] at hstep
      cases hstep with
      | insert => rfl
    · rw [hr] at hstep
      refine ⟨RowStep.edge hstep, fun hs => ?_, RowStep.reclaim hstep⟩
      rcases RowStep.edge hstep with he | he
      · exact Or.inl (he ▸ hs)
      · exact Or.inr (running_of_edge (hs ▸ he))
  · intro st h later
    simp only [run_append]
    rcases terminal_run later h with h' | h'
    · obtain ⟨ht, r, hr, hst⟩ := h'
      exact Or.inl ⟨⟨ht, r, hr, hst⟩, fun now token owner timeout job =>
        acquireLease_not_terminal hr (by rw [hst]; exact ht) now token owner timeout job⟩
    · exact Or.inr h'

/-- A failed attempt that is assigned again. -/
theorem attempt_state_machine_reassigned :
    InTerminal sampleAttempt .failed (run apply Store.empty
      [.enqueue 0 samplePayload, .transition 1000 sampleAttempt (py "FAILED") none none none none]) ∧
    (InTerminal sampleAttempt .failed (run apply Store.empty
        ([.enqueue 0 samplePayload, .transition 1000 sampleAttempt (py "FAILED") none none none none] ++
          [.enqueue 2000 samplePayload])) ∨
      ∃ before op after, [Op.enqueue 2000 samplePayload] = before ++ op :: after ∧
        Deletes sampleAttempt (run apply Store.empty
          ([.enqueue 0 samplePayload, .transition 1000 sampleAttempt (py "FAILED") none none none none] ++
            before)) op) := by
  have h : InTerminal sampleAttempt .failed (run apply Store.empty
      [.enqueue 0 samplePayload, .transition 1000 sampleAttempt (py "FAILED") none none none none]) :=
    ⟨rfl, _, rfl, rfl⟩
  refine ⟨h, ?_⟩
  rcases (attempt_state_machine sampleAttempt _).2 .failed h [.enqueue 2000 samplePayload] with h' | h'
  · exact Or.inl h'.1
  · obtain ⟨before, op, after, hl, -, hd⟩ := h'
    exact Or.inr ⟨before, op, after, hl, hd⟩

end BuildEngine.Queue.StateMachine
