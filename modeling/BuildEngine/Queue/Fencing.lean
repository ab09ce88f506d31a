import BuildEngine.Queue.StateMachine

/-! # Lease fencing

`acquire_lease` writes a fresh token into the row of an attempt, and the calls a worker makes with its owner
name and token are accepted only while the row holds that token. `Spent t x` says that a row does not hold
`t`; a step that hands out another token keeps it (`RowStep.spent`), and so a token that has been replaced
or cleared stays refused for the rest of the run. -/

namespace BuildEngine.Queue.Fencing

open BuildEngine.Base BuildEngine.Base.Run BuildEngine.Agent.Protocol BuildEngine.Queue.Schema
open BuildEngine.Queue BuildEngine.Queue.Store BuildEngine.Queue.Ops BuildEngine.Queue.StateMachine

/-- The token of a call of `acquire_lease`. -/
def Op.token? : Op → Option PyStr
  | .acquireLease _ token _ _ => some token
  | _ => none

/-- The tokens the calls of a run got from `secrets.token_urlsafe`, in order. -/
def tokens (ops : List Op) : List PyStr := ops.filterMap Op.token?

theorem mem_tokens_cons {t : PyStr} {op : Op} {ops : List Op} :
    t ∈ tokens (op :: ops) ↔ Op.token? op = some t ∨ t ∈ tokens ops := by
  unfold tokens
  rcases h : Op.token? op with _ | t' <;> simp [h, eq_comm]

/-- Some call that presents a lease owner and the token `t` for the attempt `a` is accepted. -/
def Accepts (s : Store) (a t : PyStr) : Prop :=
  (∃ now owner timeout job, (s.refreshLease now a owner timeout (some t)).1 = .ok job) ∨
  (∃ now state error expected owner job,
    (s.transition now a state error expected (some owner) (some t)).1 = .ok job) ∨
  ∃ now error owner job, (s.recordExecutorCrash now a error (some owner) (some t)).1 = .ok job

/-- Every call that presents a lease owner and the token `t` for the attempt `a` raises `QueueError`, and
the store is the same after it. -/
def Refuses (s : Store) (a t : PyStr) : Prop :=
  (∀ now owner timeout, ∃ e, s.refreshLease now a owner timeout (some t) = (.error e, s)) ∧
  (∀ now state error expected owner, ∃ e,
    s.transition now a state error expected (some owner) (some t) = (.error e, s)) ∧
  ∀ now error owner, ∃ e, s.recordExecutorCrash now a error (some owner) (some t) = (.error e, s)

/-- The call leases the attempt, puts it back in the queue after a crash, or leaves it cancelled or in
another terminal state. -/
def Fences (a : PyStr) (s : Store) (op : Op) : Prop :=
  (∃ now token owner timeout job, op = .acquireLease now token owner timeout ∧
    (s.acquireLease now token owner timeout).1 = .ok (some job) ∧ job.attemptId = a) ∨
  (∃ now error owner token job, op = .recordExecutorCrash now a error owner token ∧
    (s.recordExecutorCrash now a error owner token).1 = .ok job) ∨
  ∃ st, InTerminal a st (apply s op)

/-- The row, if there is one, does not hold the token `t`. -/
def Spent (t : PyStr) (x : Option JobRow) : Prop := ∀ r ∈ x, r.leaseToken ≠ some t

/-! ### Acceptance -/

theorem of_sqlMatches_some {v : PyStr} {column : Option PyStr} (h : sqlMatches (some v) column = true) :
    column = some v := by simpa [sqlMatches] using h

/-- A token that is accepted is the one the row holds. -/
theorem Accepts.holds {s : Store} {a t : PyStr} (h : Accepts s a t) :
    ∃ r, s.db.job? a = some r ∧ r.leaseToken = some t := by
  by_contra hno
  have hspent : ∀ r, s.db.job? a = some r → r.leaseToken ≠ some t := fun r hr ht => hno ⟨r, hr, ht⟩
  rcases h with ⟨now, owner, timeout, job, h⟩ | ⟨now, state, error, expected, owner, job, h⟩ |
    ⟨now, error, owner, job, h⟩
  · rw [refreshLease_refuses] at h
    · cases h
    · intro r hr
      by_contra hw
      rw [Bool.not_eq_false, refreshWhere_iff] at hw
      exact hspent r hr (of_sqlMatches_some hw.2.2.2)
  · obtain ⟨target, r, -, hr, h | h⟩ := transition_returns h
    · cases h.2.2.1
    · exact hspent r hr ((of_transitionCheck h).2.2.1 t rfl)
  · rw [recordExecutorCrash_refuses] at h
    · cases h
    · intro r hr
      by_contra hw
      rw [Bool.not_eq_false, crashWhere_iff] at hw
      exact hspent r hr (of_sqlMatches_some hw.2.2.2)

theorem accepts_unique {s : Store} {a t t' : PyStr} (h : Accepts s a t) (h' : Accepts s a t') : t = t' := by
  obtain ⟨r, hr, ht⟩ := h.holds
  obtain ⟨r', hr', ht'⟩ := h'.holds
  cases hr.symm.trans hr'
  exact Option.some.inj (ht.symm.trans ht')

/-- A token the row does not hold is refused by every call. -/
theorem Spent.refuses {s : Store} {a t : PyStr} (h : Spent t (s.db.job? a)) : Refuses s a t := by
  refine ⟨fun now owner timeout => ⟨_, refreshLease_refuses ?_ now timeout⟩,
    fun now state error expected owner => ?_, fun now error owner =>
    ⟨_, recordExecutorCrash_refuses ?_ now error⟩⟩
  · intro r hr
    by_contra hw
    rw [Bool.not_eq_false, refreshWhere_iff] at hw
    exact h r hr (of_sqlMatches_some hw.2.2.2)
  · rcases hres : (s.transition now a state error expected (some owner) (some t)).1 with e | job
    · refine ⟨e, Prod.ext hres (transition_unchanged ?_ now error)⟩
      intro target r _ hr hc
      exact h r hr ((of_transitionCheck hc).2.2.1 t rfl)
    · have hacc : Accepts s a t := Or.inr (Or.inl ⟨now, state, error, expected, owner, job, hres⟩)
      obtain ⟨r, hr, ht⟩ := hacc.holds
      exact absurd ht (h r hr)
  · intro r hr
    by_contra hw
    rw [Bool.not_eq_false, crashWhere_iff] at hw
    exact h r hr (of_sqlMatches_some hw.2.2.2)

/-! ### One call -/

/-- A call that hands out another token does not bring a spent token back. -/
theorem RowStep.spent {op : Op} {x y : Option JobRow} {t : PyStr} (h : RowStep op x y) (hx : Spent t x)
    (hop : Op.token? op ≠ some t) : Spent t y := by
  rintro r' hr' ht
  cases h with
  | keep => exact hx r' hr' ht
  | insert => cases hr'; cases ht
  | lease => cases hr'; exact hop ht
  | cancel => cases hr'; cases ht
  | refresh => cases hr'; exact hx _ rfl ht
  | transition =>
    cases hr'
    simp only [transitionRow] at ht
    split_ifs at ht
    exact hx _ rfl ht
  | requestCancel => cases hr'; exact hx _ rfl ht
  | crash => cases hr'; cases ht
  | delete => cases hr'
  | cursor => cases hr'; exact hx _ rfl ht

/-- A terminal row holds no token. -/
def TerminalCleared (x : Option JobRow) : Prop :=
  ∀ r ∈ x, r.state.isTerminal = true → r.leaseToken = none

theorem RowStep.terminalCleared {op : Op} {x y : Option JobRow} (h : RowStep op x y)
    (hx : TerminalCleared x) : TerminalCleared y := by
  rintro r' hr' ht
  cases h with
  | keep => exact hx r' hr' ht
  | insert => cases hr'; cases ht
  | lease => cases hr'; cases ht
  | cancel => cases hr'; rfl
  | @refresh _ _ _ _ _ r => cases hr'; exact hx r rfl ht
  | transition =>
    cases hr'
    simp only [transitionRow] at ht ⊢
    rw [if_pos ht]
  | @requestCancel _ _ _ r => cases hr'; exact hx r rfl ht
  | crash => cases hr'; rfl
  | delete => cases hr'
  | @cursor _ _ _ r => cases hr'; exact hx r rfl ht

/-- After a fencing call the row holds no token but the one the call handed out. -/
theorem spent_of_fences {a t : PyStr} {s : Store} {op : Op} (h : Fences a s op)
    (hx : TerminalCleared (s.db.job? a)) (hop : Op.token? op ≠ some t) :
    Spent t ((apply s op).db.job? a) := by
  rcases h with ⟨now, token, owner, timeout, job, rfl, hj, rfl⟩ |
    ⟨now, error, owner, token, job, rfl, hj⟩ | ⟨st, hst, r, hr, rfl⟩
  · obtain ⟨r, -, -, -, hr', -⟩ := acquireLease_returns hj
    intro r' h' ht
    cases hr'.symm.trans h'
    exact hop ht
  · obtain ⟨r, hr, hw⟩ := recordExecutorCrash_returns hj
    intro r' h' ht
    cases (job?_recordExecutorCrash hr hw now error).symm.trans h'
    cases ht
  · intro r' h' ht
    cases hr.symm.trans h'
    rw [RowStep.terminalCleared (rowStep s op a) hx r hr hst] at ht
    cases ht

/-! ### Whole runs -/

theorem spent_run {a t : PyStr} : ∀ (ops : List Op) {s : Store}, Spent t (s.db.job? a) →
    t ∉ tokens ops → Spent t ((run apply s ops).db.job? a)
  | [], _, h, _ => h
  | op :: ops, s, h, ht => by
    rw [mem_tokens_cons, not_or] at ht
    exact spent_run ops (RowStep.spent (rowStep s op a) h ht.1) ht.2

theorem terminalCleared_run (a : PyStr) (ops : List Op) :
    TerminalCleared ((run apply Store.empty ops).db.job? a) :=
  run_invariant (I := fun s : Store => TerminalCleared (s.db.job? a))
    (fun s op h => RowStep.terminalCleared (rowStep s op a) h) ops (fun r hr => by cases hr)

/-- **Lease fencing.** In every run whose leases get fresh tokens, each attempt has at most one accepted
token at a time; and once an attempt has been leased again, put back in the queue after a crash, cancelled
or moved to a terminal state, every later call that presents a token handed out before raises and changes
nothing, so that token is never accepted again. -/
theorem lease_fencing (a : PyStr) (ops : List Op) (hfresh : (tokens ops).Nodup) :
    (∀ t t', Accepts (run apply Store.empty ops) a t → Accepts (run apply Store.empty ops) a t' →
      t = t') ∧
    ∀ before op later, ops = before ++ op :: later → Fences a (run apply Store.empty before) op →
      ∀ t ∈ tokens before, Refuses (run apply Store.empty ops) a t ∧
        ¬ Accepts (run apply Store.empty ops) a t := by
  refine ⟨fun t t' => accepts_unique, ?_⟩
  rintro before op later rfl hf t ht
  have hlater : t ∉ tokens (op :: later) := by
    rw [tokens, List.filterMap_append, List.nodup_append] at hfresh
    exact fun hm => hfresh.2.2 t ht t hm rfl
  rw [mem_tokens_cons, not_or] at hlater
  have hspent : Spent t ((run apply Store.empty (before ++ op :: later)).db.job? a) := by
    rw [run_append]
    exact spent_run later (spent_of_fences hf (terminalCleared_run a before) hlater.1) hlater.2
  refine ⟨hspent.refuses, fun hacc => ?_⟩
  obtain ⟨r, hr, h⟩ := hacc.holds
  exact hspent r hr h

/-- The lease of a first worker expires, and a second worker gets the attempt. -/
def reclaimOps : List Op :=
  [.enqueue 0 samplePayload, .acquireLease 1000000 (py "token-1") (py "worker-1") 1,
    .acquireLease 3000000 (py "token-2") (py "worker-2") 1]

/-- The first worker is refused. -/
theorem lease_fencing_reclaimed :
    (tokens reclaimOps).Nodup ∧ Refuses (run apply Store.empty reclaimOps) sampleAttempt (py "token-1") := by
  have hfresh : (tokens reclaimOps).Nodup := by decide
  refine ⟨hfresh, ((lease_fencing sampleAttempt reclaimOps hfresh).2
    [.enqueue 0 samplePayload, .acquireLease 1000000 (py "token-1") (py "worker-1") 1]
    (.acquireLease 3000000 (py "token-2") (py "worker-2") 1) [] rfl ?_ (py "token-1") (by decide)).1⟩
  exact Or.inl ⟨_, _, _, _, _, rfl, rfl, rfl⟩

end BuildEngine.Queue.Fencing
