import BuildEngine.Queue.StateMachine

/-! # Cancellation requests

`request_cancel` sets a flag in the row of an attempt; a worker observes it, or `acquire_lease` commits it.
The flag is to stay set until the row is terminal. Every statement of the store keeps it that long
(`RowStep.held`) except one: `record_executor_crash` puts an attempt back in the queue with
`cancel_requested = 0`. `Loses` names the calls that reach that statement on a row whose cancellation is
requested, and the request survives a run exactly when the run has no such call. -/

namespace BuildEngine.Queue.Cancellation

open BuildEngine.Base BuildEngine.Base.Run BuildEngine.Agent.Protocol BuildEngine.Queue.Schema
open BuildEngine.Queue BuildEngine.Queue.Store BuildEngine.Queue.Ops BuildEngine.Queue.StateMachine

/-- The cancellation of a row is requested and the row is not terminal. -/
def Pending (r : JobRow) : Prop := r.cancelRequested = true ∧ r.state.isTerminal = false

/-- The row of an attempt has a pending cancellation request. -/
def Requested (a : PyStr) (s : Store) : Prop := ∃ r, s.db.job? a = some r ∧ Pending r

/-- The request is still set, or the row is terminal. -/
def Held (a : PyStr) (s : Store) : Prop :=
  ∃ r, s.db.job? a = some r ∧ (Pending r ∨ r.state.isTerminal = true)

/-- `acquire_lease` does not return the attempt, whatever its arguments and clock. -/
def NotLeased (a : PyStr) (s : Store) : Prop :=
  ∀ now token owner timeout job,
    (s.acquireLease now token owner timeout).1 = .ok (some job) → job.attemptId ≠ a

/-- The crash of a leased row that a call puts back in the queue although its cancellation is requested. -/
def Loses (a : PyStr) (s : Store) : Op → Prop
  | .recordExecutorCrash _ a' _ owner token =>
    a' = a ∧ ∃ r, s.db.job? a = some r ∧ r.state.isLeased = true ∧
      sqlMatches owner r.leaseOwner = true ∧ sqlMatches token r.leaseToken = true ∧
      r.cancelRequested = true ∧ r.attempts < maxLocalCrashes
  | _ => False

/-- The call is `prune_terminal`. -/
def IsPrune : Op → Prop
  | .pruneTerminal _ _ => True
  | _ => False

/-- The request is kept at every point of a run. -/
def KeptAlong (a : PyStr) (s : Store) (later : List Op) : Prop :=
  ∀ before after, later = before ++ after →
    Held a (run apply s before) ∧ NotLeased a (run apply s before)

/-! ### One call -/

theorem Held.notLeased {a : PyStr} {s : Store} (h : Held a s) : NotLeased a s := by
  rintro now token owner timeout job hj rfl
  obtain ⟨r, hr, h⟩ := h
  obtain ⟨r', hr', he, hc, -⟩ := acquireLease_returns hj
  cases hr.symm.trans hr'
  rcases h with ⟨hreq, -⟩ | ht
  · rw [hc] at hreq; cases hreq
  · rw [isTerminal_of_eligible he] at ht; cases ht

/-- A call that neither prunes nor loses the request keeps a pending row pending, or ends it. -/
theorem RowStep.held {op : Op} {r : JobRow} {y : Option JobRow} (h : RowStep op (some r) y)
    (hp : Pending r) (hprune : ¬ IsPrune op)
    (hcrash : ∀ now a error owner token, op = .recordExecutorCrash now a error owner token →
      r.attemptId = a → r.state.isLeased = true → sqlMatches owner r.leaseOwner = true →
      sqlMatches token r.leaseToken = true → maxLocalCrashes ≤ r.attempts) :
    ∃ r', y = some r' ∧ (Pending r' ∨ r'.state.isTerminal = true) := by
  obtain ⟨hreq, hn⟩ := hp
  cases h with
  | keep => exact ⟨r, rfl, Or.inl ⟨hreq, hn⟩⟩
  | lease _ hc => rw [hc] at hreq; cases hreq
  | cancel => exact ⟨_, rfl, Or.inr rfl⟩
  | refresh => exact ⟨_, rfl, Or.inl ⟨hreq, hn⟩⟩
  | @transition now a state error expected owner token _ target =>
    refine ⟨_, rfl, ?_⟩
    by_cases ht : target.isTerminal = true
    · exact Or.inr ht
    · exact Or.inl ⟨by simp [transitionRow, ht, hreq], by simpa [transitionRow] using ht⟩
  | requestCancel => exact ⟨_, rfl, Or.inl ⟨rfl, hn⟩⟩
  | crash ha hl ho ht =>
    refine ⟨_, rfl, Or.inr ?_⟩
    rw [if_pos (hcrash _ _ _ _ _ rfl ha hl ho ht)]; rfl
  | delete => exact absurd trivial hprune
  | cursor => exact ⟨_, rfl, Or.inl ⟨hreq, hn⟩⟩

/-- A call that neither prunes nor loses the request keeps it. -/
theorem Held.step {a : PyStr} {s : Store} {op : Op} (h : Held a s) (hprune : ¬ IsPrune op)
    (hloses : ¬ Loses a s op) : Held a (apply s op) := by
  obtain ⟨r, hr, h⟩ := h
  have hstep := rowStep s op a
  rw [hr] at hstep
  rcases h with hp | ht
  · refine RowStep.held hstep hp hprune ?_
    rintro now a' error owner token rfl ha hl ho ht
    by_contra hlt
    exact hloses ⟨ha ▸ Db.attemptId_of_job? hr, r, hr, hl, ho, ht, hp.1, Nat.lt_of_not_le hlt⟩
  · rcases RowStep.terminal hstep ht with ⟨r', hr', hst⟩ | ⟨now, n, rfl⟩
    · exact ⟨r', hr', Or.inr (hst ▸ ht)⟩
    · exact absurd trivial hprune

/-- After a call that loses the request, the attempt waits in the queue with no request. -/
theorem not_held_of_loses {a : PyStr} {s : Store} {op : Op} (h : Loses a s op) :
    ¬ Held a (apply s op) := by
  cases op with
  | recordExecutorCrash now a' error owner token =>
    obtain ⟨rfl, r, hr, hl, ho, ht, -, hlt⟩ := h
    have hafter : (apply s (.recordExecutorCrash now a' error owner token)).db.job? a' =
        some (crashRow .queued error (formatDatetime now) r) := by
      have hw := crashWhere_iff.mpr ⟨Db.attemptId_of_job? hr, hl, ho, ht⟩
      have hj := job?_recordExecutorCrash hr hw now error
      rw [if_neg (Nat.not_le.mpr hlt)] at hj
      exact hj
    rintro ⟨r', hr', h'⟩
    cases hafter.symm.trans hr'
    rcases h' with ⟨h', -⟩ | h' <;> cases h'
  | _ => exact absurd h (by simp [Loses])

/-! ### Whole runs -/

/-- The request is kept at every point exactly if it is held there. -/
theorem keptAlong_iff_held {a : PyStr} {s : Store} {later : List Op} :
    KeptAlong a s later ↔ ∀ before after, later = before ++ after → Held a (run apply s before) := by
  constructor
  · exact fun h before after hl => (h before after hl).1
  · exact fun h before after hl => ⟨h before after hl, (h before after hl).notLeased⟩

/-- **When a cancellation request is kept.** Once the cancellation of an attempt is requested, then in
every later run of calls other than `prune_terminal` the request stays set until the row is terminal, and
`acquire_lease` never returns the attempt again, exactly if no `record_executor_crash` of the run puts the
attempt back in the queue while its cancellation is requested. -/
theorem cancellation_kept_iff (a : PyStr) (ops later : List Op)
    (hreq : Requested a (run apply Store.empty ops)) (hprune : ∀ op ∈ later, ¬ IsPrune op) :
    KeptAlong a (run apply Store.empty ops) later ↔
      Along apply (fun s op => ¬ Loses a s op) (run apply Store.empty ops) later := by
  obtain ⟨r, hr, hp⟩ := hreq
  rw [keptAlong_iff_held]
  refine along_iff later (fun op hop s h => ?_) ⟨r, hr, Or.inl hp⟩
  exact ⟨fun hheld hloses => not_held_of_loses hloses hheld, h.step (hprune op hop)⟩

/-- The calls that lead to a leased attempt whose cancellation is requested. -/
def requestedOps : List Op :=
  [.enqueue 0 samplePayload, .acquireLease 1000 (py "token-1") (py "worker-1") 120,
    .requestCancel 2000 sampleBuild none]

/-- A request is kept when the attempt fails for good. -/
theorem cancellation_kept_iff_failed :
    Requested sampleAttempt (run apply Store.empty requestedOps) ∧
    KeptAlong sampleAttempt (run apply Store.empty requestedOps)
      [.transition 3000 sampleAttempt (py "FAILED") none none (some (py "worker-1"))
        (some (py "token-1")), .enqueue 4000 samplePayload] := by
  have hreq : Requested sampleAttempt (run apply Store.empty requestedOps) := ⟨_, rfl, rfl, rfl⟩
  refine ⟨hreq, (cancellation_kept_iff sampleAttempt requestedOps _ hreq ?_).mpr ?_⟩
  · simp [IsPrune]
  · exact ⟨id, id, trivial⟩

/-- The crash of the worker that holds it. -/
def crashOp : Op :=
  .recordExecutorCrash 3000 sampleAttempt (py "boom") (some (py "worker-1")) (some (py "token-1"))

/-- A crash loses the request: the attempt waits in the queue again, and the next worker gets it. -/
theorem cancellation_lost_by_crash :
    Requested sampleAttempt (run apply Store.empty requestedOps) ∧
    (∃ r, (run apply Store.empty (requestedOps ++ [crashOp])).db.job? sampleAttempt = some r ∧
      r.state = .queued ∧ r.cancelRequested = false) ∧
    (∃ job, ((run apply Store.empty (requestedOps ++ [crashOp])).acquireLease 4000 (py "token-2")
      (py "worker-2") 120).1 = .ok (some job) ∧ job.attemptId = sampleAttempt) ∧
    ¬ KeptAlong sampleAttempt (run apply Store.empty requestedOps) [crashOp] := by
  refine ⟨⟨_, rfl, rfl, rfl⟩, ⟨_, rfl, rfl, rfl⟩, ⟨_, rfl, rfl⟩, fun h => ?_⟩
  obtain ⟨⟨r, hr, hp⟩, -⟩ := h [crashOp] [] rfl
  cases hr
  rcases hp with ⟨hp, -⟩ | hp <;> cases hp

end BuildEngine.Queue.Cancellation
