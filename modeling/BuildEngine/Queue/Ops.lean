import BuildEngine.Base.Run
import BuildEngine.Queue.Outbox

/-! # Runs of the store

`Op` is a call of a public operation of the store or its outbox, with the clock readings and the token it
gets from outside; `apply` is the store after it. `RowStep op x y` says everything a call `op` can do to
the row of one attempt: `x` is the row before and `y` the row after, `none` for no row (`rowStep`). Every
invariant of the jobs table is derived from this one relation. -/

namespace BuildEngine.Queue.Ops

open BuildEngine.Base BuildEngine.Base.Json BuildEngine.Base.Run BuildEngine.Agent.Protocol BuildEngine.Queue.Schema
open BuildEngine.Queue BuildEngine.Queue.Store BuildEngine.Queue.Outbox

/-- A call of a public operation. -/
inductive Op where
  | enqueue (now : Instant) (payload : List (PyStr × Json))
  | acquireLease (now : Instant) (token leaseOwner : PyStr) (timeout : ℤ)
  | refreshLease (now : Instant) (attemptId leaseOwner : PyStr) (timeout : ℤ)
      (leaseToken : Option PyStr)
  | transition (now : Instant) (attemptId state : PyStr)
      (error expectedState leaseOwner leaseToken : Option PyStr)
  | requestCancel (now : Instant) (buildJobId : PyStr) (attemptId : Option PyStr)
  | recordExecutorCrash (now : Instant) (attemptId error : PyStr) (leaseOwner leaseToken : Option PyStr)
  | pruneTerminal (now : Instant) (retentionDays : ℤ)
  | append (cfg : OutboxConfig) (clock : AppendClock) (e : Envelope)
  | ackThrough (attemptId : PyStr) (lastSeq : ℕ)
  | prune (cfg : OutboxConfig) (now : Instant)
  | restart

/-- The store after a call. -/
def apply (s : Store) : Op → Store
  | .enqueue now payload => (s.enqueue now payload).2
  | .acquireLease now token owner timeout => (s.acquireLease now token owner timeout).2
  | .refreshLease now a owner timeout token => (s.refreshLease now a owner timeout token).2
  | .transition now a state error expected owner token =>
    (s.transition now a state error expected owner token).2
  | .requestCancel now b a => (s.requestCancel now b a).2
  | .recordExecutorCrash now a error owner token => (s.recordExecutorCrash now a error owner token).2
  | .pruneTerminal now retention => (s.pruneTerminal now retention).2
  | .append cfg clock e => { s with db := (append cfg clock e s.db).2 }
  | .ackThrough a n => { s with db := (ackThrough a n s.db).2 }
  | .prune cfg now => { s with db := (pruneSync cfg now s.db).2 }
  | .restart => s.restart

/-- What a call can do to the row of an attempt. -/
inductive RowStep : Op → Option JobRow → Option JobRow → Prop where
  | keep (op : Op) (x : Option JobRow) : RowStep op x x
  | insert {now : Instant} {payload : List (PyStr × Json)} (rowid : ℕ) (b a text : PyStr) :
      RowStep (.enqueue now payload) none (some (newRow rowid b a text (formatDatetime now)))
  | lease {now : Instant} {token owner : PyStr} {timeout : ℤ} {r : JobRow}
      (he : eligible (formatDatetime now) r = true) (hc : r.cancelRequested = false) :
      RowStep (.acquireLease now token owner timeout) (some r)
        (some (leaseRow owner token (formatDatetime (now + seconds timeout)) (formatDatetime now) r))
  | cancel {now : Instant} {token owner : PyStr} {timeout : ℤ} {r : JobRow}
      (he : eligible (formatDatetime now) r = true) (hc : r.cancelRequested = true) :
      RowStep (.acquireLease now token owner timeout) (some r)
        (some (cancelRow (formatDatetime now) r))
  | refresh {now : Instant} {a owner : PyStr} {timeout : ℤ} {token : Option PyStr} {r : JobRow}
      (ha : r.attemptId = a) (hl : r.state.isLeased = true) (ho : r.leaseOwner = some owner)
      (ht : sqlMatches token r.leaseToken = true) :
      RowStep (.refreshLease now a owner timeout token) (some r)
        (some (refreshRow (formatDatetime (now + seconds timeout)) (formatDatetime now) r))
  | transition {now : Instant} {a state : PyStr} {error expected owner token : Option PyStr}
      {r : JobRow} {target : JobState} (ha : r.attemptId = a) (hs : JobState.ofText? state = some target)
      (hc : transitionCheck target expected owner token r = none) :
      RowStep (.transition now a state error expected owner token) (some r)
        (some (transitionRow target error (formatDatetime now) r))
  | requestCancel {now : Instant} {b : PyStr} {a : Option PyStr} {r : JobRow}
      (hb : r.buildJobId = b) (ha : a.all (r.attemptId = ·) = true) (hn : r.state.isTerminal = false) :
      RowStep (.requestCancel now b a) (some r)
        (some (requestRow (formatDatetime now) r))
  | crash {now : Instant} {a error : PyStr} {owner token : Option PyStr} {r : JobRow}
      (ha : r.attemptId = a) (hl : r.state.isLeased = true) (ho : sqlMatches owner r.leaseOwner = true)
      (ht : sqlMatches token r.leaseToken = true) :
      RowStep (.recordExecutorCrash now a error owner token) (some r)
        (some (crashRow (if r.attempts ≥ maxLocalCrashes then .failed else .queued) error
          (formatDatetime now) r))
  | delete {now : Instant} {retention : ℤ} {r : JobRow} (ht : r.state.isTerminal = true)
      (hu : r.updatedAt < formatDatetime (now - days retention)) :
      RowStep (.pruneTerminal now retention) (some r) none
  | cursor {cfg : OutboxConfig} {clock : AppendClock} {e : Envelope} {r : JobRow} {seq : ℕ}
      (ha : e.attemptId = some r.attemptId) (hs : e.seq = some seq) :
      RowStep (.append cfg clock e) (some r)
        (some (cursorRow seq (formatDatetime clock.updated) r))

/-! ### Statements that name an attempt -/

/-- A row updated by a statement that names the attempt. -/
theorem job?_update_of_guard {db : Db} {a : PyStr} {r : JobRow} {p : JobRow → Bool}
    {f : JobRow → JobRow} {h : ∀ r, (f r).attemptId = r.attemptId} (hr : db.job? a = some r)
    (hp : p r = true) : (db.updateJobs p f h).job? a = some (f r) := by
  rw [Db.job?_updateJobs, hr]; simp [hp]

/-- A row of another attempt is left alone by a statement that names the attempt. -/
theorem job?_update_of_ne {db : Db} {a : PyStr} {p : JobRow → Bool} {f : JobRow → JobRow}
    {hf : ∀ r, (f r).attemptId = r.attemptId} (hp : ∀ r, r.attemptId = a → p r = false) :
    (db.updateJobs p f hf).job? a = db.job? a := by
  rw [Db.job?_updateJobs]
  rcases hr : db.job? a with _ | r
  · rfl
  · simp [hp r (Db.attemptId_of_job? hr)]

/-! ### `acquire_lease` -/

/-- What the loop of `acquire_lease` does: it cancels eligible rows whose cancellation is requested,
and the row it stops at is eligible and has no such request. -/
structure LoopSpec (now : Stamp) (db db' : Db) (found : Option JobRow) : Prop where
  rows : ∀ a, db'.job? a = db.job? a ∨ ∃ r, db.job? a = some r ∧ eligible now r = true ∧
    r.cancelRequested = true ∧ db'.job? a = some (cancelRow now r)
  found : ∀ r, found = some r → db'.job? r.attemptId = some r ∧ eligible now r = true ∧
    r.cancelRequested = false

theorem eligible_cancelRow (now : Stamp) (r : JobRow) : eligible now (cancelRow now r) = false := rfl

theorem selectFirst_job? {db : Db} {p : JobRow → Bool} {r : JobRow}
    (h : db.jobs.selectFirst p leaseOrder = some r) : db.job? r.attemptId = some r ∧ p r = true := by
  obtain ⟨hm, hp⟩ := Table.of_selectFirst h
  exact ⟨Table.find?_of_mem hm, hp⟩

theorem acquireLoop_spec {now : Stamp} : ∀ {fuel : ℕ} {db db' : Db} {found : Option JobRow},
    acquireLoop now fuel db = some (db', found) → LoopSpec now db db' found
  | 0, _, _, _, h => by simp [acquireLoop] at h
  | fuel + 1, db, db', found, h => by
    rw [acquireLoop] at h
    split at h
    · simp only [Option.some.injEq, Prod.mk.injEq] at h
      obtain ⟨rfl, rfl⟩ := h
      exact ⟨fun a => Or.inl rfl, by simp⟩
    · next row hrow =>
      obtain ⟨hj, he⟩ := selectFirst_job? hrow
      split_ifs at h with hc
      · obtain ⟨hrows, hfound⟩ := acquireLoop_spec h
        refine ⟨fun a => ?_, hfound⟩
        have ha := hrows a
        rw [Db.job?_updateJobs] at ha
        by_cases hk : a = row.attemptId
        · subst hk
          simp only [hj, Option.map_some, decide_true, if_true, Option.some.injEq,
            exists_eq_left'] at ha
          -- a row the loop has cancelled is not eligible again
          rcases ha with ha | ⟨he', -, -⟩
          · exact Or.inr ⟨row, hj, he, hc, ha⟩
          · rw [eligible_cancelRow] at he'; cases he'
        · rcases hr : db.job? a with _ | r
          · left; rw [hr] at ha; simpa using ha
          · have hra : r.attemptId ≠ row.attemptId := by rw [Db.attemptId_of_job? hr]; exact hk
            rw [hr] at ha
            simpa [hra] using ha
      · simp only [Option.some.injEq, Prod.mk.injEq] at h
        obtain ⟨rfl, rfl⟩ := h
        refine ⟨fun a => Or.inl rfl, fun r hr => ?_⟩
        cases hr
        exact ⟨hj, he, by simpa using hc⟩

/-- The row the loop stops at is as it was before. -/
theorem LoopSpec.found_eq {now : Stamp} {db db' : Db} {r : JobRow} (h : LoopSpec now db db' (some r)) :
    db.job? r.attemptId = some r := by
  obtain ⟨hj, he, -⟩ := h.found r rfl
  rcases h.rows r.attemptId with ha | ⟨r', -, -, -, ha⟩
  · rw [← ha]; exact hj
  · rw [hj, Option.some.injEq] at ha
    rw [ha, eligible_cancelRow] at he; cases he

/-- A loop with more fuel than there are eligible rows ends: each turn but the last cancels one. -/
theorem acquireLoop_isSome {now : Stamp} : ∀ {fuel : ℕ} {db : Db},
    db.jobs.rows.countP (eligible now) < fuel → (acquireLoop now fuel db).isSome
  | 0, _, h => by omega
  | fuel + 1, db, h => by
    rw [acquireLoop]
    split
    · rfl
    · next row hrow =>
      obtain ⟨hm, he⟩ := Table.of_selectFirst hrow
      split_ifs
      · refine acquireLoop_isSome (lt_of_lt_of_le ?_ (Nat.lt_succ_iff.mp h))
        exact Table.countP_update_lt (attemptId_cancelRow now)
          (fun r _ => eligible_cancelRow now r) hm (by simp) he
      · rfl

/-- What `acquire_lease` does to a row. -/
theorem rowStep_acquireLease (s : Store) (now : Instant) (token owner : PyStr) (timeout : ℤ) (a : PyStr) :
    RowStep (.acquireLease now token owner timeout) (s.db.job? a)
      ((s.acquireLease now token owner timeout).2.db.job? a) := by
  unfold acquireLease
  simp only
  split
  · exact .keep _ _
  · next db hl =>
    rcases (acquireLoop_spec hl).rows a with h | ⟨r, hr, he, hc, h⟩
    · show RowStep _ _ (db.job? a)
      rw [h]; exact .keep _ _
    · show RowStep _ _ (db.job? a)
      rw [h, hr]; exact .cancel he hc
  · next db row hl =>
    have hspec := acquireLoop_spec hl
    have hstep : RowStep (.acquireLease now token owner timeout) (s.db.job? a)
        ((db.updateJobs (fun r => r.attemptId = row.attemptId)
          (leaseRow owner token (formatDatetime (now + seconds timeout)) (formatDatetime now))
          (attemptId_leaseRow _ _ _ _)).job? a) := by
      rw [Db.job?_updateJobs]
      by_cases hk : a = row.attemptId
      · subst hk
        obtain ⟨hj, he, hc⟩ := hspec.found row rfl
        rw [hj, hspec.found_eq]
        simpa using RowStep.lease he hc
      · rcases hspec.rows a with h | ⟨r, hr, he, hc, h⟩
        · rw [h]
          rcases hr : s.db.job? a with _ | r
          · exact .keep _ _
          · have hra : r.attemptId ≠ row.attemptId := by rw [Db.attemptId_of_job? hr]; exact hk
            simpa [hra] using RowStep.keep _ (some r)
        · have hra : (cancelRow (formatDatetime now) r).attemptId ≠ row.attemptId := by
            show r.attemptId ≠ _
            rw [Db.attemptId_of_job? hr]; exact hk
          rw [h, hr]
          simpa [hra] using RowStep.cancel he hc
    split <;> exact hstep

/-- **What `acquire_lease` returns**: the row of the attempt was eligible and no cancellation of it was
requested, and the record is that of the row with the new owner and token. -/
theorem acquireLease_returns {s : Store} {now : Instant} {token owner : PyStr} {timeout : ℤ}
    {job : JobRecord} (h : (s.acquireLease now token owner timeout).1 = .ok (some job)) :
    ∃ r, s.db.job? job.attemptId = some r ∧ eligible (formatDatetime now) r = true ∧
      r.cancelRequested = false ∧
      (s.acquireLease now token owner timeout).2.db.job? job.attemptId =
        some (leaseRow owner token (formatDatetime (now + seconds timeout)) (formatDatetime now) r) ∧
      job = (s.acquireLease now token owner timeout).2.record
        (leaseRow owner token (formatDatetime (now + seconds timeout)) (formatDatetime now) r) := by
  unfold acquireLease at h ⊢
  simp only at h ⊢
  split at h
  · cases h
  · cases h
  · next db row hl =>
    have hspec := acquireLoop_spec hl
    obtain ⟨hj, he, hc⟩ := hspec.found row rfl
    have hj' : (db.updateJobs (fun r => r.attemptId = row.attemptId)
        (leaseRow owner token (formatDatetime (now + seconds timeout)) (formatDatetime now))
        (attemptId_leaseRow _ _ _ _)).job? row.attemptId = some
          (leaseRow owner token (formatDatetime (now + seconds timeout)) (formatDatetime now) row) :=
      job?_update_of_guard hj (by simp)
    split at h
    · cases h
    · next refreshed hr =>
      simp only [Except.ok.injEq, Option.some.injEq] at h
      rw [jobRow, hj', Option.filter_eq_some_iff] at hr
      obtain ⟨hr, hb⟩ := hr
      cases hr
      have ha : job.attemptId = row.attemptId := by rw [← h, attemptId_record]; rfl
      rw [ha]
      refine ⟨row, hspec.found_eq, he, hc, ?_, ?_⟩
      · exact hj'
      · exact h.symm

/-! ### The guarded calls -/

theorem refreshWhere_iff {a owner : PyStr} {token : Option PyStr} {r : JobRow} :
    refreshWhere a owner token r = true ↔ r.attemptId = a ∧ r.state.isLeased = true ∧
      r.leaseOwner = some owner ∧ sqlMatches token r.leaseToken = true := by
  simp only [refreshWhere, Bool.and_eq_true, decide_eq_true_eq]
  tauto

theorem crashWhere_iff {a : PyStr} {owner token : Option PyStr} {r : JobRow} :
    crashWhere a owner token r = true ↔ r.attemptId = a ∧ r.state.isLeased = true ∧
      sqlMatches owner r.leaseOwner = true ∧ sqlMatches token r.leaseToken = true := by
  simp only [crashWhere, Bool.and_eq_true, decide_eq_true_eq]
  tauto

theorem sqlMatches_of_forall {parameter column : Option PyStr}
    (h : ∀ x ∈ parameter, column = some x) : sqlMatches parameter column = true := by
  cases parameter with
  | none => rfl
  | some v => simpa [sqlMatches] using h v rfl

/-- A row that passes the checks of `transition` is the one its `UPDATE` names. -/
theorem transitionWhere_of_check {target : JobState} {expected owner token : Option PyStr} {r : JobRow}
    (h : transitionCheck target expected owner token r = none) :
    transitionWhere r.attemptId r.state owner token r = true := by
  obtain ⟨-, ho, ht, -⟩ := of_transitionCheck h
  simp [transitionWhere, sqlMatches_of_forall ho, sqlMatches_of_forall ht]

/-- `refresh_lease` of a leased row by its owner. -/
theorem refreshLease_accepts {s : Store} {a owner : PyStr} {token : Option PyStr} {r : JobRow}
    (hr : s.db.job? a = some r) (hw : refreshWhere a owner token r = true) (now : Instant) (timeout : ℤ) :
    ∃ s' : Store, s.refreshLease now a owner timeout token = (.ok (s'.record
        (refreshRow (formatDatetime (now + seconds timeout)) (formatDatetime now) r)), s') ∧
      s'.db = s.db.updateJobs (refreshWhere a owner token)
        (refreshRow (formatDatetime (now + seconds timeout)) (formatDatetime now))
        (attemptId_refreshRow _ _) := by
  unfold refreshLease
  dsimp only
  rw [if_pos (by rw [hr]; exact hw), job?_update_of_guard hr hw]
  exact ⟨_, rfl, rfl⟩

/-- `refresh_lease` in every other case raises and changes nothing. -/
theorem refreshLease_refuses {s : Store} {a owner : PyStr} {token : Option PyStr}
    (h : ∀ r, s.db.job? a = some r → refreshWhere a owner token r = false) (now : Instant) (timeout : ℤ) :
    s.refreshLease now a owner timeout token = (.error .cannotRefresh, s) := by
  unfold refreshLease
  dsimp only
  rw [if_neg]
  rcases hr : s.db.job? a with _ | r
  · simp
  · simp [h r hr]

/-- `record_executor_crash` of a leased row by its holder. -/
theorem recordExecutorCrash_accepts {s : Store} {a : PyStr} {owner token : Option PyStr} {r : JobRow}
    (hr : s.db.job? a = some r) (hw : crashWhere a owner token r = true) (now : Instant) (error : PyStr) :
    ∃ s' : Store, s.recordExecutorCrash now a error owner token = (.ok (s'.record
        (crashRow (if r.attempts ≥ maxLocalCrashes then .failed else .queued) error
          (formatDatetime now) r)), s') ∧
      s'.db = (if r.attempts ≥ maxLocalCrashes then
          s.db.insertOrIgnoreDlq (deadLetter error (formatDatetime now) r) else s.db).updateJobs
        (crashWhere a owner token)
        (crashRow (if r.attempts ≥ maxLocalCrashes then .failed else .queued) error
          (formatDatetime now)) (attemptId_crashRow _ _ _) := by
  unfold recordExecutorCrash
  dsimp only
  rw [hr, Option.filter_some, if_pos hw]
  dsimp only
  split_ifs with hn
  · rw [job?_update_of_guard ((Db.job?_insertOrIgnoreDlq s.db _ a).trans hr) hw]
    exact ⟨_, rfl, rfl⟩
  · rw [job?_update_of_guard hr hw]
    exact ⟨_, rfl, rfl⟩

/-- The row after an accepted `record_executor_crash`. -/
theorem job?_recordExecutorCrash {s : Store} {a : PyStr} {owner token : Option PyStr} {r : JobRow}
    (hr : s.db.job? a = some r) (hw : crashWhere a owner token r = true) (now : Instant) (error : PyStr) :
    (s.recordExecutorCrash now a error owner token).2.db.job? a =
      some (crashRow (if r.attempts ≥ maxLocalCrashes then .failed else .queued) error
        (formatDatetime now) r) := by
  obtain ⟨s', hs', hdb⟩ := recordExecutorCrash_accepts hr hw now error
  rw [hs', hdb]
  refine job?_update_of_guard ?_ hw
  split_ifs
  · rw [Db.job?_insertOrIgnoreDlq, hr]
  · exact hr

/-- `record_executor_crash` in every other case raises and changes nothing. -/
theorem recordExecutorCrash_refuses {s : Store} {a : PyStr} {owner token : Option PyStr}
    (h : ∀ r, s.db.job? a = some r → crashWhere a owner token r = false) (now : Instant) (error : PyStr) :
    s.recordExecutorCrash now a error owner token = (.error .crashUnknown, s) := by
  unfold recordExecutorCrash
  dsimp only
  rcases hr : s.db.job? a with _ | r
  · rfl
  · rw [Option.filter_some, if_neg (by simp [h r hr])]

/-- `transition` of a row that passes its checks. -/
theorem transition_accepts {s : Store} {a state : PyStr} {expected owner token : Option PyStr}
    {r : JobRow} {target : JobState} (hs : JobState.ofText? state = some target)
    (hr : s.db.job? a = some r) (hc : transitionCheck target expected owner token r = none)
    (now : Instant) (error : Option PyStr) :
    ∃ s' : Store, s.transition now a state error expected owner token =
        (.ok (s'.record (transitionRow target error (formatDatetime now) r)), s') ∧
      s'.db = s.db.updateJobs (transitionWhere a r.state owner token)
        (transitionRow target error (formatDatetime now)) (attemptId_transitionRow _ _ _) := by
  have hw := transitionWhere_of_check hc
  rw [Db.attemptId_of_job? hr] at hw
  unfold transition
  rw [hs, hr]
  dsimp only
  rw [hc]
  dsimp only
  rw [if_pos hw, job?_update_of_guard hr hw]
  exact ⟨_, rfl, rfl⟩

/-- A call of `transition` that returns: the row was already in the state and no guard was given, or
it passed the checks. -/
theorem transition_returns {s : Store} {now : Instant} {a state : PyStr}
    {error expected owner token : Option PyStr} {job : JobRecord}
    (h : (s.transition now a state error expected owner token).1 = .ok job) :
    ∃ target r, JobState.ofText? state = some target ∧ s.db.job? a = some r ∧
      ((r.state = target ∧ expected = none ∧ owner = none ∧ token = none ∧
          (s.transition now a state error expected owner token).2 = s) ∨
        transitionCheck target expected owner token r = none) := by
  unfold transition at h ⊢
  split at h
  · cases h
  · next target hs =>
    split at h
    · cases h
    · next r hr =>
      split at h
      · cases h
      · next hc =>
        refine ⟨target, r, hs, hr, Or.inl ?_⟩
        unfold transitionCheck at hc
        split_ifs at hc with hx ho ht hst hn hl <;> simp only [Option.some.injEq, reduceCtorEq] at hc
        simp only [Bool.and_eq_true, Option.isNone_iff_eq_none] at hn
        exact ⟨hst, hn.1.1, hn.1.2, hn.2, rfl⟩
      · next hc => exact ⟨target, r, hs, hr, Or.inr hc⟩

/-- A call of `record_executor_crash` that returns found the row leased to its caller. -/
theorem recordExecutorCrash_returns {s : Store} {now : Instant} {a error : PyStr}
    {owner token : Option PyStr} {job : JobRecord}
    (h : (s.recordExecutorCrash now a error owner token).1 = .ok job) :
    ∃ r, s.db.job? a = some r ∧ crashWhere a owner token r = true := by
  by_contra hno
  rw [recordExecutorCrash_refuses] at h
  · cases h
  · intro r hr
    by_contra hw
    exact hno ⟨r, hr, by simpa using hw⟩

/-- A call of `transition` that does not pass the checks changes nothing. -/
theorem transition_unchanged {s : Store} {a state : PyStr} {expected owner token : Option PyStr}
    (h : ∀ target r, JobState.ofText? state = some target → s.db.job? a = some r →
      transitionCheck target expected owner token r ≠ none) (now : Instant) (error : Option PyStr) :
    (s.transition now a state error expected owner token).2 = s := by
  unfold transition
  split
  · rfl
  · next target hs =>
    split
    · rfl
    · next r hr =>
      split
      · rfl
      · rfl
      · next hc => exact absurd hc (h target r hs hr)

/-- A call of `transition` that raises changes nothing. -/
theorem transition_raises {s : Store} {now : Instant} {a state : PyStr}
    {error expected owner token : Option PyStr} {err : QueueError}
    (h : (s.transition now a state error expected owner token).1 = .error err) :
    (s.transition now a state error expected owner token).2 = s := by
  refine transition_unchanged (fun target r hs hr hc => ?_) now error
  obtain ⟨s', hs', -⟩ := transition_accepts hs hr hc now error
  rw [hs'] at h
  cases h

/-- The call is a `transition` to `target` that the row of its attempt passes. -/
def transits (target : JobState) (s : Store) : Op → Bool
  | .transition _ a state _ expected owner token =>
    JobState.ofText? state = some target &&
      (s.db.job? a).any fun r => (transitionCheck target expected owner token r).isNone
  | _ => false

theorem transits_iff {target : JobState} {s : Store} {now : Instant} {a state : PyStr}
    {error expected owner token : Option PyStr} :
    transits target s (.transition now a state error expected owner token) = true ↔
      JobState.ofText? state = some target ∧
        ∃ r, s.db.job? a = some r ∧ transitionCheck target expected owner token r = none := by
  simp [transits, Option.any_eq_true]

theorem rowStep_refreshLease (s : Store) (now : Instant) (a' owner : PyStr) (timeout : ℤ)
    (token : Option PyStr) (a : PyStr) :
    RowStep (.refreshLease now a' owner timeout token) (s.db.job? a)
      ((s.refreshLease now a' owner timeout token).2.db.job? a) := by
  by_cases h : ∃ r, s.db.job? a' = some r ∧ refreshWhere a' owner token r = true
  · obtain ⟨r, hr, hw⟩ := h
    obtain ⟨s', hs', hdb⟩ := refreshLease_accepts hr hw now timeout
    rw [hs', hdb]
    by_cases hk : a = a'
    · subst hk
      obtain ⟨ha, hl, ho, ht⟩ := refreshWhere_iff.mp hw
      rw [job?_update_of_guard hr hw, hr]
      exact .refresh ha hl ho ht
    · rw [job?_update_of_ne (fun r' hr' => by simp [refreshWhere, hr', hk])]
      exact .keep _ _
  · rw [refreshLease_refuses]
    · exact .keep _ _
    · intro r hr
      by_contra hw
      exact h ⟨r, hr, by simpa using hw⟩

theorem rowStep_transition (s : Store) (now : Instant) (a' state : PyStr)
    (error expected owner token : Option PyStr) (a : PyStr) :
    RowStep (.transition now a' state error expected owner token) (s.db.job? a)
      ((s.transition now a' state error expected owner token).2.db.job? a) := by
  by_cases h : ∃ target r, JobState.ofText? state = some target ∧ s.db.job? a' = some r ∧
      transitionCheck target expected owner token r = none
  · obtain ⟨target, r, hs, hr, hc⟩ := h
    obtain ⟨s', hs', hdb⟩ := transition_accepts hs hr hc now error
    have hw := transitionWhere_of_check hc
    rw [Db.attemptId_of_job? hr] at hw
    rw [hs', hdb]
    by_cases hk : a = a'
    · subst hk
      rw [job?_update_of_guard hr hw, hr]
      exact .transition (Db.attemptId_of_job? hr) hs hc
    · rw [job?_update_of_ne (fun r' hr' => by simp [transitionWhere, hr', hk])]
      exact .keep _ _
  · rw [transition_unchanged]
    · exact .keep _ _
    · exact fun target r hs hr hc => h ⟨target, r, hs, hr, hc⟩

theorem rowStep_recordExecutorCrash (s : Store) (now : Instant) (a' error : PyStr)
    (owner token : Option PyStr) (a : PyStr) :
    RowStep (.recordExecutorCrash now a' error owner token) (s.db.job? a)
      ((s.recordExecutorCrash now a' error owner token).2.db.job? a) := by
  by_cases h : ∃ r, s.db.job? a' = some r ∧ crashWhere a' owner token r = true
  · obtain ⟨r, hr, hw⟩ := h
    by_cases hk : a = a'
    · subst hk
      obtain ⟨ha, hl, ho, ht⟩ := crashWhere_iff.mp hw
      rw [job?_recordExecutorCrash hr hw, hr]
      exact .crash ha hl ho ht
    · obtain ⟨s', hs', hdb⟩ := recordExecutorCrash_accepts hr hw now error
      rw [hs', hdb, job?_update_of_ne (fun r' hr' => by simp [crashWhere, hr', hk])]
      split_ifs
      · rw [Db.job?_insertOrIgnoreDlq]; exact .keep _ _
      · exact .keep _ _
  · rw [recordExecutorCrash_refuses]
    · exact .keep _ _
    · intro r hr
      by_contra hw
      exact h ⟨r, hr, by simpa using hw⟩

/-! ### The unguarded calls -/

/-- The database after `enqueue`. -/
theorem db_enqueue (s : Store) (now : Instant) (p : List (PyStr × Json)) :
    (s.enqueue now p).2.db =
      match requiredPayloadUuid p (py "build_job_id"), requiredPayloadUuid p (py "attempt_id") with
      | .ok b, .ok a => s.db.insertOrIgnoreJob
          (newRow s.db.nextRowid b a (dumpsSorted (.obj (durablePayload p))) (formatDatetime now))
      | _, _ => s.db := by
  unfold enqueue
  rcases requiredPayloadUuid p (py "build_job_id") with x | b
  · rfl
  · rcases requiredPayloadUuid p (py "attempt_id") with x | a
    · rfl
    · dsimp only
      split <;> rfl

theorem rowStep_enqueue (s : Store) (now : Instant) (payload : List (PyStr × Json)) (a : PyStr) :
    RowStep (.enqueue now payload) (s.db.job? a) ((s.enqueue now payload).2.db.job? a) := by
  rw [db_enqueue]
  split
  · rw [Db.job?_insertOrIgnoreJob]
    split_ifs with hn
    · rw [hn.2]; exact .insert _ _ _ _
    · exact .keep _ _
  · exact .keep _ _

theorem rowStep_requestCancel (s : Store) (now : Instant) (b : PyStr) (a' : Option PyStr) (a : PyStr) :
    RowStep (.requestCancel now b a') (s.db.job? a) ((s.requestCancel now b a').2.db.job? a) := by
  unfold requestCancel
  simp only
  rw [Db.job?_updateJobs]
  rcases hr : s.db.job? a with _ | r
  · exact .keep _ _
  · simp only [Option.map_some]
    split_ifs with hg
    · simp only [cancelWhere, Bool.and_eq_true, decide_eq_true_eq, Bool.not_eq_true'] at hg
      exact .requestCancel hg.1.1 hg.1.2 hg.2
    · exact .keep _ _

theorem rowStep_pruneTerminal (s : Store) (now : Instant) (retention : ℤ) (a : PyStr) :
    RowStep (.pruneTerminal now retention) (s.db.job? a) ((s.pruneTerminal now retention).2.db.job? a) := by
  unfold pruneTerminal
  simp only
  rw [Db.job?_deleteJobs]
  rcases hr : s.db.job? a with _ | r
  · exact .keep _ _
  · rw [Option.filter_some]
    split_ifs with hg
    · exact .keep _ _
    · have hg' : r.state.isTerminal = true ∧ r.updatedAt < formatDatetime (now - days retention) := by
        simpa using hg
      exact .delete hg'.1 hg'.2

/-! ### The outbox operations -/

/-- What pruning leaves of a database: events that were there, and the other tables as they were. -/
structure Pruned (db db' : Db) : Prop where
  jobs : db'.jobs = db.jobs
  dlq : db'.dlq = db.dlq
  events : ∀ f ∈ db'.events.rows, f ∈ db.events.rows

theorem Pruned.refl (db : Db) : Pruned db db := ⟨rfl, rfl, fun _ hf => hf⟩

theorem Pruned.trans {db₁ db₂ db₃ : Db} (h : Pruned db₁ db₂) (h' : Pruned db₂ db₃) : Pruned db₁ db₃ :=
  ⟨h'.jobs.trans h.jobs, h'.dlq.trans h.dlq, fun f hf => h.events f (h'.events f hf)⟩

theorem pruned_deleteEvents (db : Db) (p : EventRow → Bool) : Pruned db (db.deleteEvents p) :=
  ⟨rfl, rfl, fun _ hf => (Table.mem_delete.mp hf).1⟩

theorem pruned_pruneBySizeStates {maxBytes : ℤ} : ∀ {fuel : ℕ} {db db' : Db},
    db' ∈ pruneBySizeStates maxBytes fuel db → Pruned db db'
  | 0, _, _, h => by simp [pruneBySizeStates] at h
  | fuel + 1, db, db', h => by
    rw [pruneBySizeStates] at h
    split_ifs at h
    · split at h
      · simp at h
      · rcases List.mem_cons.mp h with rfl | h
        · exact pruned_deleteEvents db _
        · exact (pruned_deleteEvents db _).trans (pruned_pruneBySizeStates h)
    · simp at h

/-- All durable states of pruning have only been pruned. -/
theorem pruned_pruneStates {cfg : OutboxConfig} {now : Instant} {db db' : Db} (h : db' ∈ pruneStates cfg now db) :
    Pruned db db' := by
  have hage : Pruned db (pruneByAge (formatDatetime (now - days cfg.retentionDays)) db) := pruned_deleteEvents db _
  rcases List.mem_cons.mp h with rfl | h
  · exact hage
  · exact hage.trans (pruned_pruneBySizeStates h)

theorem pruneSync_mem (cfg : OutboxConfig) (now : Instant) (db : Db) :
    (pruneSync cfg now db).2 = db ∨ (pruneSync cfg now db).2 ∈ pruneStates cfg now db :=
  List.mem_cons.mp List.getLastD_mem_cons

theorem pruned_pruneSync (cfg : OutboxConfig) (now : Instant) (db : Db) : Pruned db (pruneSync cfg now db).2 := by
  rcases pruneSync_mem cfg now db with h | h
  · rw [h]
    exact .refl db
  · exact pruned_pruneStates h

theorem Pruned.job? {db db' : Db} (h : Pruned db db') (a : PyStr) : db'.job? a = db.job? a := by
  unfold Db.job?
  rw [h.jobs]

theorem job?_pruneSync (cfg : OutboxConfig) (now : Instant) (db : Db) (a : PyStr) :
    (pruneSync cfg now db).2.job? a = db.job? a := (pruned_pruneSync cfg now db).job? a

/-- What `append` does: it raises and changes nothing, it meets its own event again, or it inserts
the event, raises the cursor and prunes. -/
inductive AppendStep (cfg : OutboxConfig) (clock : AppendClock) (e : Envelope) (db : Db) :
    Except OutboxError Unit → Db → Prop where
  | refused (x : OutboxError) : AppendStep cfg clock e db (.error x) db
  | repeated {a : PyStr} {seq : ℕ} {row : EventRow} (ha : e.attemptId = some a) (hs : e.seq = some seq)
      (hb : seq < maxSqliteInt) (hr : db.event? a seq = some row)
      (ht : e.toJson = .ok row.envelopeJson) : AppendStep cfg clock e db (.ok ()) db
  | inserted {a : PyStr} {seq : ℕ} {text : PyStr} {db' : Db} (ha : e.attemptId = some a)
      (hs : e.seq = some seq) (hb : seq < maxSqliteInt) (ht : e.toJson = .ok text)
      (hi : db.insertEvent (eventRow e.id a seq e.type text clock.created) = some db') :
      AppendStep cfg clock e db (.ok ())
        (pruneSync cfg clock.pruned (raiseCursor a seq (formatDatetime clock.updated) db')).2

theorem append_step (cfg : OutboxConfig) (clock : AppendClock) (e : Envelope) (db : Db) :
    AppendStep cfg clock e db (append cfg clock e db).1 (append cfg clock e db).2 := by
  unfold append
  split
  · next a seq ha hs =>
    split
    · exact .refused _
    · next states hst =>
      unfold appendStates at hst
      split_ifs at hst with hb
      split at hst
      · next row hrow =>
        split at hst
        · cases hst
        · next text ht =>
          split_ifs at hst with hne
          cases hst
          exact .repeated ha hs (by omega) hrow (by rw [ht, not_not.mp hne])
      · split at hst
        · cases hst
        · next text ht =>
          dsimp only at hst
          split at hst
          · cases hst
          · next db' hi =>
            cases hst
            exact .inserted ha hs (Nat.lt_of_not_le hb) ht hi
  · exact .refused _

theorem rowStep_append (s : Store) (cfg : OutboxConfig) (clock : AppendClock) (e : Envelope) (a : PyStr) :
    RowStep (.append cfg clock e) (s.db.job? a) ((append cfg clock e s.db).2.job? a) := by
  have hstep := append_step cfg clock e s.db
  generalize (append cfg clock e s.db).1 = result, (append cfg clock e s.db).2 = db₁ at hstep ⊢
  cases hstep with
  | refused => exact .keep _ _
  | repeated => exact .keep _ _
  | inserted ha hs _ _ hi =>
    rw [job?_pruneSync, raiseCursor, Db.job?_updateJobs, Db.job?_insertEvent hi]
    rcases hr : s.db.job? a with _ | r
    · exact .keep _ _
    · simp only [Option.map_some]
      split_ifs with hk
      · exact .cursor (by rw [ha, ← of_decide_eq_true hk]) hs
      · exact .keep _ _

/-- **What a call does to a row**: every step of a run is one of the steps of `RowStep` for the row of
each attempt. -/
theorem rowStep (s : Store) (op : Op) (a : PyStr) :
    RowStep op (s.db.job? a) ((apply s op).db.job? a) := by
  cases op with
  | enqueue now payload => exact rowStep_enqueue s now payload a
  | acquireLease now token owner timeout => exact rowStep_acquireLease s now token owner timeout a
  | refreshLease now a' owner timeout token => exact rowStep_refreshLease s now a' owner timeout token a
  | transition now a' state error expected owner token =>
    exact rowStep_transition s now a' state error expected owner token a
  | requestCancel now b a' => exact rowStep_requestCancel s now b a' a
  | recordExecutorCrash now a' error owner token =>
    exact rowStep_recordExecutorCrash s now a' error owner token a
  | pruneTerminal now retention => exact rowStep_pruneTerminal s now retention a
  | append cfg clock e => exact rowStep_append s cfg clock e a
  | ackThrough a' n =>
    show RowStep _ _ ((ackThrough a' n s.db).2.job? a)
    unfold ackThrough
    split_ifs <;> exact .keep _ _
  | prune cfg now =>
    show RowStep _ _ ((pruneSync cfg now s.db).2.job? a)
    rw [job?_pruneSync]; exact .keep _ _
  | restart => exact .keep _ _

/-- A row that appears is the one an `enqueue` has inserted. -/
theorem row_inserted {s : Store} {op : Op} {a : PyStr} {r : JobRow} (hnone : s.db.job? a = none)
    (hr : (apply s op).db.job? a = some r) : ∃ now p b, op = .enqueue now p ∧
      requiredPayloadUuid p (py "build_job_id") = .ok b ∧ requiredPayloadUuid p (py "attempt_id") = .ok a ∧
      r = newRow s.db.nextRowid b a (dumpsSorted (.obj (durablePayload p))) (formatDatetime now) := by
  have hstep := rowStep s op a
  rw [hnone, hr] at hstep
  cases hstep with
  | @insert now payload rowid b a' text =>
    have hdb : (s.enqueue now payload).2.db.job? a = some (newRow rowid b a' text (formatDatetime now)) := hr
    rw [db_enqueue] at hdb
    split at hdb
    · next b₁ a₁ hb ha =>
      rw [Db.job?_insertOrIgnoreJob, hnone] at hdb
      split_ifs at hdb with hk
      obtain rfl : a₁ = a := hk.1
      exact ⟨now, payload, b₁, rfl, hb, ha, (Option.some.inj hdb).symm⟩
    · rw [hnone] at hdb; cases hdb

/-- A row keeps its rowid, its build and its payload. -/
theorem RowStep.fixed {op : Op} {r r' : JobRow} (h : RowStep op (some r) (some r')) :
    r'.rowid = r.rowid ∧ r'.buildJobId = r.buildJobId ∧ r'.payloadJson = r.payloadJson := by
  cases h <;> exact ⟨rfl, rfl, rfl⟩

/-- What every row of an enqueued payload has by its build and its payload, every row of a run has. -/
theorem rows_run {P : JobRow → Prop}
    (hfixed : ∀ r r', r'.buildJobId = r.buildJobId → r'.payloadJson = r.payloadJson → P r → P r') :
    ∀ (ops : List Op) {s : Store},
      (∀ now p, .enqueue now p ∈ ops → ∀ rowid b a, requiredPayloadUuid p (py "build_job_id") = .ok b →
        P (newRow rowid b a (dumpsSorted (.obj (durablePayload p))) (formatDatetime now))) →
      (∀ a r, s.db.job? a = some r → P r) → ∀ a r, (run apply s ops).db.job? a = some r → P r
  | [], _, _, h => h
  | op :: ops, s, hnew, h => by
    refine rows_run hfixed ops (fun now p hp => hnew now p (List.mem_cons_of_mem _ hp)) fun a r hr => ?_
    rcases hold : s.db.job? a with _ | r₀
    · obtain ⟨now, p, b, rfl, hb, -, rfl⟩ := row_inserted hold hr
      exact hnew now p List.mem_cons_self _ b a hb
    · have hstep := rowStep s op a
      rw [hold, hr] at hstep
      obtain ⟨-, hbuild, hpayload⟩ := RowStep.fixed hstep
      exact hfixed r₀ r hbuild hpayload (h a r₀ hold)

/-! ### A job to run examples on -/

/-- An attempt identifier. -/
def sampleAttempt : PyStr := py "00000000-0000-4000-8000-00000000000a"

/-- A build job identifier. -/
def sampleBuild : PyStr := py "00000000-0000-4000-8000-00000000000b"

/-- The smallest payload `enqueue` accepts. -/
def samplePayload : List (PyStr × Json) :=
  [(py "build_job_id", .str sampleBuild), (py "attempt_id", .str sampleAttempt)]

/-- A status event of the sample attempt. -/
def sampleEvent (id : PyStr) (seq : ℕ) : Envelope where
  v := .int 2
  id := id
  type := .attemptStatus
  ts := py "1970-01-01T00:00:01.000Z"
  payload := [(py "phase", .str (py "install"))]
  engineId := zeroEngineId
  buildJobId := some sampleBuild
  attemptId := some sampleAttempt
  seq := some seq

/-- The limits of the outbox, with ample room. -/
def sampleConfig : OutboxConfig := ⟨1000000, 7⟩

end BuildEngine.Queue.Ops
