import BuildEngine.Queue.Schema

/-! # `SQLiteQueueStore`

The operations of `queue/store.py` on the attempts. An operation takes the clock reading it makes, and
`acquireLease` the token `secrets.token_urlsafe` returns; it gives what it returns or raises, and the
store after the call. A transaction that raises is rolled back, so the store is then as before; the
statements outside a transaction are durable one by one. -/

namespace BuildEngine.Queue

open BuildEngine.Base BuildEngine.Base.Json BuildEngine.Agent.Protocol BuildEngine.Queue.Schema

/-- `MAX_LOCAL_CRASHES` -/
def maxLocalCrashes : ℕ := 3

/-- `QueueError`, one constructor for each message. -/
inductive QueueError where
  | payloadRequired (key : PyStr)
  | payloadNotUuid (key : PyStr)
  | enqueuedNotReloaded
  | freshnessUnknown
  | leasedNotReloaded
  | cannotRefresh
  | refreshedNotReloaded
  | invalidState (state : PyStr)
  | transitionUnknown
  | unexpectedState
  | otherOwner
  | staleToken
  | illegalState
  | stateChanged
  | transitionedNotReloaded
  | crashUnknown
  | crashedNotReloaded
  | conflictingEvent
  | sequenceUnknown
  deriving DecidableEq

/-- `JobRecord`; the payload is `none` where `json.loads` would raise. -/
structure JobRecord where
  buildJobId : PyStr
  attemptId : PyStr
  payload : Option (List (PyStr × Json))
  state : JobState
  attempts : ℕ
  sequenceCursor : ℕ
  leaseOwner : Option PyStr
  leaseExpiresAt : Option Stamp
  error : Option PyStr
  createdAt : Stamp
  updatedAt : Stamp
  leaseToken : Option PyStr
  cancelRequested : Bool

/-- The store: the database, and the payloads held in memory since this process enqueued them. -/
structure Store where
  db : Db
  transientPayloads : List (PyStr × List (PyStr × Json))

/-- What a call returns or raises, and the store after it. -/
abbrev Call (α : Type) := Except QueueError α × Store

namespace Store

/-- The store of a process started on a fresh database. -/
def empty : Store := ⟨.empty, []⟩

/-- A new process on the same database. -/
def restart (s : Store) : Store := ⟨s.db, []⟩

/-! ### Records -/

/-- `_job_from_row` -/
def jobFromRow (r : JobRow) : JobRecord where
  buildJobId := r.buildJobId
  attemptId := r.attemptId
  payload := match loads r.payloadJson with
    | .ok (.obj kvs) => some kvs
    | _ => none
  state := r.state
  attempts := r.attempts
  sequenceCursor := r.sequenceCursor
  leaseOwner := r.leaseOwner
  leaseExpiresAt := r.leaseExpiresAt
  error := r.error
  createdAt := r.createdAt
  updatedAt := r.updatedAt
  leaseToken := r.leaseToken
  cancelRequested := r.cancelRequested

/-- The payload held in memory for an attempt. -/
def transient? (s : Store) (attemptId : PyStr) : Option (List (PyStr × Json)) :=
  (s.transientPayloads.find? fun t => t.1 = attemptId).map Prod.snd

/-- `_with_transient_payload` -/
def withTransientPayload (s : Store) (job : JobRecord) : JobRecord :=
  match s.transient? job.attemptId with
  | none => job
  | some payload => { job with payload := some payload }

/-- The record of a row, as the store returns it. -/
def record (s : Store) (r : JobRow) : JobRecord := s.withTransientPayload (jobFromRow r)

theorem attemptId_record (s : Store) (r : JobRow) : (s.record r).attemptId = r.attemptId := by
  unfold record withTransientPayload
  split <;> rfl

theorem state_record (s : Store) (r : JobRow) : (s.record r).state = r.state := by
  unfold record withTransientPayload
  split <;> rfl

/-- `_job_row` -/
def jobRow (s : Store) (buildJobId attemptId : PyStr) : Option JobRow :=
  (s.db.job? attemptId).filter fun r => r.buildJobId = buildJobId

/-! ### Enqueue -/

/-- `_required_payload_str` -/
def requiredPayloadStr (payload : List (PyStr × Json)) (key : PyStr) : Except QueueError PyStr :=
  match get? payload key with
  | some (.str s) => if s = [] then .error (.payloadRequired key) else .ok s
  | _ => .error (.payloadRequired key)

/-- `_required_payload_uuid` -/
def requiredPayloadUuid (payload : List (PyStr × Json)) (key : PyStr) : Except QueueError PyStr := do
  let value ← requiredPayloadStr payload key
  if isUuid value then return value else throw (.payloadNotUuid key)

/-- `_durable_payload` -/
def durablePayload (payload : List (PyStr × Json)) : List (PyStr × Json) :=
  payload.filter fun kv => kv.1 ∉ [py "secrets", py "source_download_url", py "secret_env"]

/-- `EnqueueResult` -/
structure EnqueueResult where
  job : JobRecord
  inserted : Bool

/-- The row `enqueue` inserts. -/
def newRow (rowid : ℕ) (buildJobId attemptId payloadJson : PyStr) (now : Stamp) : JobRow where
  rowid := rowid
  buildJobId := buildJobId
  attemptId := attemptId
  payloadJson := payloadJson
  state := .queued
  leaseOwner := none
  leaseToken := none
  leaseExpiresAt := none
  attempts := 0
  sequenceCursor := 0
  createdAt := now
  updatedAt := now
  error := none
  cancelRequested := false

/-- `self._transient_payloads.setdefault(attempt_id, payload)` -/
def holdPayload (s : Store) (attemptId : PyStr) (payload : List (PyStr × Json)) : Store :=
  if (s.transient? attemptId).isSome then s
  else { s with transientPayloads := s.transientPayloads ++ [(attemptId, payload)] }

/-- `enqueue` -/
def enqueue (now : Instant) (payload : List (PyStr × Json)) (s : Store) : Call EnqueueResult :=
  match requiredPayloadUuid payload (py "build_job_id"),
      requiredPayloadUuid payload (py "attempt_id") with
  | .error e, _ => (.error e, s)
  | .ok _, .error e => (.error e, s)
  | .ok buildJobId, .ok attemptId =>
    let payloadJson := dumpsSorted (.obj (durablePayload payload))
    let held := s.holdPayload attemptId payload
    let inserted := (s.db.job? attemptId).isNone
    let s' : Store := { held with
      db := s.db.insertOrIgnoreJob
        (newRow s.db.nextRowid buildJobId attemptId payloadJson (formatDatetime now)) }
    match s'.jobRow buildJobId attemptId with
    | none => (.error .enqueuedNotReloaded, s')
    | some row => (.ok ⟨s'.record row, inserted⟩, s')

/-! ### Queries -/

/-- `get_job` -/
def getJob (s : Store) (buildJobId attemptId : PyStr) : Option JobRecord :=
  (s.jobRow buildJobId attemptId).map s.record

/-- `ORDER BY created_at, attempt_id` -/
def leaseOrder (a b : JobRow) : Prop :=
  a.createdAt < b.createdAt ∨ (a.createdAt = b.createdAt ∧ a.attemptId ≤ b.attemptId)

instance : DecidableRel leaseOrder := fun _ _ => inferInstanceAs (Decidable (_ ∨ _))

/-- `jobs_for_build` -/
def jobsForBuild (s : Store) (buildJobId : PyStr) : List JobRecord :=
  (s.db.jobs.select (fun r => r.buildJobId = buildJobId) leaseOrder).map s.record

/-- `is_current_attempt` -/
def isCurrentAttempt (s : Store) (buildJobId attemptId : PyStr) : Except QueueError Bool :=
  match s.jobRow buildJobId attemptId with
  | none => .error .freshnessUnknown
  | some row => .ok (!s.db.jobs.rows.any fun r => r.buildJobId = buildJobId && r.rowid > row.rowid)

/-- `queue_depth` -/
def queueDepth (s : Store) : ℕ := s.db.jobs.rows.countP fun r => r.state = .queued

/-- `is_cancel_requested` -/
def isCancelRequested (s : Store) (attemptId : PyStr) : Bool :=
  (s.db.job? attemptId).any (·.cancelRequested)

/-! ### Leases -/

/-- `state = 'QUEUED' OR (state IN ('LEASED', 'RUNNING') AND lease_expires_at <= now)`; a comparison
with `NULL` does not hold. -/
def eligible (now : Stamp) (r : JobRow) : Bool :=
  r.state = .queued || (r.state.isLeased && r.leaseExpiresAt.any (· ≤ now))

/-- The `SET` list that commits a requested cancellation. -/
def cancelRow (now : Stamp) (r : JobRow) : JobRow :=
  { r with
    state := .cancelled, leaseOwner := none, leaseToken := none, leaseExpiresAt := none,
    cancelRequested := false, updatedAt := now }

/-- The `SET` list that leases a row. -/
def leaseRow (owner token : PyStr) (expiresAt now : Stamp) (r : JobRow) : JobRow :=
  { r with
    state := .leased, leaseOwner := some owner, leaseToken := some token,
    leaseExpiresAt := some expiresAt, attempts := r.attempts + 1, updatedAt := now }

theorem attemptId_cancelRow (now : Stamp) (r : JobRow) : (cancelRow now r).attemptId = r.attemptId := rfl

theorem attemptId_leaseRow (owner token : PyStr) (expiresAt now : Stamp) (r : JobRow) :
    (leaseRow owner token expiresAt now r).attemptId = r.attemptId := rfl

/-- The loop of `acquire_lease`: cancel the oldest eligible rows until one is found that has no
cancellation request. Each turn uses one unit of fuel. -/
def acquireLoop (now : Stamp) : ℕ → Db → Option (Db × Option JobRow)
  | 0, _ => none
  | fuel + 1, db =>
    match db.jobs.selectFirst (eligible now) leaseOrder with
    | none => some (db, none)
    | some row =>
      if row.cancelRequested then
        acquireLoop now fuel
          (db.updateJobs (fun r => r.attemptId = row.attemptId) (cancelRow now)
            (attemptId_cancelRow now))
      else some (db, some row)

/-- `acquire_lease`; a loop over `n` rows ends within `n + 1` turns (`acquireLoop_isSome`). -/
def acquireLease (now : Instant) (token leaseOwner : PyStr) (visibilityTimeoutSeconds : ℤ)
    (s : Store) : Call (Option JobRecord) :=
  let stamp := formatDatetime now
  let expiresAt := formatDatetime (now + seconds visibilityTimeoutSeconds)
  match acquireLoop stamp (s.db.jobs.rows.length + 1) s.db with
  | none => (.ok none, s)
  | some (db, none) => (.ok none, { s with db := db })
  | some (db, some row) =>
    let s' : Store := { s with
      db := db.updateJobs (fun r => r.attemptId = row.attemptId)
        (leaseRow leaseOwner token expiresAt stamp) (attemptId_leaseRow _ _ _ _) }
    match s'.jobRow row.buildJobId row.attemptId with
    | none => (.error .leasedNotReloaded, s')
    | some refreshed => (.ok (some (s'.record refreshed)), s')

/-- `(? IS NULL OR column = ?)` -/
def sqlMatches (parameter column : Option PyStr) : Bool :=
  match parameter with
  | none => true
  | some v => column = some v

/-- The `SET` list that extends a lease. -/
def refreshRow (expiresAt now : Stamp) (r : JobRow) : JobRow :=
  { r with leaseExpiresAt := some expiresAt, updatedAt := now }

theorem attemptId_refreshRow (expiresAt now : Stamp) (r : JobRow) :
    (refreshRow expiresAt now r).attemptId = r.attemptId := rfl

/-- The `WHERE` clause of `refresh_lease`. -/
def refreshWhere (attemptId leaseOwner : PyStr) (leaseToken : Option PyStr) (r : JobRow) : Bool :=
  r.attemptId = attemptId && r.leaseOwner = some leaseOwner && sqlMatches leaseToken r.leaseToken &&
    r.state.isLeased

/-- `refresh_lease` -/
def refreshLease (now : Instant) (attemptId leaseOwner : PyStr) (visibilityTimeoutSeconds : ℤ)
    (leaseToken : Option PyStr) (s : Store) : Call JobRecord :=
  let stamp := formatDatetime now
  let expiresAt := formatDatetime (now + seconds visibilityTimeoutSeconds)
  if (s.db.job? attemptId).any (refreshWhere attemptId leaseOwner leaseToken) then
    let s' : Store := { s with
      db := s.db.updateJobs (refreshWhere attemptId leaseOwner leaseToken) (refreshRow expiresAt stamp)
        (attemptId_refreshRow _ _) }
    match s'.db.job? attemptId with
    | none => (.error .refreshedNotReloaded, s')
    | some row => (.ok (s'.record row), s')
  else (.error .cannotRefresh, s)

/-! ### Transitions -/

/-- `_LEGAL_PREVIOUS_STATES` -/
def legalPreviousStates : JobState → List JobState
  | .queued => [.leased, .running]
  | .leased => [.queued]
  | .running => [.leased]
  | .succeeded => [.running]
  | .failed => [.queued, .leased, .running]
  | .cancelled => [.queued, .leased, .running]
  | .timedOut => [.queued, .leased, .running]

/-- The `SET` list of a transition: a terminal state clears the lease and the request. -/
def transitionRow (state : JobState) (error : Option PyStr) (now : Stamp) (r : JobRow) : JobRow :=
  { r with
    state := state
    error := error
    leaseOwner := if state.isTerminal then none else r.leaseOwner
    leaseExpiresAt := if state.isTerminal then none else r.leaseExpiresAt
    leaseToken := if state.isTerminal then none else r.leaseToken
    cancelRequested := if state.isTerminal then false else r.cancelRequested
    updatedAt := now }

theorem attemptId_transitionRow (state : JobState) (error : Option PyStr) (now : Stamp) (r : JobRow) :
    (transitionRow state error now r).attemptId = r.attemptId := rfl

/-- The checks of `transition` on the current row. `none`: the row is already in the state asked for
and the call names no expectation; `some e`: it is refused. -/
def transitionCheck (state : JobState) (expectedState leaseOwner leaseToken : Option PyStr)
    (current : JobRow) : Option (Option QueueError) :=
  if expectedState.any (· ≠ current.state.text) then some (some .unexpectedState)
  else if leaseOwner.isSome && current.leaseOwner ≠ leaseOwner then some (some .otherOwner)
  else if leaseToken.isSome && current.leaseToken ≠ leaseToken then some (some .staleToken)
  else if current.state = state then
    if expectedState.isNone && leaseOwner.isNone && leaseToken.isNone then some none
    else some (some .illegalState)
  else if current.state ∉ legalPreviousStates state then some (some .illegalState)
  else none

theorem ne_of_mem_legalPreviousStates {target st : JobState} (h : st ∈ legalPreviousStates target) :
    st ≠ target := by
  rintro rfl
  cases st <;> simp [legalPreviousStates] at h

/-- What a row that passes the checks of `transition` satisfies. -/
theorem of_transitionCheck {target : JobState} {expectedState leaseOwner leaseToken : Option PyStr}
    {r : JobRow} (h : transitionCheck target expectedState leaseOwner leaseToken r = none) :
    (∀ x ∈ expectedState, x = r.state.text) ∧ (∀ x ∈ leaseOwner, r.leaseOwner = some x) ∧
      (∀ x ∈ leaseToken, r.leaseToken = some x) ∧ r.state ∈ legalPreviousStates target := by
  unfold transitionCheck at h
  split_ifs at h with hx ho ht hs hn hl
  refine ⟨?_, ?_, ?_, hl⟩
  · rintro x ⟨⟩
    simpa using hx
  · rintro x ⟨⟩
    simpa using ho
  · rintro x ⟨⟩
    simpa using ht

/-- The `WHERE` clause of the `UPDATE` of `transition`. -/
def transitionWhere (attemptId : PyStr) (currentState : JobState) (leaseOwner leaseToken : Option PyStr)
    (r : JobRow) : Bool :=
  r.attemptId = attemptId && r.state = currentState && sqlMatches leaseOwner r.leaseOwner &&
    sqlMatches leaseToken r.leaseToken

/-- `transition` -/
def transition (now : Instant) (attemptId state : PyStr)
    (error expectedState leaseOwner leaseToken : Option PyStr) (s : Store) : Call JobRecord :=
  match JobState.ofText? state with
  | none => (.error (.invalidState state), s)
  | some target =>
    match s.db.job? attemptId with
    | none => (.error .transitionUnknown, s)
    | some current =>
      match transitionCheck target expectedState leaseOwner leaseToken current with
      | some (some e) => (.error e, s)
      | some none => (.ok (s.record current), s)
      | none =>
        if transitionWhere attemptId current.state leaseOwner leaseToken current then
          let s' : Store := { s with
            db := s.db.updateJobs (transitionWhere attemptId current.state leaseOwner leaseToken)
              (transitionRow target error (formatDatetime now)) (attemptId_transitionRow _ _ _) }
          match s'.db.job? attemptId with
          | none => (.error .transitionedNotReloaded, s)
          | some row => (.ok (s'.record row), s')
        else (.error .stateChanged, s)

/-! ### Cancellation -/

/-- The `SET` list that requests a cancellation. -/
def requestRow (now : Stamp) (r : JobRow) : JobRow := { r with cancelRequested := true, updatedAt := now }

theorem attemptId_requestRow (now : Stamp) (r : JobRow) : (requestRow now r).attemptId = r.attemptId := rfl

/-- The `WHERE` clause of `request_cancel`. -/
def cancelWhere (buildJobId : PyStr) (attemptId : Option PyStr) (r : JobRow) : Bool :=
  r.buildJobId = buildJobId && attemptId.all (r.attemptId = ·) && !r.state.isTerminal

/-- `request_cancel`; the identifiers it returns are those named, or those of the build it marks. -/
def requestCancel (now : Instant) (buildJobId : PyStr) (attemptId : Option PyStr) (s : Store) :
    List PyStr × Store :=
  let ids := match attemptId with
    | none => (s.db.jobs.rows.filter (cancelWhere buildJobId attemptId)).map JobRow.attemptId
    | some a => [a]
  (ids, { s with
    db := s.db.updateJobs (cancelWhere buildJobId attemptId) (requestRow (formatDatetime now))
      (attemptId_requestRow _) })

/-! ### Crashes -/

/-- The `SET` list of a crash: back to the queue, or failed. -/
def crashRow (state : JobState) (error : PyStr) (now : Stamp) (r : JobRow) : JobRow :=
  { r with
    state := state, error := some error, leaseOwner := none, leaseToken := none,
    leaseExpiresAt := none, cancelRequested := false, updatedAt := now }

theorem attemptId_crashRow (state : JobState) (error : PyStr) (now : Stamp) (r : JobRow) :
    (crashRow state error now r).attemptId = r.attemptId := rfl

/-- The dead letter of a row. -/
def deadLetter (error : PyStr) (now : Stamp) (r : JobRow) : DlqRow :=
  ⟨r.attemptId, r.buildJobId, r.payloadJson, error, r.attempts, now⟩

/-- The `WHERE` clause of `record_executor_crash`. -/
def crashWhere (attemptId : PyStr) (leaseOwner leaseToken : Option PyStr) (r : JobRow) : Bool :=
  r.attemptId = attemptId && r.state.isLeased && sqlMatches leaseOwner r.leaseOwner &&
    sqlMatches leaseToken r.leaseToken

/-- `record_executor_crash` -/
def recordExecutorCrash (now : Instant) (attemptId error : PyStr) (leaseOwner leaseToken : Option PyStr)
    (s : Store) : Call JobRecord :=
  let stamp := formatDatetime now
  let owned := crashWhere attemptId leaseOwner leaseToken
  match (s.db.job? attemptId).filter owned with
  | none => (.error .crashUnknown, s)
  | some row =>
    let s' : Store :=
      if row.attempts ≥ maxLocalCrashes then
        { s with
          db := (s.db.insertOrIgnoreDlq (deadLetter error stamp row)).updateJobs owned
            (crashRow .failed error stamp) (attemptId_crashRow _ _ _) }
      else
        { s with
          db := s.db.updateJobs owned (crashRow .queued error stamp) (attemptId_crashRow _ _ _) }
    match s'.db.job? attemptId with
    | none => (.error .crashedNotReloaded, s')
    | some refreshed => (.ok (s'.record refreshed), s')

/-! ### Retention -/

/-- `prune_terminal`, and the number of rows it deletes. -/
def pruneTerminal (now : Instant) (retentionDays : ℤ) (s : Store) : ℕ × Store :=
  let cutoff := formatDatetime (now - days retentionDays)
  let old : JobRow → Bool := fun r => r.state.isTerminal && r.updatedAt < cutoff
  (s.db.jobs.rows.countP old, { s with db := s.db.deleteJobs old })

end Store

end BuildEngine.Queue
