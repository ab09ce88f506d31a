import BuildEngine.Agent.JobLoop

/-! # Backend commands

`_handle_frame` of `agent/uplink.py` with the handlers of `queue/handlers.py`, for one frame and without
interleaving: what handling a frame returns or raises, and the engine after it. An exception that leaves
`_handle_frame` ends the connection; what was done before it stays done. -/

namespace BuildEngine.Agent.Commands

open BuildEngine.Base BuildEngine.Base.Json BuildEngine.Agent.Protocol BuildEngine.Agent.JobLoop
open BuildEngine.Queue.Schema BuildEngine.Queue BuildEngine.Queue.Outbox

/-- What `_handle_frame` may raise. -/
inductive FrameError where
  | exc (e : Exc)
  | queue (e : QueueError)
  | outbox (e : OutboxError)
  | engineMismatch
  | payloadRequired (key : PyStr)
  | payloadNotString (key : PyStr)
  | cancelAttemptNotString
  | ackFields
  | drainAction
  | cacheSiteNotString
  | welcomeAgain
  | unhandled

/-- The engine as the handlers see it. `draining` says that the marker `drain.json` is there, `published` are
the events published by the handlers and `sent` their other frames. -/
structure Engine where
  store : Store
  draining : Bool
  published : List Envelope
  sent : List Envelope
  cacheResetScopes : List (Option PyStr)

/-- The readings made while a frame is handled: of its decoding, of the store call, and of each publish. -/
structure FrameInput where
  decoded : Instant
  stored : Instant
  publish : ℕ → PublishInput

/-- What handling returns or raises, and the engine after it. -/
abbrev Handled := Except FrameError Unit × Engine

/-! ### Payload fields -/

/-- `_required_payload_str` of the handlers. -/
def requiredStr (payload : List (PyStr × Json)) (key : PyStr) : Except FrameError PyStr :=
  match get? payload key with
  | some (.str s) => if s = [] then .error (.payloadRequired key) else .ok s
  | _ => .error (.payloadRequired key)

/-- `_optional_payload_str` -/
def optionalStr (payload : List (PyStr × Json)) (key : PyStr) : Except FrameError (Option PyStr) :=
  match get? payload key with
  | none => .ok none
  | some .null => .ok none
  | some (.str s) => if s = [] then .error (.payloadNotString key) else .ok (some s)
  | some _ => .error (.payloadNotString key)

/-- `payload.get("attempt_id")` as `cancel` reads it: `None` or a string. -/
def cancelAttempt (payload : List (PyStr × Json)) : Except FrameError (Option PyStr) :=
  match get? payload (py "attempt_id") with
  | none => .ok none
  | some .null => .ok none
  | some (.str s) => .ok (some s)
  | some _ => .error .cancelAttemptNotString

section Datetime
variable [PyDatetime] (cfg : LoopConfig)

/-! ### Assignments -/

/-- A publish of an `attempt.status` event. -/
def publishStatus (x : PublishInput) (payload : List (PyStr × Json)) (buildJobId attemptId : PyStr)
    (s : Engine) : Handled :=
  match publishAttemptEvent cfg x .attemptStatus payload buildJobId attemptId s.store with
  | (.error err, store) => (.error (.outbox err), { s with store := store })
  | (.ok e, store) => (.ok (), { s with store := store, published := s.published ++ [e] })

/-- `SQLiteCommandHandlers.assign`: the state of its result. -/
def assign (now : Instant) (payload : List (PyStr × Json)) (s : Engine) : Except FrameError PyStr × Engine :=
  if s.draining then (.ok (py "FAILED"), s)
  else match s.store.enqueue now payload with
    | (.error err, store) => (.error (.queue err), { s with store := store })
    | (.ok result, store) => (.ok result.job.state.text, { s with store := store })

/-- The payload of an assignment with its attempt fields. -/
def mergedPayload (payload : List (PyStr × Json)) (buildJobId attemptId : PyStr) : List (PyStr × Json) :=
  set (set payload (py "build_job_id") (.str buildJobId)) (py "attempt_id") (.str attemptId)

/-- `_handle_assign` -/
def handleAssign (x : FrameInput) (e : Envelope) (s : Engine) : Handled :=
  match attemptFields e with
  | .error err => (.error (.exc err), s)
  | .ok (buildJobId, attemptId) =>
    match assign x.stored (mergedPayload e.payload buildJobId attemptId) s with
    | (.error err, s') => (.error err, s')
    | (.ok state, s') =>
      publishStatus cfg (x.publish 0) (ackPayload buildJobId attemptId state none) buildJobId attemptId s'

/-! ### Cancellations -/

/-- The payload of the answer to a cancellation. -/
def cancelPayload (buildJobId attemptId : PyStr) : List (PyStr × Json) :=
  [(py "build_job_id", .str buildJobId), (py "attempt_id", .str attemptId),
    (py "phase", .str (py "CANCELLING"))]

/-- The loop that answers for each attempt; `i` counts the publishes. -/
def answerCancel (x : FrameInput) (buildJobId : PyStr) : ℕ → List PyStr → Engine → Handled
  | _, [], s => (.ok (), s)
  | i, a :: as, s =>
    match publishStatus cfg (x.publish i) (cancelPayload buildJobId a) buildJobId a s with
    | (.error err, s') => (.error err, s')
    | (.ok _, s') => answerCancel x buildJobId (i + 1) as s'

/-- The attempt that `_handle_cancel` reads: that of the frame, or else that of its payload. -/
def explicitAttempt (e : Envelope) : Except FrameError (Option PyStr) :=
  match e.attemptId with
  | some a => if a = [] then optionalStr e.payload (py "attempt_id") else .ok (some a)
  | none => optionalStr e.payload (py "attempt_id")

/-- `_handle_cancel` with `SQLiteCommandHandlers.cancel`. The state of the result is always `CANCELLING`, so
the early return is never taken. -/
def handleCancel (x : FrameInput) (e : Envelope) (s : Engine) : Handled :=
  match requiredStr e.payload (py "build_job_id"), cancelAttempt e.payload with
  | .error err, _ => (.error err, s)
  | .ok _, .error err => (.error err, s)
  | .ok buildJobId, .ok attemptId =>
    let (affected, store) := s.store.requestCancel x.stored buildJobId attemptId
    let s' : Engine := { s with store := store }
    match explicitAttempt e with
    | .error err => (.error err, s')
    | .ok explicit =>
      answerCancel cfg x buildJobId 0 (if affected = [] then explicit.toList else affected) s'

/-! ### The other commands -/

/-- `_ack_event` -/
def ackEvent (e : Envelope) (s : Engine) : Handled :=
  let attemptId := match e.attemptId with
    | some a => if a = [] then get? e.payload (py "attempt_id") else some (.str a)
    | none => get? e.payload (py "attempt_id")
  match attemptId, get? e.payload (py "last_seq") with
  | some (.str a), some (.int n) =>
    if isUuid a && 0 ≤ n then
      match ackThrough a n.toNat s.store.db with
      | (.error err, db) => (.error (.outbox err), { s with store := { s.store with db := db } })
      | (.ok _, db) => (.ok (), { s with store := { s.store with db := db } })
    else (.error .ackFields, s)
  | _, _ => (.error .ackFields, s)

/-- The `drain` command. -/
def handleDrain (e : Envelope) (s : Engine) : Handled :=
  match (get? e.payload (py "action")).getD (.str (py "drain")) with
  | .str action =>
    if action = py "resume" then (.ok (), { s with draining := false })
    else if action = py "drain" then (.ok (), { s with draining := true })
    else (.error .drainAction, s)
  | _ => (.error .drainAction, s)

/-- The `cache.reset` command; the caches themselves are not modelled. -/
def cacheReset (e : Envelope) (s : Engine) : Handled :=
  match get? e.payload (py "site_id") with
  | none => (.ok (), { s with cacheResetScopes := s.cacheResetScopes ++ [none] })
  | some .null => (.ok (), { s with cacheResetScopes := s.cacheResetScopes ++ [none] })
  | some (.str site) => (.ok (), { s with cacheResetScopes := s.cacheResetScopes ++ [some site] })
  | some _ => (.error .cacheSiteNotString, s)

/-- The answer to a `ping`. -/
def handlePing (x : PublishInput) (s : Engine) : Handled :=
  match newEnvelope x.now x.timestamp x.messageId .pong [] cfg.uplink.engineId none none none with
  | .error err => (.error (.exc err), s)
  | .ok pong =>
    match pong.toJson with
    | .error err => (.error (.exc err), s)
    | .ok _ => (.ok (), { s with sent := s.sent ++ [pong] })

/-- `_handle_frame` -/
def handleFrame (x : FrameInput) (frame : PyStr) (s : Engine) : Handled :=
  match decodeFrame x.decoded inboundMessageTypes frame with
  | .error err => (.error (.exc err), s)
  | .ok e =>
    if e.engineId ≠ cfg.uplink.engineId then (.error .engineMismatch, s)
    else match e.type with
      | .ping => handlePing cfg (x.publish 0) s
      | .jobAssign => handleAssign cfg x e s
      | .jobCancel => handleCancel cfg x e s
      | .eventAck => ackEvent e s
      | .drain => handleDrain e s
      | .cacheReset => cacheReset e s
      | .welcome => (.error .welcomeAgain, s)
      | _ => (.error .unhandled, s)

/-! ### What a publish does to the rows -/

/-- A publish leaves the rows of other attempts alone. -/
theorem job?_publish_of_ne (x : PublishInput) (type : MessageType) (payload : List (PyStr × Json))
    (b : PyStr) {a a' : PyStr} (h : a' ≠ a) (s : Store) :
    (publishAttemptEvent cfg x type payload b a s).2.db.job? a' = s.db.job? a' := by
  rcases store_publishAttemptEvent cfg x type payload b a s with hs | ⟨e, ha, hs⟩
  · rw [hs]
  · rw [hs]
    have hstep := Ops.rowStep_append s cfg.uplink.outbox x.clock e a'
    show (append cfg.uplink.outbox x.clock e s.db).2.job? a' = _
    generalize hx : s.db.job? a' = before at hstep ⊢
    generalize (append cfg.uplink.outbox x.clock e s.db).2.job? a' = after at hstep ⊢
    cases hstep with
    | keep => rfl
    | cursor hrow _ =>
      rw [ha] at hrow
      have hid := Db.attemptId_of_job? hx
      rw [← Option.some.inj hrow] at hid
      exact absurd hid.symm h

/-- A publish keeps a row, and the time of its last change is the old one or that of the publish. -/
theorem job?_publish (x : PublishInput) (type : MessageType) (payload : List (PyStr × Json)) (b a : PyStr)
    {s : Store} {a' : PyStr} {r : JobRow} (hr : s.db.job? a' = some r) :
    ∃ r', (publishAttemptEvent cfg x type payload b a s).2.db.job? a' = some r' ∧
      (r' = r ∨ r'.updatedAt = formatDatetime x.clock.updated) := by
  rcases store_publishAttemptEvent cfg x type payload b a s with hs | ⟨e, ha, hs⟩
  · exact ⟨r, by rw [hs, hr], Or.inl rfl⟩
  · rw [hs]
    have hstep := Ops.rowStep_append s cfg.uplink.outbox x.clock e a'
    rw [hr] at hstep
    show ∃ r', (append cfg.uplink.outbox x.clock e s.db).2.job? a' = some r' ∧ _
    generalize (append cfg.uplink.outbox x.clock e s.db).2.job? a' = after at hstep ⊢
    cases hstep with
    | keep => exact ⟨r, rfl, Or.inl rfl⟩
    | cursor => exact ⟨_, rfl, Or.inr rfl⟩

end Datetime

end BuildEngine.Agent.Commands
