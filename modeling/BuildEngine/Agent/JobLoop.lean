import BuildEngine.Agent.Uplink
import BuildEngine.Executor.Workspace

/-! # The worker pool

`agent/job_loop.py`, with the command handlers of `queue/handlers.py` and the part of the uplink that calls
them. The workers, their lease refreshes and the handler of frames are tasks of one event loop, so the
machine's actions are the stretches of code between two `await`s: a worker acquires a lease, starts the
attempt and creates its workspace in one stretch, and the `finally` of `execute_job` and the `except` clause
of `_worker` run in the stretch in which the exception is raised. What the build does (downloads, the
container, the upload) is left to the input: an action may raise any of its exceptions.

Two histories are kept beside the state: the published events, each with the row of its attempt at that
moment, and the directories that were made or removed, each with the workers that were using it. `poll_step` and
`work_step` say once what a stretch of a worker's code can do. -/

namespace BuildEngine.Agent.JobLoop

open BuildEngine.Base BuildEngine.Base.Json BuildEngine.Agent.Protocol BuildEngine.Agent.Uplink
open BuildEngine.Queue.Schema BuildEngine.Queue BuildEngine.Queue.Outbox BuildEngine.Executor.Workspace

/-! ### Errors -/

/-- `BuildExecutionError` -/
structure BuildExecutionError where
  errorClass : PyStr
  errorCode : PyStr
  message : PyStr

/-- The terminal state `_worker` gives an error. -/
def BuildExecutionError.target (e : BuildExecutionError) : JobState :=
  if e.errorClass = py "EXEC_TIMEOUT" then .timedOut
  else if e.errorClass = py "CANCELLED" then .cancelled
  else .failed

/-- What the body of `execute_job` may raise. -/
inductive Raised where
  | build (e : BuildExecutionError)
  /-- `ArtifactUploadError` -/
  | upload (message : PyStr)
  /-- `ArtifactError`, `DetectionError` and `WorkspaceError` -/
  | config (name message : PyStr)
  /-- `CacheError` and `DockerError` -/
  | infra (name message : PyStr)
  | other (message : PyStr)

/-- What reaches `_worker`: a structured failure, or any other exception. -/
inductive Failure where
  | build (e : BuildExecutionError)
  | crash (message : PyStr)

/-- The `except` clauses of `execute_job`. -/
def Raised.failure : Raised → Failure
  | .build e => .build e
  | .upload message => .build ⟨py "EXEC_INFRA", py "STORAGE_FAILURE", message⟩
  | .config name message => .build ⟨py "USER_CONFIG_INVALID", name, message⟩
  | .infra name message => .build ⟨py "EXEC_INFRA", name, message⟩
  | .other message => .crash message

/-- The variable `retain_failed` of `execute_job` after its `except` clauses. -/
def Raised.retainFailed : Raised → Bool
  | .build _ | .other _ => false
  | _ => true

/-- The error a crash is reported as. -/
def crashError (message : PyStr) : BuildExecutionError :=
  ⟨py "EXEC_INFRA", py "EXECUTOR_CRASH", message⟩

/-! ### State -/

/-- `QueueLease` -/
structure QueueLease where
  owner : PyStr
  job : JobRecord
  visibilityTimeoutSeconds : ℤ
  token : PyStr

/-- Where a worker is between two `await`s. -/
inductive Phase where
  | idle
  /-- In `execute_job`, up to `_ensure_current_attempt`. -/
  | building (l : QueueLease)
  /-- After it, up to the transition to `SUCCEEDED`. -/
  | packaging (l : QueueLease)
  /-- `SUCCEEDED` is stored; the duration is to be published. -/
  | succeeded (l : QueueLease)
  /-- `SUCCEEDED` is to be published. -/
  | acknowledging (l : QueueLease)
  /-- The error is to be published, and then the state if there is one. -/
  | reportingError (l : QueueLease) (e : BuildExecutionError) (state : Option JobState)
  /-- The state is to be published. -/
  | reportingState (l : QueueLease) (e : BuildExecutionError) (state : JobState)

/-- The lease of a worker between its `create_workspace` and its `cleanup_workspace`. -/
def Phase.inside? : Phase → Option QueueLease
  | .building l | .packaging l | .succeeded l | .acknowledging l => some l
  | _ => none

/-- The lease of a worker while its refresh task runs. -/
def Phase.lease? : Phase → Option QueueLease
  | .idle => none
  | .building l | .packaging l | .succeeded l | .acknowledging l => some l
  | .reportingError l _ _ | .reportingState l _ _ => some l

/-- A status the handler of frames has still to publish. -/
structure Reply where
  buildJobId : PyStr
  attemptId : PyStr
  payload : List (PyStr × Json)

/-- An event that was published, and the row of its attempt at that moment. -/
structure Report where
  event : Envelope
  row : Option JobRow

/-- A directory that a worker made, cleaned up or removed, and the workers that, at that moment, were inside
it with the attempt's current lease token. -/
structure Touch where
  worker : ℕ
  attemptId : PyStr
  users : ℕ → Bool

/-- The engine. `draining` says that the marker `drain.json` is there. -/
structure State where
  store : Store
  workers : ℕ → Phase
  replies : List Reply
  draining : Bool
  disk : Disk
  published : List Report
  touched : List Touch

/-- A process just started. -/
def State.init : State := ⟨.empty, fun _ => .idle, [], false, .empty, [], []⟩

/-- The settings: those of the uplink, `JobLoopOptions`, and the text `str` gives for an exception. -/
structure LoopConfig where
  uplink : UplinkConfig
  leaseSeconds : ℤ
  retainFailedWorkspaces : Bool
  failedWorkspaceKeep : ℤ
  str : OutboxError → PyStr
  /-- The text of the `FileNotFoundError` for the marker of a workspace that is gone. -/
  missingText : PyStr → PyStr
  /-- The text of the `WorkspaceError` for an identifier that is no canonical UUID. -/
  invalidText : PyStr → PyStr

/-- The name of a worker. -/
def owner (w : ℕ) : PyStr := py "worker-" ++ natText w

/-- A worker goes on to a phase. -/
def State.setWorker (s : State) (w : ℕ) (p : Phase) : State :=
  { s with workers := Function.update s.workers w p }

@[simp] theorem State.setWorker_self (s : State) (w : ℕ) (p : Phase) : (s.setWorker w p).workers w = p := by
  simp [State.setWorker]

@[simp] theorem State.setWorker_of_ne (s : State) {w v : ℕ} (p : Phase) (h : v ≠ w) :
    (s.setWorker w p).workers v = s.workers v := by
  simp [State.setWorker, h]

/-- The worker is inside the workspace of the attempt, with the attempt's current lease token. -/
def State.uses (s : State) (w : ℕ) (a : PyStr) : Bool :=
  (s.workers w).inside?.any fun l =>
    l.job.attemptId = a && (s.store.db.job? a).any fun r => r.leaseToken = some l.token

/-- A worker makes, cleans up or removes directories. -/
def State.touch (s : State) (w : ℕ) (dirs : List PyStr) (disk : Disk) : State :=
  { s with
    disk := disk
    touched := s.touched ++ dirs.map fun a => ⟨w, a, fun w' => s.uses w' a⟩ }

/-! ### Publishing -/

/-- The readings and the identifier `publish_attempt_event` gets from outside. -/
structure PublishInput where
  now : Instant
  timestamp : Instant
  messageId : PyStr
  clock : AppendClock

/-- The events a build publishes on its way. None of them carries a state. -/
inductive Progress where
  | preparing
  | pullingImage (image : PyStr)
  | cache (event : PyStr)
  | building (frameworkId packageManager : PyStr) (detectedOutputDir : Json)
  | packaging
  | artifactReady (sha256 : PyStr) (sizeBytes : ℤ)
  | uploading
  | metric (name : PyStr) (value : Json)
  | log (stream data : PyStr)

/-- The message type of a progress event. -/
def Progress.type : Progress → MessageType
  | .artifactReady _ _ => .artifactReady
  | .log _ _ => .attemptLog
  | _ => .attemptStatus

/-- `_status` -/
def statusPayload (phase : PyStr) (extra : List (PyStr × Json)) : List (PyStr × Json) :=
  (py "phase", .str phase) :: extra

/-- The payload of a progress event. -/
def Progress.payload : Progress → List (PyStr × Json)
  | .preparing => statusPayload (py "PREPARING") []
  | .pullingImage image => statusPayload (py "PULLING_IMAGE") [(py "image", .str image)]
  | .cache event => statusPayload (py "CACHE") [(py "event", .str event)]
  | .building frameworkId packageManager detectedOutputDir =>
    statusPayload (py "BUILDING") [(py "framework_id", .str frameworkId),
      (py "package_manager", .str packageManager), (py "detected_output_dir", detectedOutputDir)]
  | .packaging => statusPayload (py "PACKAGING") []
  | .artifactReady sha256 sizeBytes =>
    [(py "sha256", .str sha256), (py "size_bytes", .int sizeBytes)]
  | .uploading => statusPayload (py "UPLOADING") []
  | .metric name value => statusPayload (py "METRIC") [(py "name", .str name), (py "value", value)]
  | .log stream data => [(py "stream", .str stream), (py "data", .str data)]

/-- `_log` suppresses what its publish raises. -/
def Progress.suppressed : Progress → Bool
  | .log _ _ => true
  | _ => false

/-- The payload of `_ack`. -/
def ackPayload (buildJobId attemptId : PyStr) (state : PyStr) (error : Option BuildExecutionError) :
    List (PyStr × Json) :=
  [(py "build_job_id", .str buildJobId), (py "attempt_id", .str attemptId), (py "state", .str state)] ++
    match error with
    | none => []
    | some e => [(py "error_class", .str e.errorClass), (py "error_code", .str e.errorCode),
        (py "error_message", .str e.message)]

/-- The payload of `_publish_error`. -/
def errorPayload (e : BuildExecutionError) : List (PyStr × Json) :=
  [(py "error_class", .str e.errorClass), (py "error_code", .str e.errorCode),
    (py "message", .str e.message)]

section Datetime
variable [PyDatetime] (cfg : LoopConfig)

/-- `publish_attempt_event` on the store, in one piece: its number, its envelope and its append. -/
def publishAttemptEvent (x : PublishInput) (type : MessageType) (payload : List (PyStr × Json))
    (buildJobId attemptId : PyStr) (s : Store) : Except OutboxError Envelope × Store :=
  match nextSeq attemptId s.db with
  | .error err => (.error err, s)
  | .ok seq =>
    match newEnvelope x.now x.timestamp x.messageId type payload cfg.uplink.engineId (some buildJobId)
        (some attemptId) (some seq) with
    | .error err => (.error (.exc err), s)
    | .ok e =>
      match append cfg.uplink.outbox x.clock e s.db with
      | (.error err, db) => (.error err, { s with db := db })
      | (.ok _, db) => (.ok e, { s with db := db })

/-- A publish, with its entry in the history. -/
def publish (x : PublishInput) (type : MessageType) (payload : List (PyStr × Json))
    (buildJobId attemptId : PyStr) (s : State) : Except OutboxError Unit × State :=
  match publishAttemptEvent cfg x type payload buildJobId attemptId s.store with
  | (.error err, store) => (.error err, { s with store := store })
  | (.ok e, store) =>
    (.ok (), { s with store := store, published := s.published ++ [⟨e, store.db.job? attemptId⟩] })

/-- A publish is an append, or changes nothing. -/
theorem store_publishAttemptEvent (x : PublishInput) (type : MessageType) (payload : List (PyStr × Json))
    (b a : PyStr) (s : Store) : (publishAttemptEvent cfg x type payload b a s).2 = s ∨
      ∃ e, e.attemptId = some a ∧ (publishAttemptEvent cfg x type payload b a s).2 =
        { s with db := (append cfg.uplink.outbox x.clock e s.db).2 } := by
  unfold publishAttemptEvent
  split
  · exact Or.inl rfl
  · split
    · exact Or.inl rfl
    · next seq _ e he =>
      have ha : e.attemptId = some a := by
        rw [(of_newEnvelope he).1]
      right
      refine ⟨e, ha, ?_⟩
      split <;> next hcall => rw [hcall]

/-- A publish leaves the workers, the disk and the replies alone. -/
theorem publish_frame (x : PublishInput) (type : MessageType) (payload : List (PyStr × Json)) (b a : PyStr)
    (s : State) : (publish cfg x type payload b a s).2.workers = s.workers ∧
      (publish cfg x type payload b a s).2.replies = s.replies ∧
      (publish cfg x type payload b a s).2.disk = s.disk ∧
      (publish cfg x type payload b a s).2.touched = s.touched := by
  unfold publish
  split <;> exact ⟨rfl, rfl, rfl, rfl⟩

/-- A publish of a worker for the attempt of its lease. -/
def publishFor (l : QueueLease) (x : PublishInput) (type : MessageType) (payload : List (PyStr × Json))
    (s : State) : Except OutboxError Unit × State :=
  publish cfg x type payload l.job.buildJobId l.job.attemptId s

/-! ### The end of an attempt -/

/-- The `except` clauses of `_worker`, up to their first `await`. -/
def handleFailure (now : Instant) (w : ℕ) (l : QueueLease) (f : Failure) (s : State) : State :=
  let current := s.store.getJob l.job.buildJobId l.job.attemptId
  match f with
  | .build e =>
    -- what the transition raises is suppressed
    let store := match current with
      | some job =>
        if job.state.isTerminal then s.store
        else (s.store.transition now l.job.attemptId e.target.text (some e.message)
          (some job.state.text) (some l.owner) (some l.token)).2
      | none => s.store
    { s with store := store }.setWorker w (.reportingError l e (some e.target))
  | .crash message =>
    if current.any (·.state.isTerminal) then s.setWorker w .idle
    else match s.store.recordExecutorCrash now l.job.attemptId message (some l.owner) (some l.token) with
      | (.error _, store) =>
        { s with store := store }.setWorker w (.reportingError l (crashError message) none)
      | (.ok recovered, store) =>
        { s with store := store }.setWorker w (.reportingError l (crashError message)
          (if recovered.state = JobState.failed then some JobState.failed else none))

/-- An exception leaves the body of `execute_job`: its `finally` and then `_worker`. -/
def unwind (now : Instant) (mtime : ℤ) (w : ℕ) (l : QueueLease) (r : Raised) (s : State) : State :=
  match cleanupWorkspace l.job.attemptId (r.retainFailed && cfg.retainFailedWorkspaces)
      cfg.failedWorkspaceKeep mtime s.disk with
  | none => handleFailure now w l (.crash (cfg.missingText l.job.attemptId)) s
  | some (dirs, disk) => handleFailure now w l r.failure (s.touch w dirs disk)

/-- `execute_job` returns. -/
def finish (w : ℕ) (l : QueueLease) (s : State) : State :=
  match cleanupWorkspace l.job.attemptId false cfg.failedWorkspaceKeep 0 s.disk with
  | none => s
  | some (dirs, disk) => (s.touch w dirs disk).setWorker w .idle

/-- `_ensure_current_attempt`: what it raises. -/
def ensureCurrentAttempt (l : QueueLease) (s : Store) : Option Raised :=
  let raises (name text : String) : Option Raised := some (.build ⟨py name, py name, py text⟩)
  let stale := raises "STALE_ATTEMPT"
  match s.isCurrentAttempt l.job.buildJobId l.job.attemptId with
  | .error err => some (.other (cfg.str (.queue err)))
  | .ok false => stale "Build attempt was superseded by a newer assignment"
  | .ok true =>
    match s.getJob l.job.buildJobId l.job.attemptId with
    | none => stale "Build attempt is no longer running"
    | some job =>
      if job.state ≠ .running then stale "Build attempt is no longer running"
      else if job.leaseOwner ≠ some l.owner then stale "Build lease ownership was lost"
      else if job.leaseToken ≠ some l.token then stale "Build lease token was replaced"
      else if job.cancelRequested then raises "CANCELLED" "Build cancellation was requested"
      else none

/-! ### Actions -/

/-- A stretch of code of a worker that has a lease. -/
inductive Work where
  /-- A publish of `execute_job`. -/
  | progress (p : Progress) (x : PublishInput) (now : Instant) (mtime : ℤ)
  /-- Anything else `execute_job` does raises. -/
  | raised (r : Raised) (now : Instant) (mtime : ℤ)
  /-- `_ensure_current_attempt` -/
  | ensureCurrent (now : Instant) (mtime : ℤ)
  /-- The transition to `SUCCEEDED`. -/
  | succeed (stored now : Instant) (mtime : ℤ)
  /-- The publish of `jobs.duration_seconds`. -/
  | duration (value : Json) (x : PublishInput) (now : Instant) (mtime : ℤ)
  /-- `_ack(state="SUCCEEDED")` -/
  | ackSucceeded (x : PublishInput) (now : Instant) (mtime : ℤ)
  /-- `_publish_safely` -/
  | publishError (x : PublishInput)
  /-- `_ack_safely` -/
  | ackFailed (x : PublishInput)

/-- A stretch of code between two `await`s. The readings `now` and `mtime` are those of the handling of an
exception, if there is one. -/
inductive Action where
  /-- A turn of `_worker` up to its first `await`, with the readings of `acquire_lease` and of the
  transition to `RUNNING`. -/
  | poll (w : ℕ) (acquired started now : Instant) (token : PyStr)
  | work (w : ℕ) (a : Work)
  /-- A turn of `_refresh_lease`. -/
  | refresh (w : ℕ) (now : Instant)
  /-- A `job.assign` frame, with its attempt fields and its payload. -/
  | assign (now : Instant) (buildJobId attemptId : PyStr) (payload : List (PyStr × Json))
  /-- A `job.cancel` frame: `attempt_id` of its payload, and that of the frame or else its payload. -/
  | cancel (now : Instant) (buildJobId : PyStr) (attemptId explicitAttemptId : Option PyStr)
  /-- The handler publishes the next status it owes. -/
  | reply (x : PublishInput)
  /-- The marker `drain.json` is written, or removed. -/
  | drain
  | resume
  /-- An `event.ack` frame. -/
  | ackEvent (attemptId : PyStr) (lastSeq : ℕ)

/-- One turn of `_worker`: lease an attempt, start it, and enter `execute_job`. -/
def poll (w : ℕ) (acquired started now : Instant) (token : PyStr) (s : State) : State :=
  match s.store.acquireLease acquired token (owner w) cfg.leaseSeconds with
  | (.ok (some job), store) =>
    let l : QueueLease := ⟨owner w, job, cfg.leaseSeconds, job.leaseToken.getD []⟩
    match store.transition started job.attemptId (py "RUNNING") none (some (py "LEASED"))
        (some l.owner) (some l.token) with
    | (.error _, store) => { s with store := store }
    | (.ok _, store) =>
      let s' : State := { s with store := store }
      match createWorkspace job.attemptId s.disk with
      | none => handleFailure now w l (.crash (cfg.invalidText job.attemptId)) s'
      | some disk => (s'.touch w [job.attemptId] disk).setWorker w (.building l)
  | (_, store) => { s with store := store }

/-- `SQLiteCommandHandlers.assign` and `_handle_assign`, up to its publish. -/
def handleAssign (now : Instant) (buildJobId attemptId : PyStr) (payload : List (PyStr × Json))
    (s : State) : State :=
  let reply (state : PyStr) : Reply :=
    ⟨buildJobId, attemptId, ackPayload buildJobId attemptId state none⟩
  if s.draining then { s with replies := [reply (py "FAILED")] }
  else
    let merged := set (set payload (py "build_job_id") (.str buildJobId)) (py "attempt_id")
      (.str attemptId)
    match s.store.enqueue now merged with
    | (.error _, store) => { s with store := store }
    | (.ok result, store) => { s with store := store, replies := [reply result.job.state.text] }

/-- `SQLiteCommandHandlers.cancel` and `_handle_cancel`, up to its publishes. -/
def handleCancel (now : Instant) (buildJobId : PyStr) (attemptId explicitAttemptId : Option PyStr)
    (s : State) : State :=
  let (affected, store) := s.store.requestCancel now buildJobId attemptId
  let attemptIds := if affected = [] then explicitAttemptId.toList else affected
  { s with
    store := store
    replies := attemptIds.map fun a => ⟨buildJobId, a,
      [(py "build_job_id", .str buildJobId), (py "attempt_id", .str a),
        (py "phase", .str (py "CANCELLING"))]⟩ }

/-- What a worker that has a lease does. -/
def work (s : State) (w : ℕ) : Phase → Work → State
  | .building l, .progress p x now mtime | .packaging l, .progress p x now mtime =>
    match publishFor cfg l x p.type p.payload s with
    | (.ok _, s') => s'
    | (.error err, s') =>
      if p.suppressed then s' else unwind cfg now mtime w l (.other (cfg.str err)) s'
  | .building l, .raised r now mtime | .packaging l, .raised r now mtime =>
    unwind cfg now mtime w l r s
  | .building l, .ensureCurrent now mtime =>
    match ensureCurrentAttempt cfg l s.store with
    | none => s.setWorker w (.packaging l)
    | some r => unwind cfg now mtime w l r s
  | .packaging l, .succeed stored now mtime =>
    match s.store.transition stored l.job.attemptId (py "SUCCEEDED") none (some (py "RUNNING"))
        (some l.owner) (some l.token) with
    | (.ok _, store) => { s with store := store }.setWorker w (.succeeded l)
    | (.error err, store) =>
      unwind cfg now mtime w l (.other (cfg.str (.queue err))) { s with store := store }
  | .succeeded l, .duration value x now mtime =>
    match publishFor cfg l x .attemptStatus
        (Progress.metric (py "jobs.duration_seconds") value).payload s with
    | (.ok _, s') => s'.setWorker w (.acknowledging l)
    | (.error err, s') => unwind cfg now mtime w l (.other (cfg.str err)) s'
  | .acknowledging l, .ackSucceeded x now mtime =>
    match publishFor cfg l x .attemptStatus
        (ackPayload l.job.buildJobId l.job.attemptId (py "SUCCEEDED") none) s with
    | (.ok _, s') => finish cfg w l s'
    | (.error err, s') => unwind cfg now mtime w l (.other (cfg.str err)) s'
  | .reportingError l e state, .publishError x =>
    let s' := (publishFor cfg l x .error (errorPayload e) s).2
    match state with
    | none => s'.setWorker w .idle
    | some st => s'.setWorker w (.reportingState l e st)
  | .reportingState l e st, .ackFailed x =>
    ((publishFor cfg l x .attemptStatus
      (ackPayload l.job.buildJobId l.job.attemptId st.text (some e)) s).2).setWorker w .idle
  | _, _ => s

/-- What an action does. -/
def step (s : State) : Action → State
  | .poll w acquired started now token =>
    match s.workers w with
    | .idle => poll cfg w acquired started now token s
    | _ => s
  | .work w a => work cfg s w (s.workers w) a
  | .refresh w now =>
    match (s.workers w).lease? with
    | some l => { s with
        store := (s.store.refreshLease now l.job.attemptId l.owner l.visibilityTimeoutSeconds
          (some l.token)).2 }
    | none => s
  | .assign now buildJobId attemptId payload =>
    if s.replies.isEmpty then handleAssign now buildJobId attemptId payload s else s
  | .cancel now buildJobId attemptId explicitAttemptId =>
    if s.replies.isEmpty then handleCancel now buildJobId attemptId explicitAttemptId s else s
  | .reply x =>
    match s.replies with
    | [] => s
    | r :: rest =>
      match publish cfg x .attemptStatus r.payload r.buildJobId r.attemptId s with
      | (.ok _, s') => { s' with replies := rest }
      -- the exception ends the connection, and with it the handler
      | (.error _, s') => { s' with replies := [] }
  | .drain => { s with draining := true }
  | .resume => { s with draining := false }
  | .ackEvent attemptId lastSeq =>
    if s.replies.isEmpty then
      { s with store := { s.store with db := (ackThrough attemptId lastSeq s.store.db).2 } }
    else s

/-! ### What a stretch of code can do -/

/-- The lease `acquire_queue_lease` makes of a record. -/
def leaseOf (w : ℕ) (job : JobRecord) : QueueLease :=
  ⟨owner w, job, cfg.leaseSeconds, job.leaseToken.getD []⟩

/-- What a turn of the loop of `_worker` can do. -/
inductive PollStep (w : ℕ) (acquired started now : Instant) (token : PyStr) (s : State) : State → Prop where
  | without {result : Except QueueError (Option JobRecord)} {store : Store}
      (ha : s.store.acquireLease acquired token (owner w) cfg.leaseSeconds = (result, store)) :
      PollStep w acquired started now token s { s with store := store }
  | refused {job : JobRecord} {store store' : Store} {err : QueueError}
      (ha : s.store.acquireLease acquired token (owner w) cfg.leaseSeconds = (.ok (some job), store))
      (ht : store.transition started job.attemptId (py "RUNNING") none (some (py "LEASED"))
        (some (leaseOf cfg w job).owner) (some (leaseOf cfg w job).token) = (.error err, store')) :
      PollStep w acquired started now token s { s with store := store' }
  | invalid {job running : JobRecord} {store store' : Store}
      (ha : s.store.acquireLease acquired token (owner w) cfg.leaseSeconds = (.ok (some job), store))
      (ht : store.transition started job.attemptId (py "RUNNING") none (some (py "LEASED"))
        (some (leaseOf cfg w job).owner) (some (leaseOf cfg w job).token) = (.ok running, store')) :
      PollStep w acquired started now token s (handleFailure now w (leaseOf cfg w job)
        (.crash (cfg.invalidText job.attemptId)) { s with store := store' })
  | started {job running : JobRecord} {store store' : Store} {disk : Disk}
      (ha : s.store.acquireLease acquired token (owner w) cfg.leaseSeconds = (.ok (some job), store))
      (ht : store.transition started job.attemptId (py "RUNNING") none (some (py "LEASED"))
        (some (leaseOf cfg w job).owner) (some (leaseOf cfg w job).token) = (.ok running, store'))
      (hd : createWorkspace job.attemptId s.disk = some disk) :
      PollStep w acquired started now token s
        ((({ s with store := store' } : State).touch w [job.attemptId] disk).setWorker w
          (.building (leaseOf cfg w job)))

omit [PyDatetime] in
theorem poll_step (w : ℕ) (acquired started now : Instant) (token : PyStr) (s : State) :
    PollStep cfg w acquired started now token s (poll cfg w acquired started now token s) := by
  unfold poll
  split
  · next job store ha =>
    dsimp only
    split
    · next ht => exact .refused ha ht
    · next ht =>
      split
      · exact .invalid ha ht
      · next hd => exact .started ha ht hd
  · next ha => exact .without ha

/-- What a worker that has a lease can do in a stretch of code. -/
inductive WorkStep (s : State) (w : ℕ) : Phase → Work → State → Prop where
  /-- The stretch is not one of the phase. -/
  | other {p : Phase} {a : Work} : WorkStep s w p a s
  /-- The publish returns, or what it raises is suppressed. -/
  | progress {p : Phase} {l : QueueLease} {e : Progress} {x : PublishInput} {now : Instant} {mtime : ℤ}
      (hp : p = .building l ∨ p = .packaging l) :
      WorkStep s w p (.progress e x now mtime) (publishFor cfg l x e.type e.payload s).2
  | progressRaised {p : Phase} {l : QueueLease} {e : Progress} {x : PublishInput} {now : Instant} {mtime : ℤ}
      {err : OutboxError} (hp : p = .building l ∨ p = .packaging l)
      (hx : (publishFor cfg l x e.type e.payload s).1 = .error err) :
      WorkStep s w p (.progress e x now mtime)
        (unwind cfg now mtime w l (.other (cfg.str err)) (publishFor cfg l x e.type e.payload s).2)
  | raised {p : Phase} {l : QueueLease} {r : Raised} {now : Instant} {mtime : ℤ}
      (hp : p = .building l ∨ p = .packaging l) :
      WorkStep s w p (.raised r now mtime) (unwind cfg now mtime w l r s)
  | current {l : QueueLease} {now : Instant} {mtime : ℤ} (hc : ensureCurrentAttempt cfg l s.store = none) :
      WorkStep s w (.building l) (.ensureCurrent now mtime) (s.setWorker w (.packaging l))
  | stale {l : QueueLease} {r : Raised} {now : Instant} {mtime : ℤ}
      (hc : ensureCurrentAttempt cfg l s.store = some r) :
      WorkStep s w (.building l) (.ensureCurrent now mtime) (unwind cfg now mtime w l r s)
  | succeeded {l : QueueLease} {stored now : Instant} {mtime : ℤ} {job : JobRecord} {store : Store}
      (ht : s.store.transition stored l.job.attemptId (py "SUCCEEDED") none (some (py "RUNNING"))
        (some l.owner) (some l.token) = (.ok job, store)) :
      WorkStep s w (.packaging l) (.succeed stored now mtime)
        ({ s with store := store }.setWorker w (.succeeded l))
  | refused {l : QueueLease} {stored now : Instant} {mtime : ℤ} {err : QueueError} {store : Store}
      (ht : s.store.transition stored l.job.attemptId (py "SUCCEEDED") none (some (py "RUNNING"))
        (some l.owner) (some l.token) = (.error err, store)) :
      WorkStep s w (.packaging l) (.succeed stored now mtime)
        (unwind cfg now mtime w l (.other (cfg.str (.queue err))) { s with store := store })
  | timed {l : QueueLease} {value : Json} {x : PublishInput} {now : Instant} {mtime : ℤ} :
      WorkStep s w (.succeeded l) (.duration value x now mtime)
        ((publishFor cfg l x .attemptStatus (Progress.metric (py "jobs.duration_seconds") value).payload
          s).2.setWorker w (.acknowledging l))
  | timedRaised {l : QueueLease} {value : Json} {x : PublishInput} {now : Instant} {mtime : ℤ} {err : OutboxError}
      (hx : (publishFor cfg l x .attemptStatus (Progress.metric (py "jobs.duration_seconds") value).payload
        s).1 = .error err) :
      WorkStep s w (.succeeded l) (.duration value x now mtime)
        (unwind cfg now mtime w l (.other (cfg.str err)) (publishFor cfg l x .attemptStatus
          (Progress.metric (py "jobs.duration_seconds") value).payload s).2)
  | acknowledged {l : QueueLease} {x : PublishInput} {now : Instant} {mtime : ℤ} :
      WorkStep s w (.acknowledging l) (.ackSucceeded x now mtime)
        (finish cfg w l (publishFor cfg l x .attemptStatus
          (ackPayload l.job.buildJobId l.job.attemptId (py "SUCCEEDED") none) s).2)
  | acknowledgedRaised {l : QueueLease} {x : PublishInput} {now : Instant} {mtime : ℤ} {err : OutboxError}
      (hx : (publishFor cfg l x .attemptStatus
        (ackPayload l.job.buildJobId l.job.attemptId (py "SUCCEEDED") none) s).1 = .error err) :
      WorkStep s w (.acknowledging l) (.ackSucceeded x now mtime)
        (unwind cfg now mtime w l (.other (cfg.str err)) (publishFor cfg l x .attemptStatus
          (ackPayload l.job.buildJobId l.job.attemptId (py "SUCCEEDED") none) s).2)
  | errorReported {l : QueueLease} {e : BuildExecutionError} {state : Option JobState} {x : PublishInput} :
      WorkStep s w (.reportingError l e state) (.publishError x)
        ((publishFor cfg l x .error (errorPayload e) s).2.setWorker w (state.elim .idle (.reportingState l e)))
  | stateReported {l : QueueLease} {e : BuildExecutionError} {st : JobState} {x : PublishInput} :
      WorkStep s w (.reportingState l e st) (.ackFailed x)
        ((publishFor cfg l x .attemptStatus
          (ackPayload l.job.buildJobId l.job.attemptId st.text (some e)) s).2.setWorker w .idle)

/-- A publish on the way returns, is suppressed, or ends the work. -/
theorem workStep_progress (s : State) (w : ℕ) {p : Phase} {l : QueueLease} (hp : p = .building l ∨ p = .packaging l)
    (e : Progress) (x : PublishInput) (now : Instant) (mtime : ℤ) :
    WorkStep cfg s w p (.progress e x now mtime) (match publishFor cfg l x e.type e.payload s with
      | (.ok _, s') => s'
      | (.error err, s') =>
        if e.suppressed then s' else unwind cfg now mtime w l (.other (cfg.str err)) s') := by
  have hreturned : WorkStep cfg s w p (.progress e x now mtime) (publishFor cfg l x e.type e.payload s).2 :=
    .progress hp
  split
  · next hx => rw [hx] at hreturned; exact hreturned
  · next err s' hx =>
    have hraised : WorkStep cfg s w p (.progress e x now mtime) (unwind cfg now mtime w l (.other (cfg.str err))
        (publishFor cfg l x e.type e.payload s).2) := .progressRaised hp (congrArg Prod.fst hx)
    rw [hx] at hreturned hraised
    split_ifs
    · exact hreturned
    · exact hraised

theorem work_step (s : State) (w : ℕ) (p : Phase) (a : Work) : WorkStep cfg s w p a (work cfg s w p a) := by
  rcases p with _ | l | l | l | l | ⟨l, e, state⟩ | ⟨l, e, st⟩ <;> cases a <;> try exact .other
  case building.progress e x now mtime => exact workStep_progress cfg s w (Or.inl rfl) e x now mtime
  case packaging.progress e x now mtime => exact workStep_progress cfg s w (Or.inr rfl) e x now mtime
  case building.raised r now mtime => exact .raised (Or.inl rfl)
  case packaging.raised r now mtime => exact .raised (Or.inr rfl)
  case building.ensureCurrent now mtime =>
    simp only [work]
    split
    · next hc => exact .current hc
    · next hc => exact .stale hc
  case packaging.succeed stored now mtime =>
    simp only [work]
    split
    · next ht => exact .succeeded ht
    · next ht => exact .refused ht
  case succeeded.duration value x now mtime =>
    have htimed : WorkStep cfg s w (.succeeded l) (.duration value x now mtime) _ := .timed
    simp only [work]
    split
    · next hx => rw [hx] at htimed; exact htimed
    · next err s' hx =>
      have hraised : WorkStep cfg s w (.succeeded l) (.duration value x now mtime) _ :=
        .timedRaised (congrArg Prod.fst hx)
      rw [hx] at hraised
      exact hraised
  case acknowledging.ackSucceeded x now mtime =>
    have hacked : WorkStep cfg s w (.acknowledging l) (.ackSucceeded x now mtime) _ := .acknowledged
    simp only [work]
    split
    · next hx => rw [hx] at hacked; exact hacked
    · next err s' hx =>
      have hraised : WorkStep cfg s w (.acknowledging l) (.ackSucceeded x now mtime) _ :=
        .acknowledgedRaised (congrArg Prod.fst hx)
      rw [hx] at hraised
      exact hraised
  case reportingError.publishError x =>
    cases state with
    | none => exact .errorReported
    | some st => exact .errorReported
  case reportingState.ackFailed x => exact .stateReported

/-! ### Other workers -/

/-- The worker whose code an action runs. -/
def Action.worker? : Action → Option ℕ
  | .poll w _ _ _ _ | .work w _ => some w
  | _ => none

omit [PyDatetime] in
theorem workers_handleFailure {v w : ℕ} (h : v ≠ w) (now : Instant) (l : QueueLease) (f : Failure) (s : State) :
    (handleFailure now w l f s).workers v = s.workers v := by
  unfold handleFailure
  rcases f with e | message
  · exact State.setWorker_of_ne _ _ h
  · dsimp only
    split_ifs
    · exact State.setWorker_of_ne _ _ h
    · split <;> exact State.setWorker_of_ne _ _ h

omit [PyDatetime] in
theorem workers_unwind {v w : ℕ} (h : v ≠ w) (now : Instant) (mtime : ℤ) (l : QueueLease) (r : Raised)
    (s : State) : (unwind cfg now mtime w l r s).workers v = s.workers v := by
  unfold unwind
  split <;> exact workers_handleFailure h now l _ _

omit [PyDatetime] in
theorem workers_poll {v w : ℕ} (h : v ≠ w) (acquired started now : Instant) (token : PyStr) (s : State) :
    (poll cfg w acquired started now token s).workers v = s.workers v := by
  have hstep := poll_step cfg w acquired started now token s
  generalize poll cfg w acquired started now token s = t at hstep ⊢
  cases hstep with
  | without => rfl
  | refused => rfl
  | invalid => exact workers_handleFailure h now _ _ _
  | started => exact State.setWorker_of_ne _ _ h

theorem workers_publishFor (l : QueueLease) (x : PublishInput) (type : MessageType)
    (payload : List (PyStr × Json)) (s : State) :
    (publishFor cfg l x type payload s).2.workers = s.workers := (publish_frame cfg x type payload _ _ s).1

theorem workers_work {v w : ℕ} (h : v ≠ w) (s : State) (p : Phase) (a : Work) :
    (work cfg s w p a).workers v = s.workers v := by
  have hpub : ∀ l x type payload, (publishFor cfg l x type payload s).2.workers v = s.workers v :=
    fun l x type payload => congrFun (workers_publishFor cfg l x type payload s) v
  have hunwind : ∀ now mtime l r (t : State), (unwind cfg now mtime w l r t).workers v = t.workers v :=
    fun now mtime l r t => workers_unwind cfg h now mtime l r t
  have hset : ∀ (t : State) q, (t.setWorker w q).workers v = t.workers v :=
    fun t q => State.setWorker_of_ne t q h
  have hstep := work_step cfg s w p a
  generalize work cfg s w p a = t at hstep ⊢
  cases hstep with
  | other => rfl
  | progress => exact hpub _ _ _ _
  | progressRaised => exact (hunwind _ _ _ _ _).trans (hpub _ _ _ _)
  | raised => exact hunwind _ _ _ _ _
  | current => exact hset _ _
  | stale => exact hunwind _ _ _ _ _
  | succeeded => exact hset _ _
  | refused => exact hunwind _ _ _ _ _
  | timed => exact (hset _ _).trans (hpub _ _ _ _)
  | timedRaised => exact (hunwind _ _ _ _ _).trans (hpub _ _ _ _)
  | acknowledged =>
    unfold finish
    split
    · exact hpub _ _ _ _
    · exact (hset _ _).trans (hpub _ _ _ _)
  | acknowledgedRaised => exact (hunwind _ _ _ _ _).trans (hpub _ _ _ _)
  | errorReported => exact (hset _ _).trans (hpub _ _ _ _)
  | stateReported => exact (hset _ _).trans (hpub _ _ _ _)

/-- An action leaves the workers whose code it does not run where they are. -/
theorem workers_step {v : ℕ} (s : State) (act : Action) (h : act.worker? ≠ some v) :
    (step cfg s act).workers v = s.workers v := by
  cases act with
  | poll w acquired started now token =>
    have hv : v ≠ w := fun he => h (by rw [he]; rfl)
    simp only [step]
    split
    · exact workers_poll cfg hv acquired started now token s
    · rfl
  | work w a => exact workers_work cfg (fun he => h (by rw [he]; rfl)) s _ a
  | refresh w now =>
    simp only [step]
    split <;> rfl
  | assign now b a payload =>
    simp only [step]
    unfold handleAssign
    dsimp only
    split_ifs
    · rfl
    · split <;> rfl
    · rfl
  | cancel now b a explicit =>
    simp only [step]
    split_ifs <;> rfl
  | reply x =>
    simp only [step]
    split
    · rfl
    · next r rest _ =>
      have hkeep := congrFun (publish_frame cfg x .attemptStatus r.payload r.buildJobId r.attemptId s).1 v
      split <;> next hx => rw [hx] at hkeep; exact hkeep
  | drain => rfl
  | resume => rfl
  | ackEvent a n =>
    simp only [step]
    split_ifs <;> rfl

/-- A worker whose code a run never runs stays where it is. -/
theorem workers_run {v : ℕ} : ∀ (acts : List Action) {s : State}, (∀ act ∈ acts, act.worker? ≠ some v) →
    (Run.run (step cfg) s acts).workers v = s.workers v
  | [], _, _ => rfl
  | act :: acts, s, h => by
    rw [Run.run_cons, workers_run acts fun a ha => h a (List.mem_cons_of_mem _ ha)]
    exact workers_step cfg s act (h act List.mem_cons_self)

end Datetime

/-! ### A pool to run examples on -/

/-- The settings of a worker pool. -/
def sampleLoop : LoopConfig where
  uplink := ⟨zeroEngineId, Ops.sampleConfig⟩
  leaseSeconds := 120
  retainFailedWorkspaces := false
  failedWorkspaceKeep := 5
  str := fun _ => py "error"
  missingText := fun _ => py "missing"
  invalidText := fun _ => py "attempt_id must be a canonical UUID"

/-- A publish `n` seconds after the epoch. -/
def publishAt (n : ℕ) : PublishInput where
  now := seconds n
  timestamp := seconds n
  messageId := py "00000000-0000-4000-8000-000000000" ++ padded 3 n
  clock := ⟨seconds n, seconds n, seconds n⟩

/-- A container that exits with an error. -/
def exitError : BuildExecutionError :=
  ⟨py "USER_BUILD_FAILED", py "CONTAINER_EXIT", py "Build container exited with code 1"⟩

/-- The sample attempt is assigned and leased by the first worker. -/
def assignActs : List Action :=
  [.assign 0 Ops.sampleBuild Ops.sampleAttempt [], .reply (publishAt 1),
    .poll 0 (seconds 2) (seconds 2) (seconds 2) (py "token-0")]

end BuildEngine.Agent.JobLoop
