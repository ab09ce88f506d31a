import BuildEngine.Agent.JobLoop
import BuildEngine.Agent.RoundTrip
import BuildEngine.Queue.StateMachine

/-! # Reports of terminal states

A terminal state is published from the success path of `execute_job`, from both `except` clauses of
`_worker`, and in the reply to an assignment. A row that is terminal keeps its state (`RowStep.terminal`), so
a report agrees with the row if the row was in the reported state when the report became due. That is so
on every path but two: the clause for `BuildExecutionError` reports its state even if the transition to it was
refused, and an assignment is answered with `FAILED` while the engine drains. `ReportsHeld` is the
condition under which these two agree with the row as well. -/

namespace BuildEngine.Agent.TerminalReports

open BuildEngine.Base BuildEngine.Base.Json BuildEngine.Base.Run BuildEngine.Agent.Protocol
open BuildEngine.Agent.JobLoop BuildEngine.Queue.Schema BuildEngine.Queue
open BuildEngine.Queue.Store BuildEngine.Queue.Outbox BuildEngine.Queue.Ops
open BuildEngine.Queue.StateMachine BuildEngine.Executor.Workspace

/-! ### Reports -/

/-- The terminal state a status event reports. -/
def reportedState? (type : MessageType) (payload : List (PyStr × Json)) : Option JobState :=
  if type = .attemptStatus then
    match get? payload (py "state") with
    | some (.str text) => (JobState.ofText? text).filter (·.isTerminal)
    | _ => none
  else none

/-- The terminal state of a published event. -/
def Report.state? (r : Report) : Option JobState := reportedState? r.event.type r.event.payload

/-- Every terminal state that was published is the state its row was in at that moment, and no two
terminal states were published for one attempt. -/
def ReportsAgree (s : State) : Prop :=
  (∀ r ∈ s.published, ∀ st, Report.state? r = some st → ∀ row, r.row = some row → row.state = st) ∧
  ∀ r ∈ s.published, ∀ r' ∈ s.published, r.event.attemptId = r'.event.attemptId →
    ∀ st st', Report.state? r = some st → Report.state? r' = some st' → st = st'

theorem reportedState?_ackPayload (b a : PyStr) (st : JobState) (error : Option BuildExecutionError) :
    reportedState? .attemptStatus (ackPayload b a st.text error) = if st.isTerminal then some st else none := by
  have hget : get? (ackPayload b a st.text error) (py "state") = some (.str st.text) := by
    unfold ackPayload get?
    rfl
  unfold reportedState?
  rw [if_pos rfl, hget]
  simp only [JobState.ofText?_text, Option.filter_some]

theorem reportedState?_progress (p : Progress) : reportedState? p.type p.payload = none := by
  cases p <;> rfl

theorem reportedState?_error (payload : List (PyStr × Json)) : reportedState? .error payload = none := rfl

/-! ### What the calls of the engine keep -/

/-- Terminal rows keep their state, and no row appears. -/
structure Settles (s t : Store) : Prop where
  terminal : ∀ a st, InTerminal a st s → InTerminal a st t
  absent : ∀ a, s.db.job? a = none → t.db.job? a = none

theorem Settles.refl (s : Store) : Settles s s := ⟨fun _ _ h => h, fun _ h => h⟩

theorem Settles.trans {s t u : Store} (h : Settles s t) (h' : Settles t u) : Settles s u :=
  ⟨fun a st hs => h'.terminal a st (h.terminal a st hs), fun a hs => h'.absent a (h.absent a hs)⟩

/-- A call other than `prune_terminal` keeps terminal rows. -/
theorem inTerminal_apply {s : Store} (op : Op) {a : PyStr} {st : JobState} (h : InTerminal a st s)
    (hop : ∀ now days, op ≠ .pruneTerminal now days) : InTerminal a st (apply s op) := by
  obtain ⟨ht, r, hr, hst⟩ := h
  have hrow := rowStep s op a
  rw [hr] at hrow
  rcases RowStep.terminal hrow (hst ▸ ht) with ⟨r', hr', hst'⟩ | ⟨now, days, rfl⟩
  · exact ⟨ht, r', hr', hst'.trans hst⟩
  · exact absurd rfl (hop now days)

/-- The calls that neither enqueue nor prune. -/
def settling : Op → Bool
  | .enqueue _ _ | .pruneTerminal _ _ => false
  | _ => true

theorem settles_apply (s : Store) (op : Op) (h : settling op = true) : Settles s (apply s op) := by
  refine ⟨fun a st hs => inTerminal_apply op hs ?_, fun a hnone => ?_⟩
  · rintro now days rfl
    cases h
  · have hrow := rowStep s op a
    rw [hnone] at hrow
    rcases hr : (apply s op).db.job? a with _ | r
    · rfl
    · rw [hr] at hrow
      cases hrow
      cases h

theorem settles_of {s t : Store} (op : Op) (ht : apply s op = t) (h : settling op = true) : Settles s t :=
  ht ▸ settles_apply s op h

theorem inTerminal_unique {s : Store} {a : PyStr} {st st' : JobState} (h : InTerminal a st s)
    (h' : InTerminal a st' s) : st = st' := by
  obtain ⟨-, r, hr, rfl⟩ := h
  obtain ⟨-, r', hr', rfl⟩ := h'
  cases hr.symm.trans hr'
  rfl

/-! ### Calls that end an attempt -/

theorem target_isTerminal (e : BuildExecutionError) : e.target.isTerminal = true := by
  unfold BuildExecutionError.target
  split_ifs <;> rfl

theorem mem_legalPreviousStates_target (e : BuildExecutionError) {st : JobState}
    (h : st.isTerminal = false) : st ∈ legalPreviousStates e.target := by
  unfold BuildExecutionError.target
  split_ifs <;> cases st <;> simp_all [legalPreviousStates, JobState.isTerminal]

/-- A transition that passes its checks leaves the row in its state. -/
theorem inTerminal_transition {s : Store} {a : PyStr} {target : JobState}
    {expected owner token : Option PyStr} {r : JobRow} (ht : target.isTerminal = true)
    (hr : s.db.job? a = some r) (hc : transitionCheck target expected owner token r = none)
    (now : Instant) (error : Option PyStr) :
    InTerminal a target (s.transition now a target.text error expected owner token).2 := by
  obtain ⟨s', hs', hdb⟩ := transition_accepts (JobState.ofText?_text target) hr hc now error
  rw [hs']
  refine ⟨ht, transitionRow target error (formatDatetime now) r, ?_, rfl⟩
  show s'.db.job? a = _
  rw [hdb]
  have hw := transitionWhere_of_check hc
  rw [Db.attemptId_of_job? hr] at hw
  exact job?_update_of_guard hr hw

/-- A transition with an expectation that returns has passed its checks. -/
theorem inTerminal_of_transition {s : Store} {a x : PyStr} {target : JobState} {now : Instant}
    {error owner token : Option PyStr} {job : JobRecord} (ht : target.isTerminal = true)
    (h : (s.transition now a target.text error (some x) owner token).1 = .ok job) :
    InTerminal a target (s.transition now a target.text error (some x) owner token).2 := by
  obtain ⟨target', r, hs, hr, hcase⟩ := transition_returns h
  rw [JobState.ofText?_text] at hs
  cases hs
  rcases hcase with ⟨-, hx, -⟩ | hc
  · cases hx
  · exact inTerminal_transition ht hr hc now error

/-- A crash that returns the record of a failed attempt leaves the row failed. -/
theorem inTerminal_of_recordExecutorCrash {s : Store} {now : Instant} {a error : PyStr}
    {owner token : Option PyStr} {job : JobRecord}
    (h : (s.recordExecutorCrash now a error owner token).1 = .ok job) (hf : job.state = .failed) :
    InTerminal a .failed (s.recordExecutorCrash now a error owner token).2 := by
  obtain ⟨r, hr, hw⟩ := recordExecutorCrash_returns h
  have hjob := job?_recordExecutorCrash hr hw now error
  obtain ⟨s', hs', -⟩ := recordExecutorCrash_accepts hr hw now error
  rw [hs'] at h
  cases h
  rw [state_record] at hf
  exact ⟨rfl, _, hjob, hf⟩

/-- The identifier `enqueue` reads in a payload. -/
theorem eq_of_requiredPayloadUuid {payload : List (PyStr × Json)} {key v a : PyStr}
    (hget : get? payload key = some (.str v)) (h : requiredPayloadUuid payload key = .ok a) : a = v := by
  unfold requiredPayloadUuid at h
  obtain ⟨w, hw, h⟩ := bind_ok h
  unfold requiredPayloadStr at hw
  rw [hget] at hw
  dsimp only at hw
  split_ifs at hw
  cases hw
  split_ifs at h
  cases h
  rfl

/-- What `enqueue` returns is the record of the row of the attempt its payload names. -/
theorem enqueue_returns {s : Store} {now : Instant} {payload : List (PyStr × Json)} {a : PyStr}
    {result : EnqueueResult} (ha : get? payload (py "attempt_id") = some (.str a))
    (h : (s.enqueue now payload).1 = .ok result) :
    ∃ r, (s.enqueue now payload).2.db.job? a = some r ∧ result.job.state = r.state := by
  unfold enqueue at h ⊢
  split at h
  · cases h
  · cases h
  · next b a' hb ha' =>
    have haa : a' = a := eq_of_requiredPayloadUuid ha ha'
    subst haa
    dsimp only at h ⊢
    split at h
    · cases h
    · next row hrow =>
      cases h
      unfold jobRow at hrow
      rw [Option.filter_eq_some_iff] at hrow
      exact ⟨row, hrow.1, state_record _ _⟩

/-! ### The invariant -/

/-- The terminal state a worker is about to publish. -/
def owes? : Phase → Option (QueueLease × JobState)
  | .succeeded l | .acknowledging l => some (l, .succeeded)
  | .reportingError l _ (some st) | .reportingState l _ st => some (l, st)
  | _ => none

/-- The reports that are due, and those that were made, name the state of the row. -/
structure ReportInv (s : State) : Prop where
  owed : ∀ w l st, owes? (s.workers w) = some (l, st) → InTerminal l.job.attemptId st s.store
  replies : ∀ r ∈ s.replies, ∀ st, reportedState? .attemptStatus r.payload = some st →
    InTerminal r.attemptId st s.store ∨ s.store.db.job? r.attemptId = none
  agree : ∀ r ∈ s.published, ∀ st, Report.state? r = some st → ∀ row, r.row = some row → row.state = st
  stays : ∀ r ∈ s.published, ∀ st, Report.state? r = some st →
    ∃ a, r.event.attemptId = some a ∧ InTerminal a st s.store

theorem ReportInv.reportsAgree {s : State} (h : ReportInv s) : ReportsAgree s := by
  refine ⟨h.agree, fun r hr r' hr' ha st st' hst hst' => ?_⟩
  obtain ⟨a, hra, hin⟩ := h.stays r hr st hst
  obtain ⟨a', hra', hin'⟩ := h.stays r' hr' st' hst'
  rw [hra, hra', Option.some.injEq] at ha
  exact inTerminal_unique hin (ha ▸ hin')

/-- A change of the store that settles, with the rest left alone. -/
theorem ReportInv.settle {s t : State} (h : ReportInv s) (hs : Settles s.store t.store)
    (hw : t.workers = s.workers) (hr : t.replies = s.replies) (hp : t.published = s.published) :
    ReportInv t := by
  refine ⟨?_, ?_, ?_, ?_⟩
  · rw [hw]
    exact fun w l st ho => hs.terminal _ _ (h.owed w l st ho)
  · rw [hr]
    exact fun r hr st hst => (h.replies r hr st hst).imp (hs.terminal _ _) (hs.absent _)
  · rw [hp]; exact h.agree
  · rw [hp]
    intro r hr st hst
    obtain ⟨a, ha, hin⟩ := h.stays r hr st hst
    exact ⟨a, ha, hs.terminal _ _ hin⟩

/-- A worker goes on to a phase whose report, if there is one, names the state of the row. -/
theorem ReportInv.setWorker {s : State} (h : ReportInv s) (w : ℕ) {p : Phase}
    (hp : ∀ l st, owes? p = some (l, st) → InTerminal l.job.attemptId st s.store) :
    ReportInv (s.setWorker w p) := by
  refine ⟨fun v l st hv => ?_, h.replies, h.agree, h.stays⟩
  by_cases hvw : v = w
  · subst hvw
    rw [State.setWorker_self] at hv
    exact hp l st hv
  · rw [State.setWorker_of_ne s p hvw] at hv
    exact h.owed v l st hv

theorem ReportInv.idle {s : State} (h : ReportInv s) (w : ℕ) : ReportInv (s.setWorker w .idle) :=
  h.setWorker w fun _ _ hp => (by cases hp)

/-- A worker makes a call and goes on to a phase. -/
theorem ReportInv.call {s : State} (h : ReportInv s) {store : Store} (hs : Settles s.store store) (w : ℕ)
    {p : Phase} (hp : ∀ l st, owes? p = some (l, st) → InTerminal l.job.attemptId st store) :
    ReportInv ({ s with store := store }.setWorker w p) :=
  (h.settle (t := { s with store := store }) hs rfl rfl rfl).setWorker w hp

theorem ReportInv.touch {s : State} (h : ReportInv s) (w : ℕ) (dirs : List PyStr) (disk : Disk) :
    ReportInv (s.touch w dirs disk) := ⟨h.owed, h.replies, h.agree, h.stays⟩

/-! ### The end of an attempt -/

/-- The row is already in the state, or it is not terminal and leased by the holder of the lease. -/
def MayReport (s : Store) (l : QueueLease) (st : JobState) : Prop :=
  ∃ r, s.jobRow l.job.buildJobId l.job.attemptId = some r ∧ (r.state = st ∨
    (r.state.isTerminal = false ∧ r.leaseOwner = some l.owner ∧ r.leaseToken = some l.token))

/-- Then the row is in the state once the failure is handled. -/
theorem inTerminal_of_mayReport {s : State} {l : QueueLease} {e : BuildExecutionError}
    (h : MayReport s.store l e.target) (now : Instant) (w : ℕ) :
    InTerminal l.job.attemptId e.target (handleFailure now w l (.build e) s).store := by
  obtain ⟨r, hr, hcase⟩ := h
  have hjob : s.store.db.job? l.job.attemptId = some r := by
    unfold jobRow at hr
    rw [Option.filter_eq_some_iff] at hr
    exact hr.1
  unfold handleFailure getJob
  simp only [hr, Option.map_some, state_record, State.setWorker]
  rcases hcase with hst | ⟨hn, ho, ht⟩
  · rw [if_pos (by rw [hst]; exact target_isTerminal e)]
    exact ⟨target_isTerminal e, r, hjob, hst⟩
  · rw [if_neg (by rw [hn]; simp)]
    refine inTerminal_transition (target_isTerminal e) hjob ?_ now _
    have hlegal := mem_legalPreviousStates_target e hn
    simp [transitionCheck, ho, ht, hlegal, ne_of_mem_legalPreviousStates hlegal]

/-- A structured failure is handled. -/
theorem ReportInv.handleBuild {s : State} (h : ReportInv s) (now : Instant) (w : ℕ) {l : QueueLease}
    {e : BuildExecutionError} (hm : MayReport s.store l e.target) :
    ReportInv (handleFailure now w l (.build e) s) := by
  have hin := inTerminal_of_mayReport hm now w
  unfold handleFailure at hin ⊢
  dsimp only at hin ⊢
  refine h.call ?_ w ?_
  · split
    · split_ifs
      · exact .refl _
      · exact settles_apply s.store (.transition _ _ _ _ _ _ _) rfl
    · exact .refl _
  · rintro l' st ⟨⟩
    exact hin

/-- Any other exception is handled. -/
theorem ReportInv.handleCrash {s : State} (h : ReportInv s) (now : Instant) (w : ℕ) (l : QueueLease)
    (message : PyStr) : ReportInv (handleFailure now w l (.crash message) s) := by
  have hsettle : Settles s.store
      (s.store.recordExecutorCrash now l.job.attemptId message (some l.owner) (some l.token)).2 :=
    settles_apply s.store (.recordExecutorCrash now l.job.attemptId message (some l.owner) (some l.token)) rfl
  unfold handleFailure
  dsimp only
  split_ifs
  · exact h.idle w
  · split
    · next err store hc =>
      rw [hc] at hsettle
      exact h.call hsettle w fun l' st hp => (by cases hp)
    · next job store hc =>
      rw [hc] at hsettle
      refine h.call hsettle w ?_
      intro l' st hp
      split_ifs at hp with hf
      · cases hp
        have hok : (s.store.recordExecutorCrash now l.job.attemptId message (some l.owner)
            (some l.token)).1 = .ok job := congrArg Prod.fst hc
        have hin := inTerminal_of_recordExecutorCrash hok hf
        rw [hc] at hin
        exact hin
      · cases hp

variable (cfg : LoopConfig)

/-- What reaches `_worker` when the body of `execute_job` raises. -/
def leaving (l : QueueLease) (r : Raised) (mtime : ℤ) (disk : Disk) : Failure :=
  match cleanupWorkspace l.job.attemptId (r.retainFailed && cfg.retainFailedWorkspaces)
      cfg.failedWorkspaceKeep mtime disk with
  | none => .crash (cfg.missingText l.job.attemptId)
  | some _ => r.failure

/-- An exception leaves `execute_job`: a structured failure must be one the worker may report. -/
theorem ReportInv.unwind {s : State} (h : ReportInv s) (now : Instant) (mtime : ℤ) (w : ℕ) {l : QueueLease}
    {r : Raised} (hm : ∀ e, leaving cfg l r mtime s.disk = .build e → MayReport s.store l e.target) :
    ReportInv (JobLoop.unwind cfg now mtime w l r s) := by
  unfold JobLoop.unwind
  unfold leaving at hm
  split
  · exact h.handleCrash now w l _
  · next dirs disk hc =>
    rw [hc] at hm
    rcases hf : r.failure with e | message
    · exact (h.touch w dirs disk).handleBuild now w (hm e hf)
    · exact (h.touch w dirs disk).handleCrash now w l message

/-- An exception that is no structured failure. -/
theorem ReportInv.unwindOther {s : State} (h : ReportInv s) (now : Instant) (mtime : ℤ) (w : ℕ)
    (l : QueueLease) (message : PyStr) : ReportInv (JobLoop.unwind cfg now mtime w l (.other message) s) := by
  refine h.unwind cfg now mtime w fun e he => ?_
  unfold leaving at he
  split at he <;> cases he

/-- The structured failure among those that reach `_worker`. -/
def Failure.build? : Failure → Option BuildExecutionError
  | .build e => some e
  | .crash _ => none

/-- The structured failure that reaches `_worker` in a stretch of code, with the lease of the worker. -/
def buildFailure? (store : Store) (disk : Disk) : Phase → Work → Option (QueueLease × BuildExecutionError)
  | .building l, .raised r _ mtime | .packaging l, .raised r _ mtime =>
    (Failure.build? (leaving cfg l r mtime disk)).map (l, ·)
  | .building l, .ensureCurrent _ mtime =>
    (ensureCurrentAttempt cfg l store).bind fun r =>
      (Failure.build? (leaving cfg l r mtime disk)).map (l, ·)
  | _, _ => none

/-- **The condition under which reports hold.** A structured failure reaches `_worker` when the row of its
attempt is not terminal and still leased by the worker, or already in the state the failure is
reported as; and an assignment that is handled while the engine drains names an attempt that has no row, or
a failed one. -/
def ReportsHeld (s : State) : Action → Prop
  | .work w a => ∀ l e, buildFailure? cfg s.store s.disk (s.workers w) a = some (l, e) →
      MayReport s.store l e.target
  | .assign _ _ attemptId _ => s.replies = [] → s.draining = true →
      ∀ r, s.store.db.job? attemptId = some r → r.state = .failed
  | _ => True

instance (s : Store) (l : QueueLease) (st : JobState) : Decidable (MayReport s l st) :=
  decidable_of_iff ((s.jobRow l.job.buildJobId l.job.attemptId).any (fun r => decide (r.state = st ∨
    (r.state.isTerminal = false ∧ r.leaseOwner = some l.owner ∧ r.leaseToken = some l.token))) = true) (by
    unfold MayReport
    rcases s.jobRow l.job.buildJobId l.job.attemptId with _ | r <;> simp)

instance (s : State) (act : Action) : Decidable (ReportsHeld cfg s act) :=
  match act with
  | .work w a =>
    decidable_of_iff ((buildFailure? cfg s.store s.disk (s.workers w) a).all (fun f =>
      decide (MayReport s.store f.1 f.2.target)) = true) (by
      simp only [ReportsHeld]
      rcases buildFailure? cfg s.store s.disk (s.workers w) a with _ | ⟨l, e⟩ <;> simp)
  | .assign _ _ a _ =>
    decidable_of_iff (s.replies.isEmpty = true → s.draining = true →
      (s.store.db.job? a).all (fun r => decide (r.state = .failed)) = true) (by
      simp only [ReportsHeld]
      rcases s.store.db.job? a with _ | r <;> simp)
  | .poll _ _ _ _ _ | .refresh _ _ | .cancel _ _ _ _ | .reply _ | .drain | .resume | .ackEvent _ _ =>
    inferInstanceAs (Decidable True)

/-! ### The handler of frames -/

/-- An assignment is handled. -/
theorem ReportInv.handleAssign {s : State} (h : ReportInv s) (now : Instant) (b a : PyStr)
    (payload : List (PyStr × Json)) (hempty : s.replies = [])
    (hdrain : s.draining = true → ∀ r, s.store.db.job? a = some r → r.state = .failed) :
    ReportInv (JobLoop.handleAssign now b a payload s) := by
  unfold JobLoop.handleAssign
  dsimp only
  split_ifs with hd
  · refine ⟨h.owed, ?_, h.agree, h.stays⟩
    intro r hr st hst
    rw [List.mem_singleton.mp hr] at hst ⊢
    rw [show py "FAILED" = JobState.failed.text from rfl, reportedState?_ackPayload] at hst
    cases hst
    rcases hrow : s.store.db.job? a with _ | row
    · exact Or.inr rfl
    · exact Or.inl ⟨rfl, row, hrow, hdrain hd row hrow⟩
  · have hkeep : ∀ merged a' st, InTerminal a' st s.store →
        InTerminal a' st (s.store.enqueue now merged).2 :=
      fun merged a' st hin => inTerminal_apply (.enqueue now merged) hin (by simp)
    have hset := get?_set_self (set payload (py "build_job_id") (.str b)) (py "attempt_id") (.str a)
    generalize set (set payload (py "build_job_id") (.str b)) (py "attempt_id") (.str a) = merged at hset ⊢
    have hk := hkeep merged
    split
    · next err store hq =>
      rw [hq] at hk
      refine ⟨fun w l st ho => hk _ _ (h.owed w l st ho), ?_, h.agree, fun r hr st hst => ?_⟩
      · rw [hempty]; simp
      · obtain ⟨a', ha', hin⟩ := h.stays r hr st hst
        exact ⟨a', ha', hk _ _ hin⟩
    · next result store hq =>
      have hok : (s.store.enqueue now merged).1 = .ok result := congrArg Prod.fst hq
      obtain ⟨row, hrow, hstate⟩ := enqueue_returns hset hok
      rw [hq] at hk hrow
      refine ⟨fun w l st ho => hk _ _ (h.owed w l st ho), ?_, h.agree, fun r hr st hst => ?_⟩
      · intro r hr st hst
        rw [List.mem_singleton.mp hr] at hst ⊢
        rw [reportedState?_ackPayload] at hst
        split_ifs at hst with ht
        cases hst
        exact Or.inl ⟨ht, row, hrow, hstate.symm⟩
      · obtain ⟨a', ha', hin⟩ := h.stays r hr st hst
        exact ⟨a', ha', hk _ _ hin⟩

theorem ReportInv.handleCancel {s : State} (h : ReportInv s) (now : Instant) (b : PyStr)
    (a explicit : Option PyStr) : ReportInv (JobLoop.handleCancel now b a explicit s) := by
  have hsettle : Settles s.store (s.store.requestCancel now b a).2 :=
    settles_apply s.store (.requestCancel now b a) rfl
  have hold := h.settle (t := { s with store := (s.store.requestCancel now b a).2 }) hsettle rfl rfl rfl
  refine ⟨hold.owed, ?_, hold.agree, hold.stays⟩
  intro r hr st hst
  obtain ⟨a', -, rfl⟩ := List.mem_map.mp hr
  cases hst

/-- A turn of the loop of `_worker`. -/
theorem ReportInv.poll {s : State} (h : ReportInv s) (w : ℕ) (acquired started now : Instant)
    (token : PyStr) : ReportInv (JobLoop.poll cfg w acquired started now token s) := by
  have hacquire : Settles s.store (s.store.acquireLease acquired token (owner w) cfg.leaseSeconds).2 :=
    settles_apply s.store (.acquireLease _ _ _ _) rfl
  have hstart : ∀ {job : JobRecord} {result store store'},
      s.store.acquireLease acquired token (owner w) cfg.leaseSeconds = (.ok (some job), store) →
      store.transition started job.attemptId (py "RUNNING") none (some (py "LEASED"))
        (some (leaseOf cfg w job).owner) (some (leaseOf cfg w job).token) = (result, store') →
      ReportInv { s with store := store' } := by
    intro job result store store' ha ht
    have htransit : Settles store store' := settles_of (.transition started job.attemptId (py "RUNNING") none
      (some (py "LEASED")) (some (leaseOf cfg w job).owner) (some (leaseOf cfg w job).token))
      (congrArg Prod.snd ht) rfl
    rw [ha] at hacquire
    exact h.settle (hacquire.trans htransit) rfl rfl rfl
  have hstep := poll_step cfg w acquired started now token s
  generalize JobLoop.poll cfg w acquired started now token s = t at hstep ⊢
  cases hstep with
  | without ha =>
    rw [ha] at hacquire
    exact h.settle hacquire rfl rfl rfl
  | refused ha ht => exact hstart ha ht
  | invalid ha ht => exact (hstart ha ht).handleCrash now w _ _
  | started ha ht => exact ((hstart ha ht).touch w _ _).setWorker w fun l' st ho => (by cases ho)

theorem reportInv_init : ReportInv State.init :=
  ⟨fun w l st h => (by cases h), by simp [State.init], by simp [State.init], by simp [State.init]⟩

section Datetime
variable [PyDatetime]

/-! ### Publishing -/

theorem settles_publishAttemptEvent (x : PublishInput) (type : MessageType) (payload : List (PyStr × Json))
    (b a : PyStr) (s : Store) : Settles s (publishAttemptEvent cfg x type payload b a s).2 := by
  rcases store_publishAttemptEvent cfg x type payload b a s with hs | ⟨e, -, hs⟩
  · rw [hs]
    exact .refl s
  · rw [hs]
    exact settles_apply s (.append cfg.uplink.outbox x.clock e) rfl

/-- The event a publish returns is the one asked for, of an attempt that has a row. -/
theorem publishAttemptEvent_ok {x : PublishInput} {type : MessageType} {payload : List (PyStr × Json)}
    {b a : PyStr} {s : Store} {e : Envelope} (h : (publishAttemptEvent cfg x type payload b a s).1 = .ok e) :
    e.type = type ∧ e.payload = payload ∧ e.attemptId = some a ∧ (s.db.job? a).isSome := by
  unfold publishAttemptEvent at h
  split at h
  · cases h
  · next seq hseq =>
    have hjob : (s.db.job? a).isSome := by
      unfold nextSeq at hseq
      split at hseq
      · cases hseq
      · next hr => rw [hr]; rfl
    split at h
    · cases h
    · next e' he =>
      split at h
      · cases h
      · cases h
        rw [(of_newEnvelope he).1]
        exact ⟨rfl, rfl, rfl, hjob⟩

/-- A publish whose state, if it reports one, is that of the row. -/
theorem ReportInv.publish {s : State} (h : ReportInv s) (x : PublishInput) {type : MessageType}
    {payload : List (PyStr × Json)} (b : PyStr) {a : PyStr}
    (hst : ∀ st, reportedState? type payload = some st →
      InTerminal a st s.store ∨ s.store.db.job? a = none) :
    ReportInv (publish cfg x type payload b a s).2 := by
  have hsettle := settles_publishAttemptEvent cfg x type payload b a s.store
  unfold JobLoop.publish
  split
  · next err store hp =>
    rw [hp] at hsettle
    exact h.settle hsettle rfl rfl rfl
  · next e store hp =>
    obtain ⟨htype, hpayload, hattempt, hjob⟩ := publishAttemptEvent_ok cfg (congrArg Prod.fst hp)
    rw [hp] at hsettle
    have hnew : ∀ st, reportedState? e.type e.payload = some st → InTerminal a st store := by
      intro st hrep
      rw [htype, hpayload] at hrep
      rcases hst st hrep with hin | hnone
      · exact hsettle.terminal a st hin
      · rw [hnone] at hjob; cases hjob
    have hold := h.settle (t := { s with store := store }) hsettle rfl rfl rfl
    refine ⟨hold.owed, hold.replies, fun r hr => ?_, fun r hr => ?_⟩
    · rcases List.mem_append.mp hr with hr | hr
      · exact hold.agree r hr
      · rw [List.mem_singleton.mp hr]
        intro st hrep row hrow
        obtain ⟨-, r', hr', hst'⟩ := hnew st hrep
        cases hr'.symm.trans hrow
        exact hst'
    · rcases List.mem_append.mp hr with hr | hr
      · exact hold.stays r hr
      · rw [List.mem_singleton.mp hr]
        exact fun st hrep => ⟨a, hattempt, hnew st hrep⟩

/-- A publish of a worker. -/
theorem ReportInv.publishFor {s : State} (h : ReportInv s) (l : QueueLease) (x : PublishInput)
    (type : MessageType) (payload : List (PyStr × Json))
    (hst : ∀ st, reportedState? type payload = some st → InTerminal l.job.attemptId st s.store) :
    ReportInv (JobLoop.publishFor cfg l x type payload s).2 :=
  h.publish cfg x _ fun st hrep => Or.inl (hst st hrep)

/-- A worker publishes and goes on to a phase. -/
theorem ReportInv.publishThen {s : State} (h : ReportInv s) (x : PublishInput) {type : MessageType}
    {payload : List (PyStr × Json)} {l : QueueLease} {w : ℕ} {p : Phase}
    (hst : ∀ st, reportedState? type payload = some st → InTerminal l.job.attemptId st s.store)
    (hp : ∀ l' st, owes? p = some (l', st) → owes? (s.workers w) = some (l', st)) :
    ReportInv ((JobLoop.publishFor cfg l x type payload s).2.setWorker w p) := by
  have hpub := h.publishFor cfg l x type payload hst
  refine hpub.setWorker w fun l' st ho => hpub.owed w l' st ?_
  rw [JobLoop.publishFor, (publish_frame cfg x type payload _ _ s).1]
  exact hp l' st ho

/-- What a worker with a lease does keeps the invariant, given the condition on its failures. -/
theorem ReportInv.work {s : State} (h : ReportInv s) (w : ℕ) (a : Work)
    (hm : ∀ l e, buildFailure? cfg s.store s.disk (s.workers w) a = some (l, e) →
      MayReport s.store l e.target) : ReportInv (JobLoop.work cfg s w (s.workers w) a) := by
  have howed := h.owed w
  have hstep := work_step cfg s w (s.workers w) a
  generalize hphase : s.workers w = p, JobLoop.work cfg s w (s.workers w) a = t at hstep howed hm ⊢
  have hsettle : ∀ {l : QueueLease} {stored result store}, s.store.transition stored l.job.attemptId
      (py "SUCCEEDED") none (some (py "RUNNING")) (some l.owner) (some l.token) = (result, store) →
      Settles s.store store := fun {l stored _ _} ht =>
    settles_of (.transition stored l.job.attemptId (py "SUCCEEDED") none (some (py "RUNNING")) (some l.owner)
      (some l.token)) (congrArg Prod.snd ht) rfl
  -- a publish that reports no state
  have hsilent : ∀ {l x type payload}, reportedState? type payload = none →
      ReportInv (JobLoop.publishFor cfg l x type payload s).2 := by
    intro l x type payload hnone
    exact h.publishFor cfg l x type payload (by rw [hnone]; simp)
  have hprogress : ∀ e : Progress, reportedState? e.type e.payload = none := reportedState?_progress
  have hsucceeded : ∀ {l : QueueLease}, p = .acknowledging l → ∀ st, reportedState? .attemptStatus
      (ackPayload l.job.buildJobId l.job.attemptId (py "SUCCEEDED") none) = some st →
      InTerminal l.job.attemptId st s.store := by
    rintro l rfl
    rw [show py "SUCCEEDED" = JobState.succeeded.text from rfl, reportedState?_ackPayload]
    rintro st ⟨⟩
    exact howed l .succeeded rfl
  cases hstep with
  | other => exact h
  | progress => exact hsilent (hprogress _)
  | progressRaised => exact (hsilent (hprogress _)).unwindOther cfg _ _ w _ _
  | raised hp =>
    refine h.unwind cfg _ _ w fun e he => hm _ e ?_
    rcases hp with rfl | rfl <;> simp [buildFailure?, he, Failure.build?]
  | current => exact h.setWorker w fun l' st ho => (by cases ho)
  | stale hc => exact h.unwind cfg _ _ w fun e he => hm _ e (by simp [buildFailure?, hc, he, Failure.build?])
  | @succeeded l stored _ _ _ store ht =>
    have hok : (s.store.transition stored l.job.attemptId JobState.succeeded.text none
        (some (py "RUNNING")) (some l.owner) (some l.token)).1 = .ok _ := congrArg Prod.fst ht
    have hin := inTerminal_of_transition rfl hok
    rw [show JobState.succeeded.text = py "SUCCEEDED" from rfl, ht] at hin
    refine h.call (hsettle ht) w ?_
    rintro l' st ⟨⟩
    exact hin
  | refused ht =>
    exact (h.settle (t := { s with store := _ }) (hsettle ht) rfl rfl rfl).unwindOther cfg _ _ w _ _
  | @timed l value x now mtime =>
    have hnone := hprogress (.metric (py "jobs.duration_seconds") value)
    exact h.publishThen cfg x (fun st hst => by cases hnone.symm.trans hst) (by rw [hphase]; simp [owes?])
  | @timedRaised l value x now mtime err _ =>
    exact (hsilent (hprogress (.metric (py "jobs.duration_seconds") value))).unwindOther cfg now mtime w l _
  | acknowledged => exact ((h.publishFor cfg _ _ _ _ (hsucceeded rfl)).touch w _ _).idle w
  | acknowledgedRaised => exact (h.publishFor cfg _ _ _ _ (hsucceeded rfl)).unwindOther cfg _ _ w _ _
  | @errorReported l e state x =>
    cases state with
    | none => exact (hsilent (reportedState?_error _)).idle w
    | some st => exact h.publishThen cfg x (by rw [reportedState?_error]; simp) (by rw [hphase]; simp [owes?])
  | @stateReported l e st x =>
    refine (h.publishFor cfg l x _ _ fun st' hrep => ?_).idle w
    rw [reportedState?_ackPayload] at hrep
    split_ifs at hrep
    cases hrep
    exact howed l st rfl

/-- The handler publishes a status it owes. -/
theorem ReportInv.reply {s : State} (h : ReportInv s) (x : PublishInput) :
    ReportInv (JobLoop.step cfg s (.reply x)) := by
  simp only [JobLoop.step]
  rcases hr : s.replies with _ | ⟨r, rest⟩
  · exact h
  · have hpub := h.publish cfg x r.buildJobId (h.replies r (by rw [hr]; exact List.mem_cons_self))
    have hframe := (publish_frame cfg x .attemptStatus r.payload r.buildJobId r.attemptId s).2.1
    dsimp only
    split
    · next hx =>
      rw [hx] at hpub hframe
      refine ⟨hpub.owed, fun r' hr' => hpub.replies r' ?_, hpub.agree, hpub.stays⟩
      rw [hframe, hr]
      exact List.mem_cons_of_mem _ hr'
    · next hx =>
      rw [hx] at hpub
      exact ⟨hpub.owed, by simp, hpub.agree, hpub.stays⟩

/-- Every action that meets the condition keeps the invariant. -/
theorem ReportInv.step {s : State} (h : ReportInv s) (act : Action) (hheld : ReportsHeld cfg s act) :
    ReportInv (JobLoop.step cfg s act) := by
  cases act with
  | poll w acquired started now token =>
    simp only [JobLoop.step]
    split
    · exact h.poll cfg w acquired started now token
    · exact h
  | work w a => exact h.work cfg w a hheld
  | refresh w now =>
    simp only [JobLoop.step]
    split
    · exact h.settle (settles_apply s.store (.refreshLease _ _ _ _ _) rfl) rfl rfl rfl
    · exact h
  | assign now b a payload =>
    simp only [JobLoop.step]
    split_ifs with he
    · have hempty := List.isEmpty_iff.mp he
      exact h.handleAssign now b a payload hempty (hheld hempty)
    · exact h
  | cancel now b a explicit =>
    simp only [JobLoop.step]
    split_ifs
    · exact h.handleCancel now b a explicit
    · exact h
  | reply x => exact h.reply cfg x
  | drain => exact h.settle (.refl _) rfl rfl rfl
  | resume => exact h.settle (.refl _) rfl rfl rfl
  | ackEvent a n =>
    simp only [JobLoop.step]
    split_ifs
    · exact h.settle (settles_apply s.store (.ackThrough a n) rfl) rfl rfl rfl
    · exact h

/-- **Reports of terminal states.** In every run of the workers and the handler of frames in which every
structured failure is one its worker may report and every assignment during a drain is for an attempt
that has no row or a failed one, a published terminal state is the state of the row at that moment, and no
attempt has two terminal states published. -/
theorem reports_agree (acts : List Action)
    (hheld : Along (JobLoop.step cfg) (ReportsHeld cfg) State.init acts) :
    ReportsAgree (run (JobLoop.step cfg) State.init acts) :=
  (Along.invariant (fun _ act hC hI => hI.step cfg act hC) acts hheld reportInv_init).reportsAgree

end Datetime

/-! ### A worker that has lost its lease -/

/-- A worker fails and reports it. -/
def failActs (w n : ℕ) : List Action :=
  [.work w (.raised (.build exitError) (seconds n) 0), .work w (.publishError (publishAt n)),
    .work w (.ackFailed (publishAt (n + 1)))]

/-- The lease of the first worker runs out and the second worker leases the attempt; then the first fails
and the second succeeds. -/
def reclaimedActs : List Action :=
  assignActs ++ .poll 1 (seconds 200) (seconds 200) (seconds 200) (py "token-1") :: failActs 0 201 ++
    [.work 1 (.ensureCurrent (seconds 203) 0), .work 1 (.succeed (seconds 203) (seconds 203) 0),
      .work 1 (.duration (.int 3) (publishAt 203) (seconds 203) 0),
      .work 1 (.ackSucceeded (publishAt 204) (seconds 204) 0)]

theorem reclaimedActs_reports :
    ((run (@JobLoop.step firstDay sampleLoop) State.init reclaimedActs).published.map fun r =>
      (r.event.attemptId, Report.state? r, r.row.map (·.state))) =
    [(some sampleAttempt, none, some .queued), (some sampleAttempt, none, some .running),
      (some sampleAttempt, some .failed, some .running), (some sampleAttempt, none, some .succeeded),
      (some sampleAttempt, some .succeeded, some .succeeded)] := by
  decide +kernel

/-- `FAILED` is published while the row is `RUNNING`, and `SUCCEEDED` after it. -/
theorem reports_disagree :
    ∃ r ∈ (run (@JobLoop.step firstDay sampleLoop) State.init reclaimedActs).published,
    ∃ r' ∈ (run (@JobLoop.step firstDay sampleLoop) State.init reclaimedActs).published,
      Report.state? r = some .failed ∧ r.row.map (·.state) = some .running ∧
      Report.state? r' = some .succeeded ∧ r.event.attemptId = r'.event.attemptId ∧
      ¬ ReportsAgree (run (@JobLoop.step firstDay sampleLoop) State.init reclaimedActs) := by
  have hreports := reclaimedActs_reports
  have hmem : ∀ x, x ∈ ((run (@JobLoop.step firstDay sampleLoop) State.init reclaimedActs).published.map
      fun r => (r.event.attemptId, Report.state? r, r.row.map (·.state))) →
      ∃ r ∈ (run (@JobLoop.step firstDay sampleLoop) State.init reclaimedActs).published,
        (r.event.attemptId, Report.state? r, r.row.map (·.state)) = x := fun x hx => List.mem_map.mp hx
  rw [hreports] at hmem
  obtain ⟨r, hr, hx⟩ := hmem (some sampleAttempt, some .failed, some .running) (by simp)
  obtain ⟨r', hr', hx'⟩ := hmem (some sampleAttempt, some .succeeded, some .succeeded) (by simp)
  simp only [Prod.mk.injEq] at hx hx'
  refine ⟨r, hr, r', hr', hx.2.1, hx.2.2, hx'.2.1, hx.1.trans hx'.1.symm, fun hagree => ?_⟩
  have := hagree.2 r hr r' hr' (hx.1.trans hx'.1.symm) _ _ hx.2.1 hx'.2.1
  cases this

/-- The worker fails while it holds its lease. -/
def failedActs : List Action := assignActs ++ failActs 0 3

theorem failedActs_checks :
    Along (@JobLoop.step firstDay sampleLoop) (ReportsHeld sampleLoop) State.init failedActs ∧
    ((run (@JobLoop.step firstDay sampleLoop) State.init failedActs).published.map fun r =>
      (Report.state? r, r.row.map (·.state))) =
      [(none, some .queued), (none, some .failed), (some .failed, some .failed)] := by
  decide +kernel

/-- Its report agrees with the row. -/
theorem reports_agree_failed :
    ((run (@JobLoop.step firstDay sampleLoop) State.init failedActs).published.map fun r =>
      (Report.state? r, r.row.map (·.state))) =
      [(none, some .queued), (none, some .failed), (some .failed, some .failed)] ∧
    ReportsAgree (run (@JobLoop.step firstDay sampleLoop) State.init failedActs) := by
  obtain ⟨hheld, hreports⟩ := failedActs_checks
  let _ := firstDay
  exact ⟨hreports, reports_agree sampleLoop failedActs hheld⟩

end BuildEngine.Agent.TerminalReports
