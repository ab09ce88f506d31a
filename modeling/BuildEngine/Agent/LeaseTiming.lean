import BuildEngine.Agent.TerminalReports
import BuildEngine.Agent.WorkspaceExclusivity
import BuildEngine.Base.JsonRoundTrip

/-! # Leases that are refreshed in time

`_refresh_lease` runs beside the work of each attempt and extends the lease after every interval of sleep. If no
refresh is later than its interval and a latency that leaves the lease unexpired, a worker keeps the lease it works
under: its row stays `RUNNING` with its owner and token until the worker itself ends the attempt
(`LeaseInv`). What the queue promises only under the lease is then so for every interleaving: an attempt is
executed by one worker at a time, workspaces are exclusive, and the terminal reports agree with the rows. -/

namespace BuildEngine.Agent.LeaseTiming

open BuildEngine.Base BuildEngine.Base.Json BuildEngine.Base.Run BuildEngine.Agent.Protocol
open BuildEngine.Agent.JobLoop BuildEngine.Agent.TerminalReports BuildEngine.Agent.WorkspaceExclusivity
open BuildEngine.Queue.Schema BuildEngine.Queue BuildEngine.Queue.Store BuildEngine.Queue.Outbox
open BuildEngine.Queue.Ops BuildEngine.Queue.StateMachine BuildEngine.Executor.Workspace

/-! ### The calls of other workers -/

/-- The calls a worker makes for its attempt, and those of publishes and of acknowledgements. -/
def OwnedBy (o : PyStr) : Op → Prop
  | .refreshLease _ _ leaseOwner _ _ => leaseOwner = o
  | .transition _ _ _ _ _ leaseOwner _ | .recordExecutorCrash _ _ _ leaseOwner _ => leaseOwner = some o
  | .append _ _ _ | .ackThrough _ _ => True
  | _ => False

/-- The row is running under the lease, which ends at a stamp. -/
structure HeldRow (l : QueueLease) (expires : Stamp) (r : JobRow) : Prop where
  build : r.buildJobId = l.job.buildJobId
  running : r.state = .running
  owner : r.leaseOwner = some l.owner
  token : r.leaseToken = some l.token
  expires : r.leaseExpiresAt = some expires

/-- The row of the attempt is running under the lease. -/
def Held (l : QueueLease) (expires : Stamp) (s : Store) : Prop :=
  ∃ r, s.db.job? l.job.attemptId = some r ∧ HeldRow l expires r

/-- The calls that leave a lease alone: those of other owners, an assignment or a cancellation, and the search for
an attempt before the lease ends. The worker pool never prunes. -/
def Spares (o : PyStr) (expires : Stamp) : Op → Prop
  | .acquireLease now _ _ _ => formatDatetime now < expires
  | .refreshLease _ _ leaseOwner _ _ => leaseOwner ≠ o
  | .transition _ _ _ _ _ leaseOwner _ | .recordExecutorCrash _ _ _ leaseOwner _ =>
    ∃ x, leaseOwner = some x ∧ x ≠ o
  | .pruneTerminal _ _ => False
  | _ => True

theorem OwnedBy.spares {o o' : PyStr} {op : Op} (h : OwnedBy o' op) (hne : o' ≠ o) (expires : Stamp) :
    Spares o expires op := by
  cases op with
  | refreshLease => exact fun he => hne (h.symm.trans he)
  | transition => exact ⟨o', h, hne⟩
  | recordExecutorCrash => exact ⟨o', h, hne⟩
  | append => trivial
  | ackThrough => trivial
  | _ => exact h.elim

theorem HeldRow.not_eligible {l : QueueLease} {expires now : Stamp} {r : JobRow} (h : HeldRow l expires r)
    (hnow : now < expires) : eligible now r = false := by
  have hrunning : r.state.isLeased = true := by rw [h.running]; rfl
  have hexpires : ∀ e, r.leaseExpiresAt = some e → now < e := by
    intro e he
    cases h.expires.symm.trans he
    exact hnow
  simp [eligible, h.running, h.expires, hnow]

theorem of_guard {o x : PyStr} {r : JobRow} (h : sqlMatches (some x) r.leaseOwner = true)
    (ho : r.leaseOwner = some o) : x = o := by
  rw [ho] at h
  simpa [sqlMatches, eq_comm] using h

/-- A call that leaves the lease alone leaves the row running under it. -/
theorem HeldRow.step {l : QueueLease} {expires : Stamp} {op : Op} {r : JobRow} {y : Option JobRow}
    (h : HeldRow l expires r) (hstep : RowStep op (some r) y) (hspares : Spares l.owner expires op) :
    ∃ r', y = some r' ∧ HeldRow l expires r' := by
  cases hstep with
  | keep => exact ⟨r, rfl, h⟩
  | lease he =>
    rw [h.not_eligible hspares] at he
    cases he
  | cancel he =>
    rw [h.not_eligible hspares] at he
    cases he
  | refresh _ _ ho => exact absurd (Option.some.inj (ho.symm.trans h.owner)) hspares
  | transition _ _ hc =>
    obtain ⟨x, rfl, hx⟩ := hspares
    obtain ⟨-, ho, -, -⟩ := of_transitionCheck hc
    exact absurd (Option.some.inj ((ho x rfl).symm.trans h.owner)) hx
  | requestCancel => exact ⟨_, rfl, h.build, h.running, h.owner, h.token, h.expires⟩
  | crash _ _ ho =>
    obtain ⟨x, rfl, hx⟩ := hspares
    exact absurd (of_guard ho h.owner) hx
  | delete => exact hspares.elim
  | cursor => exact ⟨_, rfl, h.build, h.running, h.owner, h.token, h.expires⟩

theorem Held.apply {l : QueueLease} {expires : Stamp} {s : Store} (h : Held l expires s) {op : Op}
    (hspares : Spares l.owner expires op) : Held l expires (Ops.apply s op) := by
  obtain ⟨r, hr, hheld⟩ := h
  have hstep := rowStep s op l.job.attemptId
  rw [hr] at hstep
  exact hheld.step hstep hspares

theorem spares_of {o : PyStr} {expires : Stamp} {s t : Store} (op : Op) (ht : Ops.apply s op = t)
    (h : Spares o expires op) : Reaches Ops.apply (Spares o expires) s t := by
  rw [← ht]
  exact Reaches.one s h

/-- One store is reached from the other by calls of one worker. -/
abbrev Owned (o : PyStr) (s t : Store) : Prop := Reaches Ops.apply (OwnedBy o) s t

theorem owned_of {o : PyStr} {s t : Store} (op : Op) (ht : Ops.apply s op = t) (h : OwnedBy o op) :
    Owned o s t := by
  rw [← ht]
  exact Reaches.one s h

theorem owner_injective {v w : ℕ} (h : JobLoop.owner v = JobLoop.owner w) : v = w := by
  have htext : natText v = natText w := List.append_cancel_left h
  rw [← decimal_natText v, htext, decimal_natText]

variable (cfg : LoopConfig)

theorem owned_handleFailure (now : Instant) (w : ℕ) (l : QueueLease) (f : Failure) (s : State) :
    Owned l.owner s.store (handleFailure now w l f s).store := by
  unfold handleFailure
  rcases f with e | message
  · rcases s.store.getJob l.job.buildJobId l.job.attemptId with _ | job
    · exact Reaches.refl _
    · dsimp only
      split_ifs
      · exact Reaches.refl _
      · exact owned_of (.transition now l.job.attemptId _ _ _ _ _) rfl rfl
  · dsimp only
    split_ifs
    · exact Reaches.refl _
    · split <;> next hx =>
        exact owned_of (.recordExecutorCrash now l.job.attemptId message _ _) (congrArg Prod.snd hx) rfl

theorem owned_unwind (now : Instant) (mtime : ℤ) (w : ℕ) (l : QueueLease) (r : Raised) (s : State) :
    Owned l.owner s.store (unwind cfg now mtime w l r s).store := by
  unfold unwind
  split
  · exact owned_handleFailure now w l _ s
  · next dirs disk _ => exact owned_handleFailure now w l _ (s.touch w dirs disk)

section Datetime
variable [PyDatetime]

/-- A publish reaches the store by appends. -/
theorem reaches_publish {P : Op → Prop} (hP : ∀ outbox clock e, P (.append outbox clock e)) (x : PublishInput)
    (type : MessageType) (payload : List (PyStr × Json)) (b a : PyStr) (s : State) :
    Reaches Ops.apply P s.store (publish cfg x type payload b a s).2.store := by
  have hstore : (publish cfg x type payload b a s).2.store =
      (publishAttemptEvent cfg x type payload b a s.store).2 := by
    unfold publish
    split <;> next hx => rw [hx]
  rw [hstore]
  rcases store_publishAttemptEvent cfg x type payload b a s.store with hs | ⟨e, -, hs⟩
  · rw [hs]
    exact Reaches.refl _
  · rw [hs]
    exact Reaches.one s.store (hP cfg.uplink.outbox x.clock e)

/-- What a worker with a lease does reaches the store by its own calls. -/
theorem owned_work {o : PyStr} (w : ℕ) (s : State) {p : Phase} (hp : ∀ l, p.lease? = some l → l.owner = o)
    (a : Work) : Owned o s.store (work cfg s w p a).store := by
  have hpub : ∀ l x type payload, Owned o s.store (publishFor cfg l x type payload s).2.store :=
    fun l x type payload => reaches_publish cfg (fun _ _ _ => trivial) x type payload _ _ s
  have hunwind : ∀ now mtime l r (t : State), p.lease? = some l → Owned o s.store t.store →
      Owned o s.store (unwind cfg now mtime w l r t).store := by
    intro now mtime l r t hl ht
    have hown := owned_unwind cfg now mtime w l r t
    rw [hp l hl] at hown
    exact ht.trans hown
  have hinside : ∀ {l : QueueLease}, p = .building l ∨ p = .packaging l → p.lease? = some l := by
    rintro l (rfl | rfl) <;> rfl
  have hsucceed : ∀ {l : QueueLease} {stored result store}, p = .packaging l →
      s.store.transition stored l.job.attemptId (py "SUCCEEDED") none (some (py "RUNNING")) (some l.owner)
        (some l.token) = (result, store) → Owned o s.store store := by
    intro l stored result store hl ht
    refine owned_of (.transition stored l.job.attemptId (py "SUCCEEDED") none _ _ _) (congrArg Prod.snd ht) ?_
    exact congrArg some (hp l (hinside (Or.inr hl)))
  have hstep := work_step cfg s w p a
  generalize work cfg s w p a = t at hstep ⊢
  cases hstep with
  | other => exact Reaches.refl _
  | progress => exact hpub _ _ _ _
  | progressRaised hl => exact hunwind _ _ _ _ _ (hinside hl) (hpub _ _ _ _)
  | raised hl => exact hunwind _ _ _ _ _ (hinside hl) (Reaches.refl _)
  | current => exact Reaches.refl _
  | stale => exact hunwind _ _ _ _ _ rfl (Reaches.refl _)
  | succeeded ht => exact hsucceed rfl ht
  | refused ht => exact hunwind _ _ _ _ { s with store := _ } rfl (hsucceed rfl ht)
  | timed => exact hpub _ _ _ _
  | timedRaised => exact hunwind _ _ _ _ _ rfl (hpub _ _ _ _)
  | acknowledged =>
    unfold finish
    split <;> exact hpub _ _ _ _
  | acknowledgedRaised => exact hunwind _ _ _ _ _ rfl (hpub _ _ _ _)
  | errorReported => exact hpub _ _ _ _
  | stateReported => exact hpub _ _ _ _

/-! ### The refresh of leases -/

/-- The seconds `_refresh_lease` sleeps between two refreshes. -/
def refreshInterval (timeout : ℤ) : ℚ := max 1 (min 30 (timeout / 3))

/-- The engine, with the clock reading with which each worker last acquired or refreshed its lease. -/
structure Timed where
  engine : State
  extended : ℕ → Instant

/-- A process just started. -/
def Timed.init : Timed := ⟨State.init, fun _ => 0⟩

/-- The readings after an action. -/
def Timed.extendedBy (t : Timed) : Action → ℕ → Instant
  | .poll w acquired _ _ _ =>
    match t.engine.workers w with
    | .idle => Function.update t.extended w acquired
    | _ => t.extended
  | .refresh w now =>
    match (t.engine.workers w).lease? with
    | some _ => Function.update t.extended w now
    | none => t.extended
  | _ => t.extended

/-- An action of the engine, with its readings. -/
def timedStep (t : Timed) (act : Action) : Timed := ⟨JobLoop.step cfg t.engine act, t.extendedBy act⟩

/-- **The condition under which leases are kept.** When a worker looks for an attempt, no refresh of a lease is
overdue by more than the latency. -/
def Prompt (latency : ℚ) (t : Timed) : Action → Prop
  | .poll _ acquired _ _ _ => ∀ v l, (t.engine.workers v).lease? = some l →
      (acquired : ℚ) - t.extended v ≤ 1000000 * (refreshInterval l.visibilityTimeoutSeconds + latency)
  | _ => True

/-- The lease of a worker that has not stored the end of its attempt. -/
def Phase.holds? : Phase → Option QueueLease
  | .building l | .packaging l => some l
  | _ => none

/-- The lease of a worker that has stored `SUCCEEDED` and is still in `execute_job`. -/
def Phase.done? : Phase → Option QueueLease
  | .succeeded l | .acknowledging l => some l
  | _ => none

/-- The stamp at which a lease ends that was extended at a reading. -/
def expiry (extended : Instant) : Stamp := formatDatetime (extended + seconds cfg.leaseSeconds)

/-! ### The invariant -/

/-- A worker owns its lease, its row is running under it until the worker has stored the end of the attempt, and
an attempt stored as `SUCCEEDED` stays so. -/
structure WorkerInv (v : ℕ) (p : Phase) (expires : Stamp) (s : Store) : Prop where
  own : ∀ l, p.lease? = some l → l.owner = JobLoop.owner v ∧ l.visibilityTimeoutSeconds = cfg.leaseSeconds
  held : ∀ l, Phase.holds? p = some l → Held l expires s
  done : ∀ l, Phase.done? p = some l → InTerminal l.job.attemptId .succeeded s

/-- The invariant of all workers. -/
def LeaseInv (t : Timed) : Prop :=
  ∀ v, WorkerInv cfg v (t.engine.workers v) (expiry cfg (t.extended v)) t.engine.store

omit [PyDatetime] in
theorem lease_of_holds {p : Phase} {l : QueueLease} (h : Phase.holds? p = some l) : p.lease? = some l := by
  cases p <;> simp_all [Phase.holds?, Phase.lease?]

omit [PyDatetime] in
/-- Calls that leave the lease of the worker alone. -/
theorem WorkerInv.reaches {v : ℕ} {p : Phase} {expires : Stamp} {s t : Store} (h : WorkerInv cfg v p expires s)
    (hcalls : Reaches Ops.apply (Spares (JobLoop.owner v) expires) s t) : WorkerInv cfg v p expires t := by
  have hheld : ∀ l, l.owner = JobLoop.owner v → Held l expires s → Held l expires t := by
    intro l hown
    refine hcalls.rel (R := fun s t => Held l expires s → Held l expires t) (fun _ h => h)
      (fun _ _ _ hst htu h => htu (hst h)) fun s op hop h => ?_
    exact h.apply (by rw [hown]; exact hop)
  have hdone : ∀ a, InTerminal a .succeeded s → InTerminal a .succeeded t := by
    intro a
    refine hcalls.rel (R := fun s t => InTerminal a .succeeded s → InTerminal a .succeeded t) (fun _ h => h)
      (fun _ _ _ hst htu h => htu (hst h)) fun s op hop h => ?_
    refine inTerminal_apply op h ?_
    rintro now days rfl
    exact hop
  exact ⟨h.own, fun l hl => hheld l (h.own l (lease_of_holds hl)).1 (h.held l hl),
    fun l hl => hdone _ (h.done l hl)⟩

/-- The worker has left `execute_job` with a failure. -/
def Leaving (l : QueueLease) (p : Phase) : Prop := p = .idle ∨ ∃ e st, p = .reportingError l e st

omit [PyDatetime] in
theorem workerInv_idle (v : ℕ) (expires : Stamp) (s : Store) : WorkerInv cfg v .idle expires s :=
  ⟨fun l hl => (by cases hl), fun l hl => (by cases hl), fun l hl => (by cases hl)⟩

omit [PyDatetime] in
/-- A worker that has no lease yet leaves `execute_job` at once with the lease it acquires, or stays idle. -/
theorem workerInv_leaving {v : ℕ} {l : QueueLease} {p : Phase} (hp : Leaving l p) (ho : l.owner = JobLoop.owner v)
    (ht : l.visibilityTimeoutSeconds = cfg.leaseSeconds) (expires : Stamp) (s : Store) :
    WorkerInv cfg v p expires s := by
  rcases hp with rfl | ⟨e, st, rfl⟩
  · exact workerInv_idle cfg v expires s
  · refine ⟨?_, fun l' hl' => (by cases hl'), fun l' hl' => (by cases hl')⟩
    rintro l' ⟨⟩
    exact ⟨ho, ht⟩

omit [PyDatetime] in
theorem leaving_handleFailure (now : Instant) (w : ℕ) (l : QueueLease) (f : Failure) (s : State) :
    Leaving l ((handleFailure now w l f s).workers w) := by
  unfold handleFailure
  cases f with
  | build e => exact Or.inr ⟨e, _, State.setWorker_self _ _ _⟩
  | crash message =>
    dsimp only
    split_ifs
    · exact Or.inl (State.setWorker_self _ _ _)
    · split <;> exact Or.inr ⟨_, _, State.setWorker_self _ _ _⟩

omit [PyDatetime] in
theorem leaving_unwind (now : Instant) (mtime : ℤ) (w : ℕ) (l : QueueLease) (r : Raised) (s : State) :
    Leaving l ((JobLoop.unwind cfg now mtime w l r s).workers w) := by
  unfold JobLoop.unwind
  split
  · exact leaving_handleFailure now w l _ s
  · exact leaving_handleFailure now w l _ _

/-- What a worker with a lease does keeps its part of the invariant. -/
theorem WorkerInv.work {v : ℕ} {expires : Stamp} {s : State}
    (h : WorkerInv cfg v (s.workers v) expires s.store) (a : Work) :
    WorkerInv cfg v ((JobLoop.work cfg s v (s.workers v) a).workers v) expires
      (JobLoop.work cfg s v (s.workers v) a).store := by
  have hpub : ∀ l x type payload, WorkerInv cfg v (s.workers v) expires
      (JobLoop.publishFor cfg l x type payload s).2.store :=
    fun l x type payload => h.reaches cfg (reaches_publish cfg (fun _ _ _ => trivial) x type payload _ _ s)
  have hworkers : ∀ l x type payload, (JobLoop.publishFor cfg l x type payload s).2.workers v = s.workers v :=
    fun l x type payload => congrFun (workers_publishFor cfg l x type payload s) v
  have hstep := work_step cfg s v (s.workers v) a
  generalize hphase : s.workers v = p, JobLoop.work cfg s v (s.workers v) a = t at hstep hpub hworkers h ⊢
  have hunwind : ∀ {l : QueueLease} now mtime r (t : State), p.lease? = some l →
      WorkerInv cfg v ((JobLoop.unwind cfg now mtime v l r t).workers v) expires
        (JobLoop.unwind cfg now mtime v l r t).store := fun now mtime r t hl =>
    workerInv_leaving cfg (leaving_unwind cfg now mtime v _ r t) (h.own _ hl).1 (h.own _ hl).2 _ _
  have hinside : ∀ {l : QueueLease}, p = .building l ∨ p = .packaging l → p.lease? = some l := by
    rintro l (rfl | rfl) <;> rfl
  cases hstep with
  | other => rw [hphase]; exact h
  | progress => rw [hworkers]; exact hpub _ _ _ _
  | progressRaised hl => exact hunwind _ _ _ _ (hinside hl)
  | raised hl => exact hunwind _ _ _ _ (hinside hl)
  | current =>
    rw [State.setWorker_self]
    exact ⟨h.own, h.held, fun l' hl' => (by cases hl')⟩
  | stale => exact hunwind _ _ _ _ rfl
  | @succeeded l stored _ _ _ store ht =>
    rw [State.setWorker_self]
    refine ⟨h.own, fun l' hl' => (by cases hl'), ?_⟩
    rintro l' ⟨⟩
    have hok : (s.store.transition stored l.job.attemptId JobState.succeeded.text none
        (some (py "RUNNING")) (some l.owner) (some l.token)).1 = .ok _ := congrArg Prod.fst ht
    have hin := inTerminal_of_transition rfl hok
    rw [show JobState.succeeded.text = py "SUCCEEDED" from rfl, ht] at hin
    exact hin
  | refused => exact hunwind _ _ _ { s with store := _ } rfl
  | @timed l value x =>
    rw [State.setWorker_self]
    have hstored := hpub l x .attemptStatus (Progress.metric (py "jobs.duration_seconds") value).payload
    exact ⟨h.own, fun l' hl' => (by cases hl'), hstored.done⟩
  | timedRaised => exact hunwind _ _ _ _ rfl
  | @acknowledged l x =>
    have hstored := hpub l x .attemptStatus
      (ackPayload l.job.buildJobId l.job.attemptId (py "SUCCEEDED") none)
    unfold JobLoop.finish
    split
    · rw [hworkers]; exact hstored
    · rw [State.setWorker_self]; exact workerInv_idle cfg v _ _
  | acknowledgedRaised => exact hunwind _ _ _ _ rfl
  | @errorReported l e state x =>
    rw [State.setWorker_self]
    refine ⟨fun l' hl' => ?_, fun l' hl' => ?_, fun l' hl' => ?_⟩ <;> cases state <;> cases hl'
    exact h.own l rfl
  | stateReported =>
    rw [State.setWorker_self]
    exact workerInv_idle cfg v _ _

omit [PyDatetime] in
/-- A turn of the loop of `_worker` reaches the store by one search for an attempt and its own calls. -/
theorem reaches_poll (w : ℕ) (acquired started now : Instant) (token : PyStr) (s : State) {P : Op → Prop}
    (hacquire : P (.acquireLease acquired token (JobLoop.owner w) cfg.leaseSeconds))
    (hown : ∀ op, OwnedBy (JobLoop.owner w) op → P op) :
    Reaches Ops.apply P s.store (JobLoop.poll cfg w acquired started now token s).store := by
  have hsearch : ∀ {result store}, s.store.acquireLease acquired token (JobLoop.owner w) cfg.leaseSeconds =
      (result, store) → Reaches Ops.apply P s.store store := by
    intro result store ha
    rw [← show Ops.apply s.store (.acquireLease acquired token (JobLoop.owner w) cfg.leaseSeconds) = store from
      congrArg Prod.snd ha]
    exact Reaches.one s.store hacquire
  have hstart : ∀ {job : JobRecord} {result store store'},
      s.store.acquireLease acquired token (JobLoop.owner w) cfg.leaseSeconds = (.ok (some job), store) →
      store.transition started job.attemptId (py "RUNNING") none (some (py "LEASED"))
        (some (leaseOf cfg w job).owner) (some (leaseOf cfg w job).token) = (result, store') →
      Reaches Ops.apply P s.store store' := by
    intro job result store store' ha ht
    have hcall := owned_of (o := JobLoop.owner w) (.transition started job.attemptId (py "RUNNING") none
      (some (py "LEASED")) (some (leaseOf cfg w job).owner) (some (leaseOf cfg w job).token))
      (congrArg Prod.snd ht) rfl
    exact (hsearch ha).trans (hcall.imp hown)
  have hstep := poll_step cfg w acquired started now token s
  generalize JobLoop.poll cfg w acquired started now token s = t at hstep ⊢
  cases hstep with
  | without ha => exact hsearch ha
  | refused ha ht => exact hstart ha ht
  | @invalid job _ _ store ha ht =>
    have hfail := owned_handleFailure now w (leaseOf cfg w job) (.crash (cfg.invalidText job.attemptId))
      { s with store := store }
    exact (hstart ha ht).trans (hfail.imp hown)
  | started ha ht => exact hstart ha ht

omit [PyDatetime] in
/-- The attempt a worker starts is running under its lease, which ends a visibility timeout after the search. -/
theorem held_started {w : ℕ} {acquired started : Instant} {token : PyStr} {s store store' : Store}
    {job running : JobRecord}
    (ha : s.acquireLease acquired token (JobLoop.owner w) cfg.leaseSeconds = (.ok (some job), store))
    (ht : store.transition started job.attemptId (py "RUNNING") none (some (py "LEASED"))
      (some (leaseOf cfg w job).owner) (some (leaseOf cfg w job).token) = (.ok running, store')) :
    Held (leaseOf cfg w job) (expiry cfg acquired) store' := by
  obtain ⟨r, -, -, -, hrow, hjob⟩ := acquireLease_returns (congrArg Prod.fst ha)
  rw [ha] at hrow hjob
  have hbuild : job.buildJobId = r.buildJobId := by
    rw [hjob]
    unfold Store.record withTransientPayload
    split <;> rfl
  have htoken : (leaseOf cfg w job).token = token := by
    show job.leaseToken.getD [] = token
    rw [hjob]
    unfold Store.record withTransientPayload
    split <;> rfl
  obtain ⟨target, r', hs, hr', hcase⟩ := transition_returns (congrArg Prod.fst ht)
  cases hrow.symm.trans hr'
  rw [show py "RUNNING" = JobState.running.text from rfl, JobState.ofText?_text] at hs
  cases hs
  rcases hcase with ⟨-, hx, -⟩ | hc
  · cases hx
  · obtain ⟨s', hs', hdb⟩ := transition_accepts (JobState.ofText?_text .running) hr' hc started none
    cases ht.symm.trans hs'
    have hw := transitionWhere_of_check hc
    rw [Db.attemptId_of_job? hr'] at hw
    have hafter : store'.db.job? job.attemptId = some (transitionRow .running none (formatDatetime started)
        (leaseRow (JobLoop.owner w) token (formatDatetime (acquired + seconds cfg.leaseSeconds))
          (formatDatetime acquired) r)) := by
      rw [hdb]
      exact job?_update_of_guard hr' hw
    exact ⟨_, hafter, hbuild.symm, rfl, rfl, by rw [htoken]; rfl, rfl⟩

omit [PyDatetime] in
/-- A turn of the loop of `_worker` keeps the part of its own worker, which was idle. -/
theorem WorkerInv.poll {w : ℕ} {s : State} (hidle : s.workers w = .idle) (acquired started now : Instant)
    (token : PyStr) : WorkerInv cfg w ((JobLoop.poll cfg w acquired started now token s).workers w)
      (expiry cfg acquired) (JobLoop.poll cfg w acquired started now token s).store := by
  have hstep := poll_step cfg w acquired started now token s
  generalize JobLoop.poll cfg w acquired started now token s = t at hstep ⊢
  cases hstep with
  | without => rw [hidle]; exact workerInv_idle cfg w _ _
  | refused => rw [hidle]; exact workerInv_idle cfg w _ _
  | invalid => exact workerInv_leaving cfg (leaving_handleFailure now w _ _ _) rfl rfl _ _
  | started ha ht =>
    rw [State.setWorker_self]
    refine ⟨?_, ?_, fun l' hl' => (by cases hl')⟩
    · rintro l' ⟨⟩
      exact ⟨rfl, rfl⟩
    · rintro l' ⟨⟩
      exact held_started cfg ha ht

omit [PyDatetime] in
/-- A refresh extends the lease of its worker. -/
theorem WorkerInv.refresh {w : ℕ} {p : Phase} {expires : Stamp} {s : Store} (h : WorkerInv cfg w p expires s)
    {l : QueueLease} (hl : p.lease? = some l) (now : Instant) :
    WorkerInv cfg w p (expiry cfg now)
      (s.refreshLease now l.job.attemptId l.owner l.visibilityTimeoutSeconds (some l.token)).2 := by
  have htimeout := (h.own l hl).2
  refine ⟨h.own, fun l' hl' => ?_, fun l' hl' => ?_⟩
  · cases hl.symm.trans (lease_of_holds hl')
    obtain ⟨r, hr, hheld⟩ := h.held l hl'
    have hw : refreshWhere l.job.attemptId l.owner (some l.token) r = true := by
      rw [refreshWhere_iff]
      exact ⟨Db.attemptId_of_job? hr, by rw [hheld.running]; rfl, hheld.owner, by simp [sqlMatches, hheld.token]⟩
    obtain ⟨s', hs', hdb⟩ := refreshLease_accepts hr hw now l.visibilityTimeoutSeconds
    rw [hs']
    refine ⟨refreshRow (expiry cfg now) (formatDatetime now) r, ?_, hheld.build, hheld.running, hheld.owner,
      hheld.token, rfl⟩
    show s'.db.job? l.job.attemptId = _
    rw [hdb, job?_update_of_guard hr hw, htimeout]
    rfl
  · exact inTerminal_apply (.refreshLease now l.job.attemptId l.owner l.visibilityTimeoutSeconds (some l.token))
      (h.done l' hl') (by simp)

/-- The time until a prompt refresh leaves the lease unexpired. -/
def InTime (latency : ℚ) : Prop := refreshInterval cfg.leaseSeconds + latency + 1 / 1000 ≤ cfg.leaseSeconds

omit [PyDatetime] in
theorem formatDatetime_lt_expiry {latency : ℚ} (hlatency : InTime cfg latency) {acquired extended : Instant}
    (h : (acquired : ℚ) - extended ≤ 1000000 * (refreshInterval cfg.leaseSeconds + latency)) :
    formatDatetime acquired < expiry cfg extended := by
  unfold InTime at hlatency
  have hmargin : (acquired : ℚ) + 1000 ≤ extended + cfg.leaseSeconds * 1000000 := by linarith
  have hmargin' : acquired + 1000 ≤ extended + cfg.leaseSeconds * 1000000 := by exact_mod_cast hmargin
  have hstamps : ∀ a b : ℤ, a + 1000 ≤ b → a / 1000 < b / 1000 := by omega
  exact hstamps acquired _ hmargin'

omit [PyDatetime] in
/-- A search for an attempt, when every refresh is prompt. -/
theorem LeaseInv.search {t : Timed} (h : LeaseInv cfg t) {latency : ℚ} (hlatency : InTime cfg latency)
    {w : ℕ} {acquired started now : Instant} {token : PyStr}
    (hprompt : Prompt latency t (.poll w acquired started now token)) {v : ℕ} {l : QueueLease}
    (hl : (t.engine.workers v).lease? = some l) :
    formatDatetime acquired < expiry cfg (t.extended v) := by
  have hdue := hprompt v l hl
  rw [((h v).own l hl).2] at hdue
  exact formatDatetime_lt_expiry cfg hlatency hdue

/-- Every action keeps the invariant, if the refreshes are prompt. -/
theorem LeaseInv.step {t : Timed} (h : LeaseInv cfg t) {latency : ℚ} (hlatency : InTime cfg latency)
    (act : Action) (hprompt : Prompt latency t act) : LeaseInv cfg (timedStep cfg t act) := by
  intro v
  -- an action of no worker, by calls that leave the lease alone
  have hother : act.worker? = none → t.extendedBy act = t.extended → Reaches Ops.apply
      (Spares (JobLoop.owner v) (expiry cfg (t.extended v))) t.engine.store
      (JobLoop.step cfg t.engine act).store → WorkerInv cfg v ((timedStep cfg t act).engine.workers v)
        (expiry cfg ((timedStep cfg t act).extended v)) (timedStep cfg t act).engine.store := by
    intro hact hext hcalls
    have hworkers := workers_step cfg t.engine act (v := v) (by rw [hact]; simp)
    simp only [timedStep]
    rw [hext, hworkers]
    exact (h v).reaches cfg hcalls
  cases act with
  | poll w acquired started now token =>
    simp only [timedStep, JobLoop.step, Timed.extendedBy]
    generalize hphase : t.engine.workers w = p
    cases p with
    | idle =>
      dsimp only
      by_cases hv : v = w
      · subst hv
        rw [Function.update_self]
        exact WorkerInv.poll cfg hphase acquired started now token
      · rw [Function.update_of_ne hv, workers_poll cfg hv]
        generalize hlease : (t.engine.workers v).lease? = lease
        cases lease with
        | none =>
          have hfree : t.engine.workers v = .idle := by
            generalize t.engine.workers v = q at hlease
            cases q <;> first | rfl | cases hlease
          rw [hfree]
          exact workerInv_idle cfg v _ _
        | some l =>
          refine (h v).reaches cfg (reaches_poll cfg w acquired started now token t.engine ?_ ?_)
          · exact h.search cfg hlatency hprompt hlease
          · exact fun op hop => hop.spares (fun he => hv (owner_injective he).symm) _
    | _ => exact h v
  | work w a =>
    simp only [timedStep, JobLoop.step, Timed.extendedBy]
    by_cases hv : v = w
    · subst hv
      exact (h v).work cfg a
    · rw [workers_work cfg hv]
      have hcalls := owned_work cfg w t.engine (fun l hl => ((h w).own l hl).1) a
      exact (h v).reaches cfg (hcalls.imp fun op hop => hop.spares (fun he => hv (owner_injective he).symm) _)
  | refresh w now =>
    simp only [timedStep, JobLoop.step, Timed.extendedBy]
    generalize hlease : (t.engine.workers w).lease? = lease
    cases lease with
    | none => exact h v
    | some l =>
      dsimp only
      by_cases hv : v = w
      · subst hv
        rw [Function.update_self]
        exact (h v).refresh cfg hlease now
      · rw [Function.update_of_ne hv]
        refine (h v).reaches cfg (spares_of (.refreshLease now l.job.attemptId l.owner
          l.visibilityTimeoutSeconds (some l.token)) rfl ?_)
        show l.owner ≠ JobLoop.owner v
        rw [((h w).own l hlease).1]
        exact fun he => hv (owner_injective he).symm
  | assign now b a payload =>
    refine hother rfl rfl ?_
    simp only [JobLoop.step, handleAssign]
    split_ifs
    · exact Reaches.refl _
    · split <;> next hx => exact spares_of (.enqueue now _) (congrArg Prod.snd hx) trivial
    · exact Reaches.refl _
  | cancel now b a explicit =>
    refine hother rfl rfl ?_
    simp only [JobLoop.step]
    split_ifs
    · exact spares_of (.requestCancel now b a) rfl trivial
    · exact Reaches.refl _
  | reply x =>
    refine hother rfl rfl ?_
    simp only [JobLoop.step]
    split
    · exact Reaches.refl _
    · next r rest _ =>
      have hcalls := reaches_publish cfg (P := Spares (JobLoop.owner v) (expiry cfg (t.extended v)))
        (fun _ _ _ => trivial) x .attemptStatus r.payload r.buildJobId r.attemptId t.engine
      split <;> next hx => rw [hx] at hcalls; exact hcalls
  | drain | resume => exact hother rfl rfl (Reaches.refl _)
  | ackEvent a n =>
    refine hother rfl rfl ?_
    simp only [JobLoop.step]
    split_ifs
    · exact spares_of (.ackThrough a n) rfl trivial
    · exact Reaches.refl _

omit [PyDatetime] in
/-- No worker leases an attempt another is still inside of. -/
theorem LeaseInv.reclaimsFree {t : Timed} (h : LeaseInv cfg t) {latency : ℚ} (hlatency : InTime cfg latency)
    {act : Action} (hprompt : Prompt latency t act) : ReclaimsFree cfg t.engine act := by
  cases act with
  | poll w acquired started now token =>
    intro job hjob v l hl heq
    obtain ⟨r, hr, he, -⟩ := acquireLease_returns hjob
    rw [← heq] at hr
    have hlease : (t.engine.workers v).lease? = some l := by
      generalize t.engine.workers v = p at hl
      cases p <;> first | exact hl | cases hl
    have hends := h.search cfg hlatency hprompt hlease
    rcases hholds : Phase.holds? (t.engine.workers v) with _ | l'
    · have hdone : Phase.done? (t.engine.workers v) = some l := by
        generalize t.engine.workers v = p at hl hholds
        rcases p with _ | m | m | m | m | m | m
        case building => cases hholds
        case packaging => cases hholds
        all_goals exact hl
      obtain ⟨-, r', hr', hst⟩ := (h v).done l hdone
      cases hr.symm.trans hr'
      rw [eligible, hst] at he
      cases he
    · cases hlease.symm.trans (lease_of_holds hholds)
      obtain ⟨r', hr', hheld⟩ := (h v).held l hholds
      cases hr.symm.trans hr'
      rw [hheld.not_eligible hends] at he
      cases he
  | _ => trivial

/-! ### Runs -/

theorem engine_run : ∀ (acts : List Action) (t : Timed),
    (run (timedStep cfg) t acts).engine = run (JobLoop.step cfg) t.engine acts
  | [], _ => rfl
  | act :: acts, t => by
    rw [run_cons, run_cons]
    exact engine_run acts (timedStep cfg t act)

omit [PyDatetime] in
theorem leaseInv_init : LeaseInv cfg Timed.init := fun v => workerInv_idle cfg v _ _

/-- A worker that has not stored the end of its attempt holds the current lease of a running row. -/
def LeasesCurrent (s : State) : Prop := ∀ v l, Phase.holds? (s.workers v) = some l →
  ∃ r, s.store.db.job? l.job.attemptId = some r ∧ r.state = .running ∧ r.leaseOwner = some (JobLoop.owner v) ∧
    r.leaseToken = some l.token

/-- No two workers are inside `execute_job` for one attempt. -/
def Alone (s : State) : Prop := ∀ v w l m, (s.workers v).inside? = some l → (s.workers w).inside? = some m →
  l.job.attemptId = m.job.attemptId → v = w

omit [PyDatetime] in
theorem LeaseInv.leasesCurrent {t : Timed} (h : LeaseInv cfg t) : LeasesCurrent t.engine := by
  intro v l hl
  obtain ⟨r, hr, hheld⟩ := (h v).held l hl
  exact ⟨r, hr, hheld.running, by rw [hheld.owner, ((h v).own l (lease_of_holds hl)).1], hheld.token⟩

/-- **Prompt refreshes keep leases.** If every refresh comes within its interval and a latency that leaves the
lease unexpired, then in every run of any number of workers, frames and failures each worker keeps the current
lease of a running row until it ends its attempt, no attempt is executed by two workers at once, and no worker
touches a workspace another one uses. -/
theorem prompt_leases_exclusive {latency : ℚ} (hlatency : InTime cfg latency) (acts : List Action)
    (hprompt : Along (timedStep cfg) (Prompt latency) Timed.init acts) :
    LeasesCurrent (run (JobLoop.step cfg) State.init acts) ∧ Alone (run (JobLoop.step cfg) State.init acts) ∧
      Exclusive (run (JobLoop.step cfg) State.init acts) := by
  have hinside : InsideInv State.init :=
    ⟨fun v w l m hl => (by cases hl), fun v l hl => (by cases hl), by simp [Exclusive, State.init]⟩
  have hrun := Along.invariant (I := fun t : Timed => LeaseInv cfg t ∧ InsideInv t.engine)
    (fun t act hp hI => ⟨hI.1.step cfg hlatency act hp, hI.2.step cfg act (hI.1.reclaimsFree cfg hlatency hp)⟩)
    acts hprompt ⟨leaseInv_init cfg, hinside⟩
  obtain ⟨hlease, hins⟩ := hrun
  have hcurrent := hlease.leasesCurrent cfg
  rw [engine_run] at hcurrent hins
  exact ⟨hcurrent, hins.alone, hins.exclusive⟩

/-! ### Reports -/

/-- An assignment that is handled while the engine drains names an attempt that has no row, or a failed one. -/
def DrainsUnknown (s : State) : Action → Prop
  | .assign _ _ attemptId _ => s.replies = [] → s.draining = true →
      ∀ r, s.store.db.job? attemptId = some r → r.state = .failed
  | _ => True

omit [PyDatetime] in
/-- A structured failure is that of a worker which has not stored the end of its attempt. -/
theorem holds_of_buildFailure {store : Store} {disk : Disk} {p : Phase} {a : Work} {l : QueueLease}
    {e : BuildExecutionError} (h : buildFailure? cfg store disk p a = some (l, e)) : Phase.holds? p = some l := by
  rcases p with _ | m | m | m | m | ⟨m, _, _⟩ | ⟨m, _, _⟩ <;> cases a <;> try cases h
  case building.raised | packaging.raised =>
    obtain ⟨e', -, he⟩ := Option.map_eq_some_iff.mp h
    cases he
    rfl
  case building.ensureCurrent =>
    obtain ⟨r, -, hr⟩ := Option.bind_eq_some_iff.mp h
    obtain ⟨e', -, he⟩ := Option.map_eq_some_iff.mp hr
    cases he
    rfl

omit [PyDatetime] in
theorem LeaseInv.reportsHeld {t : Timed} (h : LeaseInv cfg t) {act : Action} (hdrain : DrainsUnknown t.engine act) :
    ReportsHeld cfg t.engine act := by
  cases act with
  | work w a =>
    intro l e hfail
    obtain ⟨r, hr, hheld⟩ := (h w).held l (holds_of_buildFailure cfg hfail)
    refine ⟨r, ?_, Or.inr ⟨by rw [hheld.running]; rfl, hheld.owner, hheld.token⟩⟩
    rw [jobRow, hr, Option.filter_some, if_pos (decide_eq_true hheld.build)]
  | assign => exact hdrain
  | _ => trivial

/-- **Prompt refreshes keep the reports.** With prompt refreshes, and no assignment of a stored attempt during a
drain, every published terminal state is the state of the row, and no attempt has two of them. -/
theorem prompt_reports_agree {latency : ℚ} (hlatency : InTime cfg latency) (acts : List Action)
    (hprompt : Along (timedStep cfg) (fun t act => Prompt latency t act ∧ DrainsUnknown t.engine act)
      Timed.init acts) : ReportsAgree (run (JobLoop.step cfg) State.init acts) := by
  have hrun := Along.invariant (I := fun t : Timed => LeaseInv cfg t ∧ ReportInv t.engine)
    (fun t act hp hI => ⟨hI.1.step cfg hlatency act hp.1, hI.2.step cfg act (hI.1.reportsHeld cfg hp.2)⟩)
    acts hprompt ⟨leaseInv_init cfg, reportInv_init⟩
  have hreports := hrun.2.reportsAgree
  rwa [engine_run] at hreports

end Datetime

/-! ### A lease that is refreshed once -/

/-- The sample attempt is leased for 120 seconds and refreshed 98 seconds later. -/
def refreshedActs : List Action := assignActs ++ [.refresh 0 (seconds 100)]

/-- Another worker looks for an attempt when the first lease would have ended; then the first worker fails. -/
def promptActs : List Action :=
  refreshedActs ++ [.poll 1 (seconds 130) (seconds 130) (seconds 130) (py "token-1"),
    .work 0 (.raised (.build exitError) (seconds 131) 0)]

theorem refreshedActs_lease :
    ((run (@timedStep sampleLoop firstDay) Timed.init refreshedActs).extended 0 = seconds 100) ∧
      ((run (@timedStep sampleLoop firstDay) Timed.init refreshedActs).engine.workers 0).lease?.map
        QueueLease.visibilityTimeoutSeconds = some 120 := by
  decide +kernel

theorem promptActs_touched :
    ((run (@JobLoop.step firstDay sampleLoop) State.init promptActs).touched.map fun t =>
      (t.worker, t.attemptId, t.users 0)) = [(0, sampleAttempt, false), (0, sampleAttempt, true)] := by
  decide +kernel

theorem inTime_sampleLoop : InTime sampleLoop 60 := by
  norm_num [InTime, refreshInterval, sampleLoop]

/-- A search for an attempt while only the first worker has a lease. -/
theorem prompt_first {latency : ℚ} {t : Timed} {timeout : ℤ} (hidle : ∀ v, v ≠ 0 → t.engine.workers v = .idle)
    (hlease : (t.engine.workers 0).lease?.map QueueLease.visibilityTimeoutSeconds = some timeout)
    {w : ℕ} {acquired started now : Instant} {token : PyStr}
    (hdue : (acquired : ℚ) - t.extended 0 ≤ 1000000 * (refreshInterval timeout + latency)) :
    Prompt latency t (.poll w acquired started now token) := by
  intro v l hl
  by_cases hv : v = 0
  · subst hv
    rw [hl, Option.map_some, Option.some.injEq] at hlease
    rw [hlease]
    exact hdue
  · rw [hidle v hv] at hl
    cases hl

theorem refreshedActs_idle (v : ℕ) (hv : v ≠ 0) :
    (run (@timedStep sampleLoop firstDay) Timed.init refreshedActs).engine.workers v = .idle := by
  rw [engine_run]
  refine @workers_run firstDay sampleLoop v refreshedActs _ fun act hact => ?_
  simp only [refreshedActs, assignActs, List.cons_append, List.nil_append, List.mem_cons,
    List.not_mem_nil, or_false] at hact
  rcases hact with rfl | rfl | rfl | rfl <;> simp [Action.worker?, hv.symm]

theorem prompt_promptActs : Along (@timedStep sampleLoop firstDay)
    (fun t act => Prompt 60 t act ∧ DrainsUnknown t.engine act) Timed.init promptActs := by
  obtain ⟨hextended, hlease⟩ := refreshedActs_lease
  have hsecond : Prompt 60 (run (@timedStep sampleLoop firstDay) Timed.init refreshedActs)
      (.poll 1 (seconds 130) (seconds 130) (seconds 130) (py "token-1")) := by
    refine prompt_first refreshedActs_idle hlease ?_
    rw [hextended]
    norm_num [seconds, refreshInterval]
  have hfirst : Along (@timedStep sampleLoop firstDay)
      (fun t act => Prompt 60 t act ∧ DrainsUnknown t.engine act) Timed.init refreshedActs := by
    refine ⟨⟨trivial, fun _ hd => (by cases hd)⟩, ⟨trivial, trivial⟩, ⟨?_, trivial⟩, ⟨trivial, trivial⟩, trivial⟩
    intro v l hl
    simp only [timedStep] at hl
    rw [(@step_frame sampleLoop firstDay _ rfl _).1, (@step_frame sampleLoop firstDay _ rfl _).1] at hl
    cases hl
  rw [promptActs, Along.append]
  exact ⟨hfirst, ⟨hsecond, trivial⟩, ⟨trivial, trivial⟩, trivial⟩

/-- The refreshed lease is not reclaimed, and only its holder touches the workspace. -/
theorem prompt_leases_refreshed :
    ((run (@JobLoop.step firstDay sampleLoop) State.init promptActs).touched.map fun t =>
      (t.worker, t.attemptId, t.users 0)) = [(0, sampleAttempt, false), (0, sampleAttempt, true)] ∧
    Exclusive (run (@JobLoop.step firstDay sampleLoop) State.init promptActs) := by
  exact ⟨promptActs_touched, (@prompt_leases_exclusive sampleLoop firstDay _ inTime_sampleLoop promptActs
    (prompt_promptActs.imp fun _ _ h => h.1)).2.2⟩

/-- The failure its worker reports is the state of the row. -/
theorem prompt_reports_refreshed :
    ReportsAgree (run (@JobLoop.step firstDay sampleLoop) State.init promptActs) :=
  @prompt_reports_agree sampleLoop firstDay _ inTime_sampleLoop promptActs prompt_promptActs

end BuildEngine.Agent.LeaseTiming
