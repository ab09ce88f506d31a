import BuildEngine.Agent.Commands
import BuildEngine.Agent.TerminalReports

/-! # Completeness of the reports

A row becomes terminal in the success path of `execute_job`, in the two `except` clauses of `_worker`, and in
the loop of `acquire_lease`. The first three leave the worker with the report of that state still to make
(`owes?`), and it goes on to make it. The loop commits `CANCELLED` and nobody reports it: a terminal row is
reported or owed (`Accounted`) as long as no worker finds a row with a cancellation request where it looks for
one to lease (`Reportable`). -/

namespace BuildEngine.Agent.ReportCompleteness

open BuildEngine.Base BuildEngine.Base.Json BuildEngine.Base.Run BuildEngine.Agent.Protocol
open BuildEngine.Agent.JobLoop BuildEngine.Agent.TerminalReports BuildEngine.Queue.Schema BuildEngine.Queue
open BuildEngine.Queue.Store BuildEngine.Queue.Outbox BuildEngine.Queue.Ops
open BuildEngine.Queue.StateMachine BuildEngine.Executor.Workspace

/-! ### Rows that become terminal -/

/-- The call is one that can leave the attempt in the terminal state: a transition to it, or a crash. -/
def Ends (a : PyStr) (st : JobState) : Op → Prop
  | .transition _ a' state _ _ _ _ => a' = a ∧ state = st.text
  | .recordExecutorCrash _ a' _ _ _ => a' = a ∧ st = .failed
  | .acquireLease _ _ _ _ => st = .cancelled
  | _ => False

/-- A row that is terminal after a call was so before it, or the call is one of those. -/
theorem ended_or_before {s t : Store} (op : Op) (hop : apply s op = t) {a : PyStr} {st : JobState}
    (h : InTerminal a st t) : InTerminal a st s ∨ Ends a st op := by
  subst hop
  obtain ⟨ht, r', hr', rfl⟩ := h
  have hstep := rowStep s op a
  rw [hr'] at hstep
  generalize hx : s.db.job? a = x at hstep
  cases hstep with
  | keep => exact Or.inl ⟨ht, r', hx, rfl⟩
  | insert => cases ht
  | lease => cases ht
  | cancel => exact Or.inr rfl
  | refresh => exact Or.inl ⟨ht, _, hx, rfl⟩
  | transition ha hs => exact Or.inr ⟨ha.symm.trans (Db.attemptId_of_job? hx), (JobState.text_of_ofText? hs).symm⟩
  | requestCancel => exact Or.inl ⟨ht, _, hx, rfl⟩
  | crash ha =>
    refine Or.inr ⟨ha.symm.trans (Db.attemptId_of_job? hx), ?_⟩
    simp only [crashRow] at ht ⊢
    split_ifs at ht ⊢
    · rfl
    · cases ht
  | cursor => exact Or.inl ⟨ht, _, hx, rfl⟩

/-- No row becomes terminal. -/
def Quiet (s t : Store) : Prop := ∀ a st, InTerminal a st t → InTerminal a st s

theorem Quiet.refl (s : Store) : Quiet s s := fun _ _ h => h

theorem Quiet.trans {s t u : Store} (h : Quiet s t) (h' : Quiet t u) : Quiet s u :=
  fun a st hu => h a st (h' a st hu)

/-- The calls that make no row terminal. -/
def quiet : Op → Bool
  | .transition _ _ state _ _ _ _ => (JobState.ofText? state).all (!·.isTerminal)
  | .recordExecutorCrash _ _ _ _ _ | .acquireLease _ _ _ _ => false
  | _ => true

theorem quiet_apply (s : Store) (op : Op) (h : quiet op = true) : Quiet s (apply s op) := by
  intro a st hin
  rcases ended_or_before op rfl hin with hold | hends
  · exact hold
  · exfalso
    cases op with
    | transition =>
      obtain ⟨-, rfl⟩ := hends
      simp only [quiet, JobState.ofText?_text, Option.all_some, hin.1] at h
      cases h
    | recordExecutorCrash => cases h
    | acquireLease => cases h
    | _ => exact hends

theorem quiet_of {s t : Store} (op : Op) (ht : apply s op = t) (h : quiet op = true) : Quiet s t :=
  ht ▸ quiet_apply s op h

/-- A loop that finds no cancellation request where it starts changes nothing. -/
theorem acquireLoop_uncancelled {now : Stamp} {db : Db} (fuel : ℕ)
    (h : ∀ r, db.jobs.selectFirst (eligible now) leaseOrder = some r → r.cancelRequested = false) :
    acquireLoop now (fuel + 1) db = some (db, db.jobs.selectFirst (eligible now) leaseOrder) := by
  rw [acquireLoop]
  split
  · next hnone => rw [hnone]
  · next row hrow => rw [h row hrow, if_neg (by simp), hrow]

/-- A lease makes no row terminal, if the first row it may take has no cancellation request. -/
theorem quiet_acquireLease {s : Store} {now : Instant}
    (h : ∀ r, s.db.jobs.selectFirst (eligible (formatDatetime now)) leaseOrder = some r →
      r.cancelRequested = false) (token owner : PyStr) (timeout : ℤ) :
    Quiet s (s.acquireLease now token owner timeout).2 := by
  have hleased : ∀ (row : JobRow) (db : Db), db = s.db.updateJobs (fun r => r.attemptId = row.attemptId)
      (leaseRow owner token (formatDatetime (now + seconds timeout)) (formatDatetime now))
      (attemptId_leaseRow _ _ _ _) → Quiet s { s with db := db } := by
    rintro row db rfl a st ⟨ht, r', hr', rfl⟩
    rw [show ({ s with db := s.db.updateJobs _ _ _ } : Store).db.job? a = (s.db.updateJobs
      (fun r => r.attemptId = row.attemptId) (leaseRow owner token (formatDatetime (now + seconds timeout))
      (formatDatetime now)) (attemptId_leaseRow _ _ _ _)).job? a from rfl, Db.job?_updateJobs,
      Option.map_eq_some_iff] at hr'
    obtain ⟨r, hr, rfl⟩ := hr'
    split_ifs at ht ⊢
    · cases ht
    · exact ⟨ht, r, hr, rfl⟩
  unfold acquireLease
  dsimp only
  rw [acquireLoop_uncancelled _ h]
  rcases s.db.jobs.selectFirst (eligible (formatDatetime now)) leaseOrder with _ | row
  · exact .refl s
  · dsimp only
    split
    · exact hleased row _ rfl
    · exact hleased row _ rfl

/-! ### The invariant -/

/-- The terminal state of the attempt was published. -/
def Reported (s : State) (a : PyStr) (st : JobState) : Prop :=
  ∃ r ∈ s.published, r.event.attemptId = some a ∧ Report.state? r = some st

/-- A worker is about to publish the terminal state of the attempt. -/
def Owed (s : State) (a : PyStr) (st : JobState) : Prop :=
  ∃ w l, owes? (s.workers w) = some (l, st) ∧ l.job.attemptId = a

/-- Every terminal state is reported or owed. -/
def Accounted (s : State) : Prop := ∀ a st, InTerminal a st s.store → Reported s a st ∨ Owed s a st

theorem accounted_init : Accounted State.init := by
  rintro a st ⟨-, r, hr, -⟩
  cases hr

/-- A change of the store that makes no row terminal, with the workers and the reports left alone. -/
theorem Accounted.quiet {s t : State} (h : Accounted s) (hq : Quiet s.store t.store)
    (hw : t.workers = s.workers) (hp : t.published = s.published) : Accounted t := by
  intro a st hin
  unfold Reported Owed
  rw [hw, hp]
  exact h a st (hq a st hin)

/-- A worker that owes nothing, or what it goes on to owe, goes on to a phase. -/
theorem Accounted.setWorker {s : State} (h : Accounted s) (w : ℕ) {p : Phase}
    (hw : ∀ l st, st.isTerminal = true → owes? (s.workers w) = some (l, st) → owes? p = some (l, st) ∨
      Reported s l.job.attemptId st) : Accounted (s.setWorker w p) := by
  intro a st hin
  rcases h a st hin with hrep | ⟨v, l, hv, ha⟩
  · exact Or.inl hrep
  · by_cases hvw : v = w
    · subst hvw
      rcases hw l st hin.1 hv with hp | hrep
      · exact Or.inr ⟨v, l, by rw [State.setWorker_self]; exact hp, ha⟩
      · exact Or.inl (ha ▸ hrep)
    · exact Or.inr ⟨v, l, by rw [State.setWorker_of_ne s p hvw]; exact hv, ha⟩

theorem Accounted.touch {s : State} (h : Accounted s) (w : ℕ) (dirs : List PyStr) (disk : Disk) :
    Accounted (s.touch w dirs disk) := h

/-- A worker that owes nothing makes a call that ends no attempt but its own, in the state it then owes. -/
theorem Accounted.call {s : State} (h : Accounted s) {w : ℕ} {store : Store} {p : Phase} {l : QueueLease}
    (hw : owes? (s.workers w) = none)
    (hq : ∀ a st, InTerminal a st store → InTerminal a st s.store ∨
      (a = l.job.attemptId ∧ owes? p = some (l, st))) :
    Accounted ({ s with store := store }.setWorker w p) := by
  intro a st hin
  rcases hq a st hin with hold | ⟨rfl, hp⟩
  · rcases h a st hold with hrep | ⟨v, l', hv, ha⟩
    · exact Or.inl hrep
    · have hvw : v ≠ w := by
        rintro rfl
        rw [hw] at hv
        cases hv
      exact Or.inr ⟨v, l', by rw [State.setWorker_of_ne _ p hvw]; exact hv, ha⟩
  · exact Or.inr ⟨w, l, by rw [State.setWorker_self]; exact hp, rfl⟩

/-! ### The end of an attempt -/

/-- A crash is recorded and the record of the row is returned, or nothing is changed. -/
theorem recordExecutorCrash_cases (s : Store) (now : Instant) (a error : PyStr) (owner token : Option PyStr) :
    (∃ job r, (s.recordExecutorCrash now a error owner token).1 = .ok job ∧ job.state = r.state ∧
      (s.recordExecutorCrash now a error owner token).2.db.job? a = some r) ∨
    ∃ err, s.recordExecutorCrash now a error owner token = (.error err, s) := by
  by_cases h : ∃ r, s.db.job? a = some r ∧ crashWhere a owner token r = true
  · obtain ⟨r, hr, hw⟩ := h
    have hjob := job?_recordExecutorCrash hr hw now error
    obtain ⟨s', hs', -⟩ := recordExecutorCrash_accepts hr hw now error
    rw [hs'] at hjob ⊢
    exact Or.inl ⟨_, _, rfl, state_record _ _, hjob⟩
  · refine Or.inr ⟨_, recordExecutorCrash_refuses (fun r hr => ?_) now error⟩
    by_contra hw
    exact h ⟨r, hr, by simpa using hw⟩

/-- A failure is handled by a worker that owes nothing. -/
theorem Accounted.handleFailure {s : State} (h : Accounted s) (now : Instant) {w : ℕ} (l : QueueLease)
    (f : Failure) (hw : owes? (s.workers w) = none) : Accounted (JobLoop.handleFailure now w l f s) := by
  unfold JobLoop.handleFailure
  rcases f with e | message
  · refine h.call (l := l) hw fun a st hin => ?_
    have hends : ∀ expected, InTerminal a st (s.store.transition now l.job.attemptId e.target.text
        (some e.message) expected (some l.owner) (some l.token)).2 → InTerminal a st s.store ∨
        (a = l.job.attemptId ∧ owes? (.reportingError l e (some e.target)) = some (l, st)) := by
      intro expected hin
      rcases ended_or_before (.transition now l.job.attemptId e.target.text (some e.message) expected
        (some l.owner) (some l.token)) rfl hin with hold | ⟨ha, hst⟩
      · exact Or.inl hold
      · refine Or.inr ⟨ha.symm, ?_⟩
        rw [← JobState.text_injective hst]
        rfl
    split at hin
    · split_ifs at hin
      · exact Or.inl hin
      · exact hends _ hin
    · exact Or.inl hin
  · dsimp only
    split_ifs
    · exact h.setWorker w fun l' st _ ho => by rw [hw] at ho; cases ho
    · have hends : ∀ a st, InTerminal a st
          (s.store.recordExecutorCrash now l.job.attemptId message (some l.owner) (some l.token)).2 →
          InTerminal a st s.store ∨ (l.job.attemptId = a ∧ st = .failed) := fun a st hin =>
        ended_or_before (.recordExecutorCrash now l.job.attemptId message (some l.owner) (some l.token)) rfl hin
      rcases recordExecutorCrash_cases s.store now l.job.attemptId message (some l.owner) (some l.token) with
        ⟨job, r, hok, hstate, hr⟩ | ⟨err, herr⟩
      · generalize s.store.recordExecutorCrash now l.job.attemptId message (some l.owner) (some l.token) =
          result at hends hok hr
        obtain ⟨result, store⟩ := result
        dsimp only at hends hok hr
        subst hok
        refine h.call (l := l) hw fun a st hin => ?_
        rcases hends a st hin with hold | ⟨rfl, rfl⟩
        · exact Or.inl hold
        · obtain ⟨-, r', hr', hfailed⟩ := hin
          rw [Option.some.inj (hr'.symm.trans hr)] at hfailed
          rw [hstate, hfailed]
          exact Or.inr ⟨rfl, rfl⟩
      · rw [herr]
        exact h.call (l := l) hw fun a st hin => Or.inl hin

variable (cfg : LoopConfig)

/-- An exception leaves `execute_job`, in a worker that owes nothing. -/
theorem Accounted.unwind {s : State} (h : Accounted s) (now : Instant) (mtime : ℤ) {w : ℕ} (l : QueueLease)
    (r : Raised) (hw : owes? (s.workers w) = none) : Accounted (JobLoop.unwind cfg now mtime w l r s) := by
  unfold JobLoop.unwind
  split
  · exact h.handleFailure now l _ hw
  · next dirs disk _ => exact (h.touch w dirs disk).handleFailure now l _ hw

/-- A turn of the loop of `_worker` that finds no cancellation request. -/
theorem Accounted.poll {s : State} (h : Accounted s) {w : ℕ} {acquired : Instant} (started now : Instant)
    (token : PyStr) (hw : owes? (s.workers w) = none)
    (hfirst : ∀ r, s.store.db.jobs.selectFirst (eligible (formatDatetime acquired)) leaseOrder = some r →
      r.cancelRequested = false) : Accounted (JobLoop.poll cfg w acquired started now token s) := by
  have hacquire := quiet_acquireLease hfirst token (owner w) cfg.leaseSeconds
  have hstart : ∀ {job : JobRecord} {result store store'},
      s.store.acquireLease acquired token (owner w) cfg.leaseSeconds = (.ok (some job), store) →
      store.transition started job.attemptId (py "RUNNING") none (some (py "LEASED"))
        (some (leaseOf cfg w job).owner) (some (leaseOf cfg w job).token) = (result, store') →
      Accounted { s with store := store' } := by
    intro job result store store' ha ht
    have htransit : Quiet store store' := quiet_of (.transition started job.attemptId (py "RUNNING") none
      (some (py "LEASED")) (some (leaseOf cfg w job).owner) (some (leaseOf cfg w job).token))
      (congrArg Prod.snd ht) rfl
    rw [ha] at hacquire
    exact h.quiet (hacquire.trans htransit) rfl rfl
  have hstep := poll_step cfg w acquired started now token s
  generalize JobLoop.poll cfg w acquired started now token s = t at hstep ⊢
  cases hstep with
  | without ha =>
    rw [ha] at hacquire
    exact h.quiet hacquire rfl rfl
  | refused ha ht => exact hstart ha ht
  | invalid ha ht => exact (hstart ha ht).handleFailure now _ _ hw
  | started ha ht =>
    refine ((hstart ha ht).touch w _ _).setWorker w fun l' st _ ho => ?_
    rw [show owes? (s.workers w) = some (l', st) from ho] at hw
    cases hw

section Datetime
variable [PyDatetime]

/-! ### Publishing -/

theorem quiet_publishAttemptEvent (x : PublishInput) (type : MessageType) (payload : List (PyStr × Json))
    (b a : PyStr) (s : Store) : Quiet s (publishAttemptEvent cfg x type payload b a s).2 := by
  rcases store_publishAttemptEvent cfg x type payload b a s with hs | ⟨e, -, hs⟩
  · rw [hs]
    exact .refl s
  · rw [hs]
    exact quiet_apply s (.append cfg.uplink.outbox x.clock e) rfl

/-- A publish keeps what is accounted for; one that returns has reported its state. -/
theorem Accounted.publish {s : State} (h : Accounted s) (x : PublishInput) (type : MessageType)
    (payload : List (PyStr × Json)) (b a : PyStr) :
    Accounted (JobLoop.publish cfg x type payload b a s).2 ∧
    ((JobLoop.publish cfg x type payload b a s).1 = .ok () → ∀ st, reportedState? type payload = some st →
      Reported (JobLoop.publish cfg x type payload b a s).2 a st) := by
  have hquiet := quiet_publishAttemptEvent cfg x type payload b a s.store
  unfold JobLoop.publish
  split
  · next hp =>
    rw [hp] at hquiet
    exact ⟨h.quiet hquiet rfl rfl, fun hok => by cases hok⟩
  · next e store hp =>
    obtain ⟨htype, hpayload, hattempt, -⟩ := publishAttemptEvent_ok cfg (congrArg Prod.fst hp)
    rw [hp] at hquiet
    refine ⟨fun a st hin => ?_, fun _ st hst => ?_⟩
    · rcases h a st (hquiet a st hin) with ⟨r, hr, hrep⟩ | howed
      · exact Or.inl ⟨r, List.mem_append_left _ hr, hrep⟩
      · exact Or.inr howed
    · refine ⟨_, List.mem_append_right _ (List.mem_singleton.mpr rfl), hattempt, ?_⟩
      unfold Report.state?
      rw [htype, hpayload]
      exact hst

/-- A publish of a worker. -/
theorem Accounted.publishFor {s : State} (h : Accounted s) (l : QueueLease) (x : PublishInput)
    (type : MessageType) (payload : List (PyStr × Json)) :
    Accounted (JobLoop.publishFor cfg l x type payload s).2 ∧
    ((JobLoop.publishFor cfg l x type payload s).1 = .ok () → ∀ st, reportedState? type payload = some st →
      Reported (JobLoop.publishFor cfg l x type payload s).2 l.job.attemptId st) :=
  h.publish cfg x type payload l.job.buildJobId l.job.attemptId

/-! ### Every step -/

/-- The publish a worker makes in a stretch of code. -/
def publication? : Phase → Work → Option (QueueLease × PublishInput × MessageType × List (PyStr × Json))
  | .building l, .progress p x _ _ | .packaging l, .progress p x _ _ => some (l, x, p.type, p.payload)
  | .succeeded l, .duration value x _ _ =>
    some (l, x, .attemptStatus, (Progress.metric (py "jobs.duration_seconds") value).payload)
  | .acknowledging l, .ackSucceeded x _ _ =>
    some (l, x, .attemptStatus, ackPayload l.job.buildJobId l.job.attemptId (py "SUCCEEDED") none)
  | .reportingError l e _, .publishError x => some (l, x, .error, errorPayload e)
  | .reportingState l e st, .ackFailed x =>
    some (l, x, .attemptStatus, ackPayload l.job.buildJobId l.job.attemptId st.text (some e))
  | _, _ => none

/-- The publisher does not fail: the publish of a worker returns. -/
def PublisherWorks (s : State) : Action → Prop
  | .work w a => (publication? (s.workers w) a).all (fun p =>
      (JobLoop.publishFor cfg p.1 p.2.1 p.2.2.1 p.2.2.2 s).1.isOk) = true
  | _ => True

/-- **The condition under which reports are complete.** A worker that looks for an attempt to lease does not
find a cancellation request on the first row it may take. -/
def LeasesUncancelled (s : State) : Action → Prop
  | .poll w acquired _ _ _ => (s.workers w).lease?.isNone = true →
      (s.store.db.jobs.selectFirst (eligible (formatDatetime acquired)) leaseOrder).all
        (fun r => !r.cancelRequested) = true
  | _ => True

instance (s : State) (act : Action) : Decidable (PublisherWorks cfg s act) :=
  match act with
  | .work _ _ => inferInstanceAs (Decidable (_ = true))
  | .poll _ _ _ _ _ | .refresh _ _ | .assign _ _ _ _ | .cancel _ _ _ _ | .reply _ | .drain | .resume
  | .ackEvent _ _ => inferInstanceAs (Decidable True)

instance (s : State) (act : Action) : Decidable (LeasesUncancelled s act) :=
  match act with
  | .poll _ _ _ _ _ => inferInstanceAs (Decidable (_ = true → _ = true))
  | .work _ _ | .refresh _ _ | .assign _ _ _ _ | .cancel _ _ _ _ | .reply _ | .drain | .resume
  | .ackEvent _ _ => inferInstanceAs (Decidable True)

omit [PyDatetime] in
theorem ok_of_isOk {ε : Type} {x : Except ε Unit} (h : x.isOk = true) : x = .ok () := by
  rcases x with _ | _
  · cases h
  · rfl

/-- A worker publishes, and goes on to owe what it owed or has just reported. -/
theorem Accounted.publishThen {s : State} (h : Accounted s) {w : ℕ} (l : QueueLease) (x : PublishInput)
    (type : MessageType) (payload : List (PyStr × Json)) {p : Phase}
    (hp : ∀ l' st, st.isTerminal = true → owes? (s.workers w) = some (l', st) → owes? p = some (l', st) ∨
      Reported (JobLoop.publishFor cfg l x type payload s).2 l'.job.attemptId st) :
    Accounted ((JobLoop.publishFor cfg l x type payload s).2.setWorker w p) := by
  refine (h.publishFor cfg l x type payload).1.setWorker w fun l' st ht ho => ?_
  rw [JobLoop.publishFor, (publish_frame cfg x type payload l.job.buildJobId l.job.attemptId s).1] at ho
  exact hp l' st ht ho

/-- What a worker with a lease does keeps the account, if its publish returns. -/
theorem Accounted.work {s : State} (h : Accounted s) (w : ℕ) (a : Work)
    (hworks : PublisherWorks cfg s (.work w a)) : Accounted (JobLoop.work cfg s w (s.workers w) a) := by
  have hok : ∀ l x type payload, publication? (s.workers w) a = some (l, x, type, payload) →
      (JobLoop.publishFor cfg l x type payload s).1 = .ok () := by
    intro l x type payload hp
    simp only [PublisherWorks, hp, Option.all_some] at hworks
    exact ok_of_isOk hworks
  have hstep := work_step cfg s w (s.workers w) a
  generalize hphase : s.workers w = p, JobLoop.work cfg s w (s.workers w) a = t at hstep hok ⊢
  have hpub := fun l x type payload => h.publishFor cfg l x type payload
  have hnothing : ∀ {l : QueueLease}, p = .building l ∨ p = .packaging l → owes? (s.workers w) = none := by
    rintro l (rfl | rfl) <;> rw [hphase] <;> rfl
  -- the publishes of the phase return
  have hreturns : ∀ {l x type payload err}, publication? p a = some (l, x, type, payload) →
      (JobLoop.publishFor cfg l x type payload s).1 ≠ .error err := by
    intro l x type payload err hp hx
    cases (hok l x type payload hp).symm.trans hx
  cases hstep with
  | other => exact h
  | progress => exact (hpub _ _ _ _).1
  | progressRaised hp hx => rcases hp with rfl | rfl <;> exact absurd hx (hreturns rfl)
  | raised hp => exact h.unwind cfg _ _ _ _ (hnothing hp)
  | current => exact h.setWorker w fun l' st _ ho => by rw [hphase] at ho; cases ho
  | stale => exact h.unwind cfg _ _ _ _ (hnothing (Or.inl rfl))
  | @succeeded l stored _ _ _ _ ht =>
    refine h.call (l := l) (hnothing (Or.inr rfl)) fun a st hin => ?_
    have hends : InTerminal a st s.store ∨ (l.job.attemptId = a ∧ py "SUCCEEDED" = st.text) :=
      ended_or_before (.transition stored l.job.attemptId (py "SUCCEEDED") none (some (py "RUNNING"))
        (some l.owner) (some l.token)) (congrArg Prod.snd ht) hin
    rcases hends with hold | ⟨rfl, hst⟩
    · exact Or.inl hold
    · rw [← JobState.text_injective (a := .succeeded) hst]
      exact Or.inr ⟨rfl, rfl⟩
  | @refused l _ _ _ _ store ht =>
    have hsame : store = s.store := by
      have hraises := transition_raises (congrArg Prod.fst ht)
      rw [ht] at hraises
      exact hraises
    subst hsame
    exact h.unwind cfg _ _ _ _ (hnothing (Or.inr rfl))
  | timed => exact h.publishThen cfg _ _ _ _ (by rw [hphase]; exact fun l' st _ ho => Or.inl ho)
  | timedRaised hx => exact absurd hx (hreturns rfl)
  | @acknowledged l x _ _ =>
    refine h.publishThen cfg (p := .idle) l x .attemptStatus
      (ackPayload l.job.buildJobId l.job.attemptId (py "SUCCEEDED") none) ?_
    rw [hphase]
    rintro l' st _ ⟨⟩
    exact Or.inr ((hpub l x _ _).2 (hok _ _ _ _ rfl) .succeeded (reportedState?_ackPayload _ _ .succeeded none))
  | acknowledgedRaised hx => exact absurd hx (hreturns rfl)
  | @errorReported l e state x =>
    cases state with
    | none => exact h.publishThen cfg l x _ _ (by rw [hphase]; exact fun l' st _ ho => by cases ho)
    | some st => exact h.publishThen cfg l x _ _ (by rw [hphase]; exact fun l' st _ ho => Or.inl ho)
  | @stateReported l e st x =>
    refine h.publishThen cfg l x .attemptStatus
      (ackPayload l.job.buildJobId l.job.attemptId st.text (some e)) ?_
    rw [hphase]
    rintro l' st' ht ⟨⟩
    refine Or.inr ((hpub l x _ _).2 (hok _ _ _ _ rfl) st ?_)
    rw [reportedState?_ackPayload, if_pos ht]

/-- Every action keeps the account, under the two conditions. -/
theorem Accounted.step {s : State} (h : Accounted s) (act : Action) (hworks : PublisherWorks cfg s act)
    (hfirst : LeasesUncancelled s act) : Accounted (JobLoop.step cfg s act) := by
  cases act with
  | poll w acquired started now token =>
    simp only [JobLoop.step]
    split
    · next hidle =>
      refine h.poll cfg started now token (by rw [hidle]; rfl) fun r hr => ?_
      have hall := hfirst (by rw [hidle]; rfl)
      rw [hr, Option.all_some] at hall
      simpa using hall
    · exact h
  | work w a => exact h.work cfg w a hworks
  | refresh w now =>
    simp only [JobLoop.step]
    split
    · next l _ =>
      exact h.quiet (quiet_apply s.store (.refreshLease now l.job.attemptId l.owner
        l.visibilityTimeoutSeconds (some l.token)) rfl) rfl rfl
    · exact h
  | assign now b a payload =>
    simp only [JobLoop.step]
    split_ifs
    · unfold JobLoop.handleAssign
      dsimp only
      split_ifs
      · exact h.quiet (.refl _) rfl rfl
      · have hquiet : ∀ merged, Quiet s.store (s.store.enqueue now merged).2 :=
          fun merged => quiet_apply s.store (.enqueue now merged) rfl
        have hq := hquiet (set (set payload (py "build_job_id") (.str b)) (py "attempt_id") (.str a))
        split
        · next hx => rw [hx] at hq; exact h.quiet hq rfl rfl
        · next hx => rw [hx] at hq; exact h.quiet hq rfl rfl
    · exact h
  | cancel now b a explicit =>
    simp only [JobLoop.step]
    split_ifs
    · exact h.quiet (quiet_apply s.store (.requestCancel now b a) rfl) rfl rfl
    · exact h
  | reply x =>
    simp only [JobLoop.step]
    split
    · exact h
    · next r rest _ =>
      have hpub := (h.publish cfg x .attemptStatus r.payload r.buildJobId r.attemptId).1
      split
      · next hx => rw [hx] at hpub; exact hpub.quiet (.refl _) rfl rfl
      · next hx => rw [hx] at hpub; exact hpub.quiet (.refl _) rfl rfl
  | drain => exact h.quiet (.refl _) rfl rfl
  | resume => exact h.quiet (.refl _) rfl rfl
  | ackEvent a n =>
    simp only [JobLoop.step]
    split_ifs
    · exact h.quiet (quiet_apply s.store (.ackThrough a n) rfl) rfl rfl
    · exact h

/-- **Every terminal attempt is reported.** In every run in which the publisher does not fail and no worker
finds a cancellation request on the first row it may lease: in the state reached, the terminal state of an
attempt that no worker is processing was published for it. -/
theorem terminal_reported (acts : List Action)
    (h : Along (JobLoop.step cfg) (fun s act => PublisherWorks cfg s act ∧ LeasesUncancelled s act)
      State.init acts) (a : PyStr) (st : JobState)
    (hidle : ∀ w l, ((run (JobLoop.step cfg) State.init acts).workers w).lease? = some l →
      l.job.attemptId ≠ a)
    (hin : InTerminal a st (run (JobLoop.step cfg) State.init acts).store) :
    Reported (run (JobLoop.step cfg) State.init acts) a st := by
  have hacc : Accounted (run (JobLoop.step cfg) State.init acts) :=
    Along.invariant (fun _ act hC hI => hI.step cfg act hC.1 hC.2) acts h accounted_init
  rcases hacc a st hin with hrep | ⟨w, l, hw, ha⟩
  · exact hrep
  · refine absurd ha (hidle w l ?_)
    generalize (run (JobLoop.step cfg) State.init acts).workers w = p at hw
    rcases p with _ | l' | l' | l' | l' | ⟨l', e, _ | st'⟩ | ⟨l', e, st'⟩ <;> cases hw <;> rfl

end Datetime

theorem failedActs_complete :
    Along (@JobLoop.step firstDay sampleLoop)
      (fun s act => @PublisherWorks sampleLoop firstDay s act ∧ LeasesUncancelled s act)
      State.init failedActs ∧
    (((run (@JobLoop.step firstDay sampleLoop) State.init failedActs).workers 0).lease?).isNone = true ∧
    ((run (@JobLoop.step firstDay sampleLoop) State.init failedActs).store.db.job? sampleAttempt).map
      (·.state) = some .failed := by
  decide +kernel

/-- The failure of a worker is reported. -/
theorem failure_reported :
    Reported (run (@JobLoop.step firstDay sampleLoop) State.init failedActs) sampleAttempt .failed := by
  obtain ⟨halong, hidle, hrow⟩ := failedActs_complete
  obtain ⟨r, hr, hst⟩ := Option.map_eq_some_iff.mp hrow
  refine @terminal_reported sampleLoop firstDay failedActs halong sampleAttempt .failed (fun w l hl => ?_)
    ⟨rfl, r, hr, hst⟩
  rcases w with _ | w
  · rw [Option.isNone_iff_eq_none.mp hidle] at hl
    cases hl
  · rw [@workers_run firstDay sampleLoop (w + 1) failedActs _
      (by simp [failedActs, assignActs, failActs, Action.worker?])] at hl
    cases hl

/-- The sample attempt is cancelled before a worker looks for an attempt to lease. -/
def cancelledActs : List Action :=
  [.assign 0 sampleBuild sampleAttempt [], .reply (publishAt 1),
    .cancel (seconds 2) sampleBuild (some sampleAttempt) (some sampleAttempt), .reply (publishAt 2),
    .poll 0 (seconds 3) (seconds 3) (seconds 3) (py "token-0")]

theorem cancelledActs_silent :
    Along (@JobLoop.step firstDay sampleLoop) (@PublisherWorks sampleLoop firstDay) State.init
      cancelledActs ∧
    (((run (@JobLoop.step firstDay sampleLoop) State.init cancelledActs).workers 0).lease?).isNone = true ∧
    ((run (@JobLoop.step firstDay sampleLoop) State.init cancelledActs).store.db.job? sampleAttempt).map
      (·.state) = some .cancelled ∧
    ((run (@JobLoop.step firstDay sampleLoop) State.init cancelledActs).published.all
      fun r => (Report.state? r).isNone) = true ∧
    (run (@JobLoop.step firstDay sampleLoop) State.init cancelledActs).replies.isEmpty = true := by
  decide +kernel

/-- The lease loop commits `CANCELLED`; every publish has returned, no worker processes the attempt, the
handler owes no reply, and the state was not published. -/
theorem cancellation_unreported :
    Along (@JobLoop.step firstDay sampleLoop) (@PublisherWorks sampleLoop firstDay) State.init
      cancelledActs ∧
    InTerminal sampleAttempt .cancelled
      (run (@JobLoop.step firstDay sampleLoop) State.init cancelledActs).store ∧
    (∀ w l, ((run (@JobLoop.step firstDay sampleLoop) State.init cancelledActs).workers w).lease? = some l →
      l.job.attemptId ≠ sampleAttempt) ∧
    (run (@JobLoop.step firstDay sampleLoop) State.init cancelledActs).replies.isEmpty = true ∧
    ¬ Reported (run (@JobLoop.step firstDay sampleLoop) State.init cancelledActs) sampleAttempt .cancelled := by
  obtain ⟨hworks, hidle, hrow, hsilent, hreplies⟩ := cancelledActs_silent
  obtain ⟨r, hr, hst⟩ := Option.map_eq_some_iff.mp hrow
  refine ⟨hworks, ⟨rfl, r, hr, hst⟩, fun w l hl => ?_, hreplies, ?_⟩
  · rcases w with _ | w
    · rw [Option.isNone_iff_eq_none.mp hidle] at hl
      cases hl
    · rw [@workers_run firstDay sampleLoop (w + 1) cancelledActs _
        (by simp [cancelledActs, Action.worker?])] at hl
      cases hl
  · rintro ⟨report, hmem, -, hstate⟩
    have hnone := List.all_eq_true.mp hsilent report hmem
    rw [hstate] at hnone
    cases hnone

end BuildEngine.Agent.ReportCompleteness
