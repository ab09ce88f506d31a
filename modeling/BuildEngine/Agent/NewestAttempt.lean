import BuildEngine.Agent.StoreCalls
import BuildEngine.Agent.TerminalReports
import BuildEngine.Queue.Freshness
import BuildEngine.Queue.Replay

/-! # The attempt that succeeds

`_ensure_current_attempt` checks once that the attempt is the newest of its build and that its cancellation was
not requested; packaging and upload follow, and only then the transition to `SUCCEEDED`. The transition checks
the lease, but neither of the two again. An attempt that succeeds is the newest of its build and has no
cancellation request if neither a newer assignment nor a cancellation arrives in between (`Undisturbed`). -/

namespace BuildEngine.Agent.NewestAttempt

open BuildEngine.Base BuildEngine.Base.Json BuildEngine.Base.Run BuildEngine.Agent.Protocol
open BuildEngine.Agent.JobLoop BuildEngine.Agent.StoreCalls
open BuildEngine.Agent.TerminalReports (eq_of_requiredPayloadUuid)
open BuildEngine.Queue.Schema BuildEngine.Queue
open BuildEngine.Queue.Store BuildEngine.Queue.Outbox BuildEngine.Queue.Ops

/-- The attempt has a row of the build without a cancellation request, and no row of the build stands above it;
a row stands above those that were there when it was inserted. -/
def Newest (b a : PyStr) (s : Store) : Prop :=
  ∃ r, s.db.job? a = some r ∧ r.buildJobId = b ∧ r.cancelRequested = false ∧
    ∀ r' ∈ s.db.jobs.rows, r'.buildJobId = b → r'.rowid ≤ r.rowid

/-! ### What the calls keep -/

/-- The rows are the same ones, and none has a new cancellation request. -/
structure Steady (s t : Store) : Prop where
  before : ∀ a r', t.db.job? a = some r' → ∃ r, s.db.job? a = some r ∧ r'.rowid = r.rowid ∧
    r'.buildJobId = r.buildJobId ∧ (r.cancelRequested = false → r'.cancelRequested = false)
  after : ∀ a r, s.db.job? a = some r → ∃ r', t.db.job? a = some r'

theorem Steady.refl (s : Store) : Steady s s := ⟨fun _ r h => ⟨r, h, rfl, rfl, id⟩, fun _ r h => ⟨r, h⟩⟩

theorem Steady.trans {s t u : Store} (h : Steady s t) (h' : Steady t u) : Steady s u := by
  refine ⟨fun a r'' hr'' => ?_, fun a r hr => ?_⟩
  · obtain ⟨r', hr', hid', hb', hc'⟩ := h'.before a r'' hr''
    obtain ⟨r, hr, hid, hb, hc⟩ := h.before a r' hr'
    exact ⟨r, hr, hid'.trans hid, hb'.trans hb, fun hn => hc' (hc hn)⟩
  · obtain ⟨r', hr'⟩ := h.after a r hr
    exact h'.after a r' hr'

/-- The calls of the work insert and delete no row, and request no cancellation. -/
theorem steady_apply (s : Store) {op : Op} (h : ofWork op = true) : Steady s (apply s op) := by
  refine ⟨fun a r' hr' => ?_, fun a r hr => ?_⟩
  · have hstep := rowStep s op a
    rw [hr'] at hstep
    generalize hx : s.db.job? a = x at hstep
    cases hstep with
    | keep => exact ⟨r', rfl, rfl, rfl, id⟩
    | insert => cases h
    | requestCancel => cases h
    | transition =>
      refine ⟨_, rfl, rfl, rfl, fun hc => ?_⟩
      unfold transitionRow
      dsimp only
      split_ifs
      · rfl
      · exact hc
    | cancel => exact ⟨_, rfl, rfl, rfl, fun _ => rfl⟩
    | lease => exact ⟨_, rfl, rfl, rfl, id⟩
    | refresh => exact ⟨_, rfl, rfl, rfl, id⟩
    | crash => exact ⟨_, rfl, rfl, rfl, fun _ => rfl⟩
    | cursor => exact ⟨_, rfl, rfl, rfl, id⟩
  · have hstep := rowStep s op a
    rw [hr] at hstep
    rcases hx : (apply s op).db.job? a with _ | r'
    · rw [hx] at hstep
      cases hstep
      cases h
    · exact ⟨r', rfl⟩

theorem Calls.steady {s t : Store} (h : Calls s t) : Steady s t :=
  Reaches.rel Steady.refl (fun _ _ _ => Steady.trans) (fun s op (hop : ofWork op = true) => steady_apply s hop) h

theorem Newest.steady {b a : PyStr} {s t : Store} (h : Newest b a s) (hst : Steady s t) : Newest b a t := by
  obtain ⟨r, hr, hb, hc, hmax⟩ := h
  obtain ⟨r', hr'⟩ := hst.after a r hr
  obtain ⟨r₀, hr₀, hid, hb', hc'⟩ := hst.before a r' hr'
  cases hr.symm.trans hr₀
  refine ⟨r', hr', hb'.trans hb, hc' hc, fun x' hx' hxb => ?_⟩
  obtain ⟨x, hx, hxid, hxb', -⟩ := hst.before x'.attemptId x' (Table.find?_of_mem hx')
  rw [hxid, hid]
  exact hmax x (Table.mem_of_find? hx) (hxb'.symm.trans hxb)

/-- An assignment to another build, or of an attempt that has a row, leaves the newest attempt the newest. -/
theorem Newest.enqueue {b a b' a' : PyStr} {s : Store} (h : Newest b a s) (now : Instant)
    (payload : List (PyStr × Json)) (hother : s.db.job? a' = none → b' ≠ b) :
    Newest b a (Ops.apply s (.enqueue now (set (set payload (py "build_job_id") (.str b')) (py "attempt_id")
      (.str a')))) := by
  have hbuildId : get? (set (set payload (py "build_job_id") (.str b')) (py "attempt_id") (.str a'))
      (py "build_job_id") = some (.str b') := by
    rw [get?_set_of_ne _ _ (by decide), get?_set_self]
  have hattemptId := get?_set_self (set payload (py "build_job_id") (.str b')) (py "attempt_id") (.str a')
  generalize set (set payload (py "build_job_id") (.str b')) (py "attempt_id") (.str a') = merged
    at hbuildId hattemptId
  obtain ⟨r, hr, hb, hc, hmax⟩ := h
  show Newest b a (s.enqueue now merged).2
  unfold Newest
  rw [db_enqueue]
  split
  · next b₁ a₁ hb₁ ha₁ =>
    obtain rfl := eq_of_requiredPayloadUuid hbuildId hb₁
    obtain rfl := eq_of_requiredPayloadUuid hattemptId ha₁
    refine ⟨r, ?_, hb, hc, fun r' hr' hb' => ?_⟩
    · rw [Db.job?_insertOrIgnoreJob, hr, if_neg (by simp)]
    · have hrow := Table.find?_of_mem hr'
      change (s.db.insertOrIgnoreJob _).job? r'.attemptId = some r' at hrow
      rw [Db.job?_insertOrIgnoreJob] at hrow
      split_ifs at hrow with hnew
      · cases hrow
        exact absurd hb' (hother hnew.2)
      · exact hmax r' (Table.mem_of_find? hrow) hb'
  · exact ⟨r, hr, hb, hc, hmax⟩

/-- A cancellation that does not mark the attempt leaves it the newest without a request. -/
theorem Newest.requestCancel {b a b' : PyStr} {s : Store} (h : Newest b a s) (now : Instant)
    {attemptId : Option PyStr} (hother : ∀ r, s.db.job? a = some r → cancelWhere b' attemptId r = false) :
    Newest b a (Ops.apply s (.requestCancel now b' attemptId)) := by
  obtain ⟨r, hr, hb, hc, hmax⟩ := h
  have hrow : ∀ x, (s.requestCancel now b' attemptId).2.db.job? x = (s.db.job? x).map fun r =>
      if cancelWhere b' attemptId r then requestRow (formatDatetime now) r else r :=
    fun x => Db.job?_updateJobs _ _ _ _ _
  refine ⟨r, ?_, hb, hc, fun r' hr' hb' => ?_⟩
  · show (s.requestCancel now b' attemptId).2.db.job? a = some r
    rw [hrow, hr]
    simp [hother r hr]
  · have hr' := Table.find?_of_mem hr'
    change (s.requestCancel now b' attemptId).2.db.job? r'.attemptId = some r' at hr'
    rw [hrow, Option.map_eq_some_iff] at hr'
    obtain ⟨x, hx, rfl⟩ := hr'
    split_ifs at hb' ⊢
    · exact hmax x (Table.mem_of_find? hx) hb'
    · exact hmax x (Table.mem_of_find? hx) hb'

/-! ### The check -/

variable (cfg : LoopConfig)

/-- An attempt that passes `_ensure_current_attempt` is the newest of its build, without a request. -/
theorem newest_of_ensureCurrentAttempt {l : QueueLease} {s : Store} (h : ensureCurrentAttempt cfg l s = none) :
    Newest l.job.buildJobId l.job.attemptId s := by
  unfold ensureCurrentAttempt at h
  dsimp only at h
  split at h
  · cases h
  · cases h
  · next hcurrent =>
    split at h
    · cases h
    · next job hjob =>
      obtain ⟨r, hr, rfl⟩ := Option.map_eq_some_iff.mp hjob
      split_ifs at h with hstate howner htoken hcancel
      unfold isCurrentAttempt at hcurrent
      rw [hr] at hcurrent
      simp only [Except.ok.injEq, Bool.not_eq_true', List.any_eq_false, Bool.and_eq_true, decide_eq_true_eq,
        not_and, gt_iff_lt, not_lt] at hcurrent
      have hcancelled : (s.record r).cancelRequested = r.cancelRequested := by
        unfold record withTransientPayload
        split <;> rfl
      obtain ⟨hrow, hb⟩ := Option.filter_eq_some_iff.mp hr
      refine ⟨r, hrow, by simpa using hb, ?_, hcurrent⟩
      rw [hcancelled] at hcancel
      simpa using hcancel

/-! ### The phases -/

theorem not_packaging_handleFailure (now : Instant) (w : ℕ) (l l' : QueueLease) (f : Failure) (s : State) :
    (handleFailure now w l f s).workers w ≠ .packaging l' := by
  unfold handleFailure
  rcases f with e | message
  · dsimp only
    rw [State.setWorker_self]
    simp
  · dsimp only
    split_ifs
    · rw [State.setWorker_self]
      simp
    · split <;> rw [State.setWorker_self] <;> simp

theorem not_packaging_unwind (now : Instant) (mtime : ℤ) (w : ℕ) (l l' : QueueLease) (r : Raised) (s : State) :
    (unwind cfg now mtime w l r s).workers w ≠ .packaging l' := by
  unfold unwind
  split <;> exact not_packaging_handleFailure now w l l' _ _

theorem not_packaging_poll {w : ℕ} {s : State} (h : s.workers w = .idle) (acquired started now : Instant)
    (token : PyStr) (l : QueueLease) : (poll cfg w acquired started now token s).workers w ≠ .packaging l := by
  have hidle : s.workers w ≠ .packaging l := by rw [h]; simp
  have hstep := poll_step cfg w acquired started now token s
  generalize poll cfg w acquired started now token s = t at hstep ⊢
  cases hstep with
  | without => exact hidle
  | refused => exact hidle
  | invalid => exact not_packaging_handleFailure now w _ l _ _
  | started =>
    rw [State.setWorker_self]
    simp

section Datetime
variable [PyDatetime]

/-- A worker that packages after a stretch of its code did so before, or has just passed the check. -/
theorem packaging_work {w : ℕ} {l : QueueLease} {s : State} {a : Work}
    (h : (work cfg s w (s.workers w) a).workers w = .packaging l) : s.workers w = .packaging l ∨
      (ensureCurrentAttempt cfg l s.store = none ∧ (work cfg s w (s.workers w) a).store = s.store) := by
  have hunwind : ∀ {now mtime m r} {t : State}, (unwind cfg now mtime w m r t).workers w ≠ .packaging l :=
    fun {now mtime m r t} => not_packaging_unwind cfg now mtime w m l r t
  -- the worker goes on to another phase
  have hset : ∀ {t : State} {q : Phase}, (t.setWorker w q).workers w = .packaging l → q = .packaging l := by
    intro t q hq
    rwa [State.setWorker_self] at hq
  have hstep := work_step cfg s w (s.workers w) a
  generalize hphase : s.workers w = p, work cfg s w (s.workers w) a = t at hstep h ⊢
  cases hstep with
  | other => exact Or.inl (hphase.symm.trans h)
  | progress =>
    rw [workers_publishFor, hphase] at h
    exact Or.inl h
  | progressRaised => exact absurd h hunwind
  | raised => exact absurd h hunwind
  | current hc =>
    cases hset h
    exact Or.inr ⟨hc, rfl⟩
  | stale => exact absurd h hunwind
  | succeeded => cases hset h
  | refused => exact absurd h hunwind
  | timed => cases hset h
  | timedRaised => exact absurd h hunwind
  | acknowledged => cases hset h
  | acknowledgedRaised => exact absurd h hunwind
  | @errorReported m e state x => cases state <;> cases hset h
  | stateReported => cases hset h

/-- A worker that packages after an action did so before, or has just passed the check. -/
theorem packaging_step {w : ℕ} {l : QueueLease} {s : State} {act : Action}
    (h : (step cfg s act).workers w = .packaging l) : s.workers w = .packaging l ∨
      (ensureCurrentAttempt cfg l s.store = none ∧ (step cfg s act).store = s.store) := by
  by_cases hworker : act.worker? = some w
  · cases act with
    | poll v acquired started now token =>
      cases hworker
      simp only [step] at h
      split at h
      · next hidle => exact absurd h (not_packaging_poll cfg hidle acquired started now token l)
      · exact Or.inl h
    | work v a =>
      cases hworker
      exact packaging_work cfg h
    | _ => cases hworker
  · exact Or.inl ((workers_step cfg s act hworker).symm.trans h)

/-! ### Every step -/

/-- **The condition under which the newest attempt succeeds.** While a worker is between the check and the
transition, no new attempt of its build is assigned, and no cancellation marks its attempt. -/
def Undisturbed (s : State) : Action → Prop
  | .assign _ b a _ => s.replies.isEmpty = true → s.draining = false → s.store.db.job? a = none →
      ∀ w l, s.workers w = .packaging l → b ≠ l.job.buildJobId
  | .cancel _ b attemptId _ => s.replies.isEmpty = true → ∀ w l, s.workers w = .packaging l →
      ∀ r, s.store.db.job? l.job.attemptId = some r → cancelWhere b attemptId r = false
  | _ => True

/-- The attempt of every worker between the check and the transition is the newest of its build. -/
def PackagesNewest (s : State) : Prop :=
  ∀ w l, s.workers w = .packaging l → Newest l.job.buildJobId l.job.attemptId s.store

theorem PackagesNewest.step {s : State} (h : PackagesNewest s) (act : Action) (hund : Undisturbed s act) :
    PackagesNewest (JobLoop.step cfg s act) := by
  intro w l hw
  rcases packaging_step cfg hw with hbefore | ⟨hcheck, hstore⟩
  · have hnewest := h w l hbefore
    rcases calls_step cfg s act with hcalls | ⟨now, b, a, payload, rfl, hempty, hdrain, hstore⟩ |
      ⟨now, b, a, explicit, rfl, hempty, hstore⟩
    · exact hnewest.steady (Calls.steady hcalls)
    · rw [hstore]
      exact hnewest.enqueue now payload fun hnone => hund hempty hdrain hnone w l hbefore
    · rw [hstore]
      exact hnewest.requestCancel now fun r hr => hund hempty w l hbefore r hr
  · rw [hstore]
    exact newest_of_ensureCurrentAttempt cfg hcheck

/-- A transition to `SUCCEEDED` that a worker commits is that of the newest attempt of its build, whose
cancellation is not requested. -/
def SucceedsNewest (s : State) : Action → Prop
  | .work w (.succeed stored _ _) => ∀ l job, s.workers w = .packaging l →
      (s.store.transition stored l.job.attemptId (py "SUCCEEDED") none (some (py "RUNNING")) (some l.owner)
        (some l.token)).1 = .ok job →
      Newest l.job.buildJobId l.job.attemptId s.store
  | _ => True

/-- **The newest attempt succeeds.** In every run in which, between the check and the transition of a worker,
no new attempt of its build is assigned and no cancellation marks its attempt, whenever a worker commits
`SUCCEEDED` the attempt is the newest of its build in the store, without a cancellation request. -/
theorem newest_succeeds (acts : List Action) (h : Along (JobLoop.step cfg) Undisturbed State.init acts) :
    Along (JobLoop.step cfg) SucceedsNewest State.init acts := by
  refine Along.of_invariant (I := PackagesNewest) (fun s act hC hI => hI.step cfg act hC) ?_ acts h
    (fun w l hw => by cases hw)
  intro s act hI
  cases act with
  | work w a =>
    cases a with
    | succeed => exact fun l job hw _ => hI w l hw
    | _ => trivial
  | _ => trivial

end Datetime

/-- The sample attempt is leased and passes the check. -/
def checkedActs : List Action := assignActs ++ [.work 0 (.ensureCurrent (seconds 3) 0)]

/-- The first worker commits `SUCCEEDED`. -/
def succeedAct : Action := .work 0 (.succeed (seconds 5) (seconds 5) 0)

theorem undisturbed_checkedActs :
    Along (@JobLoop.step firstDay sampleLoop) Undisturbed State.init (checkedActs ++ [succeedAct]) :=
  ⟨fun _ _ _ w l hw => (by cases hw), trivial, trivial, trivial, trivial, trivial⟩

/-- The lease of a worker between the check and the transition. -/
def packaging? : Phase → Option QueueLease
  | .packaging l => some l
  | _ => none

theorem packaging_of_packaging? {p : Phase} {l : QueueLease} (h : packaging? p = some l) : p = .packaging l := by
  cases p <;> cases h
  rfl

/-- The lease of the first worker, if its transition to `SUCCEEDED` is accepted. -/
def committing (s : State) : Option (PyStr × PyStr) :=
  (packaging? (s.workers 0)).bind fun l =>
    if (s.store.transition (seconds 5) l.job.attemptId (py "SUCCEEDED") none (some (py "RUNNING")) (some l.owner)
      (some l.token)).1.isOk then some (l.job.buildJobId, l.job.attemptId) else none

theorem newest_of_committing {s : State} {b a : PyStr} (hc : committing s = some (b, a))
    (h : SucceedsNewest s succeedAct) : Newest b a s.store := by
  obtain ⟨l, hl, hok⟩ := Option.bind_eq_some_iff.mp hc
  split_ifs at hok with hcommits
  cases hok
  obtain ⟨job, hjob⟩ := Replay.exists_of_isOk hcommits
  exact h l job (packaging_of_packaging? hl) hjob

theorem checkedActs_commit :
    committing (run (@JobLoop.step firstDay sampleLoop) State.init checkedActs) =
      some (sampleBuild, sampleAttempt) := by
  decide +kernel

/-- An undisturbed attempt succeeds as the newest of its build. -/
theorem newest_succeeds_undisturbed :
    committing (run (@JobLoop.step firstDay sampleLoop) State.init checkedActs) =
      some (sampleBuild, sampleAttempt) ∧
    Newest sampleBuild sampleAttempt (run (@JobLoop.step firstDay sampleLoop) State.init checkedActs).store := by
  have halong := @newest_succeeds sampleLoop firstDay (checkedActs ++ [succeedAct]) undisturbed_checkedActs
  exact ⟨checkedActs_commit, newest_of_committing checkedActs_commit (Along.append.mp halong).2.1⟩

/-- After the check, a newer attempt of the build is assigned. -/
def supersededActs : List Action := checkedActs ++ [.assign (seconds 4) sampleBuild Freshness.laterAttempt []]

/-- After the check, the cancellation of the attempt is requested. -/
def lateCancelActs : List Action :=
  checkedActs ++ [.cancel (seconds 4) sampleBuild (some sampleAttempt) (some sampleAttempt)]

theorem disturbed_commit :
    (committing (run (@JobLoop.step firstDay sampleLoop) State.init supersededActs) =
      some (sampleBuild, sampleAttempt) ∧
    ((run (@JobLoop.step firstDay sampleLoop) State.init supersededActs).store.db.job? sampleAttempt).all
      (fun r => (run (@JobLoop.step firstDay sampleLoop) State.init supersededActs).store.db.jobs.rows.any
        fun r' => r'.buildJobId = sampleBuild && r.rowid < r'.rowid) = true) ∧
    committing (run (@JobLoop.step firstDay sampleLoop) State.init lateCancelActs) =
      some (sampleBuild, sampleAttempt) ∧
    ((run (@JobLoop.step firstDay sampleLoop) State.init lateCancelActs).store.db.job? sampleAttempt).all
      (fun r => r.cancelRequested) = true := by
  decide +kernel

/-- A worker commits `SUCCEEDED` for an attempt that a newer one has superseded since the check, and for one
whose cancellation was requested since the check. -/
theorem superseded_succeeds :
    ¬ Along (@JobLoop.step firstDay sampleLoop) SucceedsNewest State.init (supersededActs ++ [succeedAct]) ∧
    ¬ Along (@JobLoop.step firstDay sampleLoop) SucceedsNewest State.init (lateCancelActs ++ [succeedAct]) := by
  obtain ⟨⟨hcommit, hnewer⟩, hcommit', hcancelled⟩ := disturbed_commit
  constructor
  · intro halong
    obtain ⟨r, hr, -, -, hmax⟩ := newest_of_committing hcommit (Along.append.mp halong).2.1
    rw [hr, Option.all_some, List.any_eq_true] at hnewer
    obtain ⟨r', hr', habove⟩ := hnewer
    simp only [Bool.and_eq_true, decide_eq_true_eq] at habove
    have hle := hmax r' hr' habove.1
    omega
  · intro halong
    obtain ⟨r, hr, -, hc, -⟩ := newest_of_committing hcommit' (Along.append.mp halong).2.1
    rw [hr, Option.all_some, hc] at hcancelled
    cases hcancelled

end BuildEngine.Agent.NewestAttempt
