import BuildEngine.Agent.JobLoop

/-! # Exclusive use of a workspace

A workspace is named by its attempt, and its use is fenced by a lease that may change hands while its former
holder is still building. `cleanup_workspace` runs in the `finally` of `execute_job`, whoever holds the
lease by then. If no worker leases an attempt whose former holder is still inside its workspace
(`ReclaimsFree`), at most one worker is inside each workspace, no workspace in use carries the marker
`FAILED`, and a worker never touches a directory another one uses. -/

namespace BuildEngine.Agent.WorkspaceExclusivity

open BuildEngine.Base BuildEngine.Base.Run BuildEngine.Agent.Protocol BuildEngine.Agent.JobLoop
open BuildEngine.Queue.Schema BuildEngine.Queue BuildEngine.Queue.Outbox BuildEngine.Queue.Ops
open BuildEngine.Executor.Workspace

/-- No worker has made, cleaned up or removed a directory that another worker was inside with the
attempt's current lease token. -/
def Exclusive (s : State) : Prop := ∀ t ∈ s.touched, ∀ v, t.users v = true → v = t.worker

/-- At most one worker is inside a workspace, and a workspace in use has no marker. -/
structure InsideInv (s : State) : Prop where
  alone : ∀ v w l m, (s.workers v).inside? = some l → (s.workers w).inside? = some m →
    l.job.attemptId = m.job.attemptId → v = w
  unmarked : ∀ v l, (s.workers v).inside? = some l → Unmarked l.job.attemptId s.disk
  exclusive : Exclusive s

/-- A step that lets no worker in and touches nothing. -/
theorem InsideInv.mono {s t : State} (h : InsideInv s)
    (hin : ∀ v l, (t.workers v).inside? = some l → (s.workers v).inside? = some l)
    (hd : t.disk = s.disk) (ht : t.touched = s.touched) : InsideInv t := by
  refine ⟨fun v w l m hl hm => h.alone v w l m (hin v l hl) (hin w m hm), fun v l hl => ?_, ?_⟩
  · rw [hd]
    exact h.unmarked v l (hin v l hl)
  · unfold Exclusive
    rw [ht]
    exact h.exclusive

/-- A worker uses a workspace only from inside. -/
theorem inside_of_uses {s : State} {v : ℕ} {a : PyStr} (h : s.uses v a = true) :
    ∃ l, (s.workers v).inside? = some l ∧ l.job.attemptId = a := by
  unfold State.uses at h
  rcases hl : (s.workers v).inside? with _ | l
  · rw [hl] at h; cases h
  · rw [hl, Option.any_some, Bool.and_eq_true] at h
    exact ⟨l, rfl, of_decide_eq_true h.1⟩

theorem exclusive_touch {s : State} (h : Exclusive s) {w : ℕ} {dirs : List PyStr} (disk : Disk)
    (hdirs : ∀ a ∈ dirs, ∀ v, s.uses v a = true → v = w) : Exclusive (s.touch w dirs disk) := by
  intro t ht v hv
  rcases List.mem_append.mp ht with ht | ht
  · exact h t ht v hv
  · obtain ⟨a, ha, rfl⟩ := List.mem_map.mp ht
    exact hdirs a ha v hv

/-- A worker cleans up its workspace and leaves it. -/
theorem InsideInv.cleanup {s t : State} (h : InsideInv s) {w : ℕ} {l : QueueLease} {retain : Bool}
    {keep mtime : ℤ} {dirs : List PyStr} {disk : Disk} (hl : (s.workers w).inside? = some l)
    (hc : cleanupWorkspace l.job.attemptId retain keep mtime s.disk = some (dirs, disk))
    (hd : t.disk = disk) (ht : t.touched = (s.touch w dirs disk).touched)
    (hin : ∀ v m, (t.workers v).inside? = some m → v ≠ w ∧ (s.workers v).inside? = some m) :
    InsideInv t := by
  have hother : ∀ v m, v ≠ w → (s.workers v).inside? = some m →
      Unmarked m.job.attemptId disk ∧ m.job.attemptId ∉ dirs := by
    intro v m hvw hm
    exact (h.unmarked v m hm).cleanupWorkspace (fun ha => hvw (h.alone v w m l hm hl ha)) hc
  refine ⟨fun v u m k hm hk => h.alone v u m k (hin v m hm).2 (hin u k hk).2, fun v m hm => ?_, ?_⟩
  · rw [hd]
    exact (hother v m (hin v m hm).1 (hin v m hm).2).1
  · have htouch : Exclusive (s.touch w dirs disk) := by
      refine exclusive_touch h.exclusive disk fun a ha v hv => ?_
      obtain ⟨m, hm, rfl⟩ := inside_of_uses hv
      by_contra hvw
      exact (hother v m hvw hm).2 ha
    unfold Exclusive at htouch ⊢
    rw [ht]
    exact htouch

/-- A worker goes on to a phase in which it is in the same workspace, or outside. -/
theorem InsideInv.move {s : State} (h : InsideInv s) (w : ℕ) {p : Phase}
    (hp : ∀ l, p.inside? = some l → (s.workers w).inside? = some l) : InsideInv (s.setWorker w p) := by
  refine h.mono (fun v l hl => ?_) rfl rfl
  by_cases hv : v = w
  · subst hv
    rw [State.setWorker_self] at hl
    exact hp l hl
  · rwa [State.setWorker_of_ne _ _ hv] at hl

/-- A worker enters a workspace no other worker is inside. -/
theorem InsideInv.enter {s : State} (h : InsideInv s) {w : ℕ} {l : QueueLease}
    (hfree : ∀ v m, (s.workers v).inside? = some m → m.job.attemptId ≠ l.job.attemptId) :
    InsideInv ((s.touch w [l.job.attemptId] (freshWorkspace l.job.attemptId s.disk)).setWorker w
      (.building l)) := by
  have hcases : ∀ v m, (((s.touch w [l.job.attemptId] (freshWorkspace l.job.attemptId s.disk)).setWorker w
      (.building l)).workers v).inside? = some m →
      (v = w ∧ m = l) ∨ (s.workers v).inside? = some m := by
    intro v m hm
    by_cases hv : v = w
    · subst hv
      rw [State.setWorker_self] at hm
      cases hm
      exact Or.inl ⟨rfl, rfl⟩
    · rw [State.setWorker_of_ne _ _ hv] at hm
      exact Or.inr hm
  refine ⟨fun v u m k hm hk ha => ?_, fun v m hm => ?_, ?_⟩
  · rcases hcases v m hm with ⟨hv, hm'⟩ | hm' <;> rcases hcases u k hk with ⟨hu, hk'⟩ | hk'
    · exact hv.trans hu.symm
    · rw [hm'] at ha
      exact absurd ha.symm (hfree u k hk')
    · rw [hk'] at ha
      exact absurd ha (hfree v m hm')
    · exact h.alone v u m k hm' hk' ha
  · rcases hcases v m hm with ⟨rfl, rfl⟩ | hm
    · exact unmarked_freshWorkspace _ _
    · exact (h.unmarked v m hm).freshWorkspace
  · refine exclusive_touch h.exclusive (freshWorkspace l.job.attemptId s.disk) fun a ha v hv => ?_
    obtain ⟨m, hm, rfl⟩ := inside_of_uses hv
    exact absurd (List.mem_singleton.mp ha) (hfree v m hm)

/-! ### The end of an attempt -/

/-- The worker is outside once a failure is handled, and nothing else changes. -/
theorem handleFailure_outside (now : Instant) (w : ℕ) (l : QueueLease) (f : Failure) (s : State) :
    (handleFailure now w l f s).disk = s.disk ∧ (handleFailure now w l f s).touched = s.touched ∧
    ∀ v m, ((handleFailure now w l f s).workers v).inside? = some m →
      v ≠ w ∧ (s.workers v).inside? = some m := by
  have hset : ∀ (t : State) (p : Phase), t.workers = s.workers → p.inside? = none →
      ∀ v m, ((t.setWorker w p).workers v).inside? = some m → v ≠ w ∧ (s.workers v).inside? = some m := by
    intro t p hw hp v m hm
    by_cases hv : v = w
    · subst hv
      rw [State.setWorker_self, hp] at hm; cases hm
    · rw [State.setWorker_of_ne _ _ hv, hw] at hm
      exact ⟨hv, hm⟩
  unfold handleFailure
  cases f with
  | build e => exact ⟨rfl, rfl, hset _ _ rfl rfl⟩
  | crash message =>
    dsimp only
    split_ifs
    · exact ⟨rfl, rfl, hset _ _ rfl rfl⟩
    · split <;> exact ⟨rfl, rfl, hset _ _ rfl rfl⟩

variable (cfg : LoopConfig)

/-- An exception leaves `execute_job`. -/
theorem InsideInv.unwind {s : State} (h : InsideInv s) (now : Instant) (mtime : ℤ) {w : ℕ} {l : QueueLease}
    (hl : (s.workers w).inside? = some l) (r : Raised) :
    InsideInv (JobLoop.unwind cfg now mtime w l r s) := by
  unfold JobLoop.unwind
  split
  · obtain ⟨hd, ht, hin⟩ := handleFailure_outside now w l (.crash (cfg.missingText l.job.attemptId)) s
    exact h.mono (fun v m hm => (hin v m hm).2) hd ht
  · next dirs disk hc =>
    obtain ⟨hd, ht, hin⟩ := handleFailure_outside now w l r.failure (s.touch w dirs disk)
    exact h.cleanup hl hc hd ht hin

/-- `execute_job` returns. -/
theorem InsideInv.finish {s : State} (h : InsideInv s) {w : ℕ} {l : QueueLease}
    (hl : (s.workers w).inside? = some l) : InsideInv (JobLoop.finish cfg w l s) := by
  unfold JobLoop.finish
  split
  · exact h
  · next dirs disk hc =>
    refine h.cleanup hl hc rfl rfl fun v m hm => ?_
    by_cases hv : v = w
    · subst hv
      rw [State.setWorker_self] at hm; cases hm
    · rw [State.setWorker_of_ne _ _ hv] at hm
      exact ⟨hv, hm⟩

/-- **The condition under which workspaces are exclusive.** A worker does not lease an attempt while another
worker is still inside its workspace. -/
def ReclaimsFree (s : State) : Action → Prop
  | .poll w acquired _ _ token => ∀ job,
      (s.store.acquireLease acquired token (owner w) cfg.leaseSeconds).1 = .ok (some job) →
      ∀ v l, (s.workers v).inside? = some l → l.job.attemptId ≠ job.attemptId
  | _ => True

/-- A turn of the loop of `_worker`. -/
theorem InsideInv.poll {s : State} (h : InsideInv s) (w : ℕ) (acquired started now : Instant)
    (token : PyStr) (hfree : ReclaimsFree cfg s (.poll w acquired started now token)) :
    InsideInv (JobLoop.poll cfg w acquired started now token s) := by
  have hsame : ∀ store : Store, InsideInv { s with store := store } :=
    fun store => h.mono (fun _ _ hm => hm) rfl rfl
  have hstep := poll_step cfg w acquired started now token s
  generalize JobLoop.poll cfg w acquired started now token s = t at hstep ⊢
  cases hstep with
  | without => exact hsame _
  | refused => exact hsame _
  | @invalid job _ _ store _ _ =>
    obtain ⟨hd, ht, hin⟩ := handleFailure_outside now w (leaseOf cfg w job)
      (.crash (cfg.invalidText job.attemptId)) { s with store := store }
    exact (hsame store).mono (fun v m hm => (hin v m hm).2) hd ht
  | @started job _ _ store _ ha _ hd =>
    unfold createWorkspace at hd
    split_ifs at hd
    cases hd
    have hfree' : ∀ v l, (s.workers v).inside? = some l → l.job.attemptId ≠ job.attemptId :=
      hfree job (congrArg Prod.fst ha)
    exact (hsame store).enter (l := leaseOf cfg w job) hfree'

section Datetime
variable [PyDatetime]

/-- A publish of a worker leaves the workspaces alone. -/
theorem InsideInv.publishFor {s : State} (h : InsideInv s) (l : QueueLease) (x : PublishInput)
    (type : MessageType) (payload : List (PyStr × Json)) :
    InsideInv (JobLoop.publishFor cfg l x type payload s).2 ∧
      (JobLoop.publishFor cfg l x type payload s).2.workers = s.workers := by
  obtain ⟨hw, -, hd, ht⟩ := publish_frame cfg x type payload l.job.buildJobId l.job.attemptId s
  refine ⟨h.mono (fun v m hm => ?_) hd ht, hw⟩
  unfold JobLoop.publishFor at hm
  rw [hw] at hm
  exact hm

/-- What a worker with a lease does keeps the invariant. -/
theorem InsideInv.work {s : State} (h : InsideInv s) (w : ℕ) (a : Work) :
    InsideInv (JobLoop.work cfg s w (s.workers w) a) := by
  have hstep := work_step cfg s w (s.workers w) a
  generalize hphase : s.workers w = p, JobLoop.work cfg s w (s.workers w) a = t at hstep ⊢
  have hpub := fun l x type payload => h.publishFor cfg l x type payload
  -- a worker that leaves the work was inside the workspace of its lease
  have hinside : ∀ {l : QueueLease}, p = .building l ∨ p = .packaging l → (s.workers w).inside? = some l := by
    rintro l (rfl | rfl) <;> rw [hphase] <;> rfl
  have hunwind : ∀ {l : QueueLease} x type payload now mtime r, p.inside? = some l →
      InsideInv (JobLoop.unwind cfg now mtime w l r (JobLoop.publishFor cfg l x type payload s).2) := by
    intro l x type payload now mtime r hl
    refine (hpub l x type payload).1.unwind cfg now mtime ?_ r
    rw [(hpub l x type payload).2, hphase]
    exact hl
  have hmove : ∀ {l : QueueLease} {x type payload} {q : Phase}, (∀ l', q.inside? = some l' → p.inside? = some l') →
      InsideInv ((JobLoop.publishFor cfg l x type payload s).2.setWorker w q) := by
    intro l x type payload q hq
    refine (hpub l x type payload).1.move w ?_
    rw [(hpub l x type payload).2, hphase]
    exact hq
  cases hstep with
  | other => exact h
  | progress => exact (hpub _ _ _ _).1
  | progressRaised hp => exact hunwind _ _ _ _ _ _ (by rw [← hphase]; exact hinside hp)
  | raised hp => exact h.unwind cfg _ _ (hinside hp) _
  | current => exact h.move w (by rw [hphase]; exact fun _ hl => hl)
  | stale => exact h.unwind cfg _ _ (hinside (Or.inl rfl)) _
  | @succeeded l _ _ _ _ store _ =>
    have hs : InsideInv { s with store := store } := h.mono (fun _ _ hm => hm) rfl rfl
    exact hs.move w fun l' hl' => (congrArg Phase.inside? hphase).trans hl'
  | @refused l _ _ _ _ store _ =>
    have hs : InsideInv { s with store := store } := h.mono (fun _ _ hm => hm) rfl rfl
    exact hs.unwind cfg _ _ (hinside (Or.inr rfl)) _
  | timed => exact hmove fun _ hl => hl
  | timedRaised => exact hunwind _ _ _ _ _ _ rfl
  | acknowledged =>
    refine (hpub _ _ _ _).1.finish cfg ?_
    rw [(hpub _ _ _ _).2, hphase]
    rfl
  | acknowledgedRaised => exact hunwind _ _ _ _ _ _ rfl
  | @errorReported l e state x => exact hmove fun l' hl' => by cases state <;> cases hl'
  | stateReported => exact hmove fun l' hl' => (by cases hl')

/-- The actions of a worker, apart from the refresh of its lease. -/
def ofWorker : Action → Bool
  | .poll _ _ _ _ _ | .work _ _ => true
  | _ => false

/-- The other actions leave the workers and the workspaces alone. -/
theorem step_frame {act : Action} (hact : ofWorker act = false) (s : State) :
    (JobLoop.step cfg s act).workers = s.workers ∧ (JobLoop.step cfg s act).disk = s.disk ∧
      (JobLoop.step cfg s act).touched = s.touched := by
  cases act with
  | poll | work => cases hact
  | refresh w now =>
    simp only [JobLoop.step]
    split <;> exact ⟨rfl, rfl, rfl⟩
  | assign now b a payload =>
    simp only [JobLoop.step, handleAssign]
    split_ifs
    · exact ⟨rfl, rfl, rfl⟩
    · split <;> exact ⟨rfl, rfl, rfl⟩
    · exact ⟨rfl, rfl, rfl⟩
  | cancel now b a explicit =>
    simp only [JobLoop.step]
    split <;> exact ⟨rfl, rfl, rfl⟩
  | reply x =>
    simp only [JobLoop.step]
    split
    · exact ⟨rfl, rfl, rfl⟩
    · next r rest _ =>
      obtain ⟨hw, -, hd, ht⟩ := publish_frame cfg x .attemptStatus r.payload r.buildJobId r.attemptId s
      split <;> next hx => rw [hx] at hw hd ht; exact ⟨hw, hd, ht⟩
  | drain | resume => exact ⟨rfl, rfl, rfl⟩
  | ackEvent a n =>
    simp only [JobLoop.step]
    split_ifs <;> exact ⟨rfl, rfl, rfl⟩

/-- Every action that meets the condition keeps the invariant. -/
theorem InsideInv.step {s : State} (h : InsideInv s) (act : Action) (hfree : ReclaimsFree cfg s act) :
    InsideInv (JobLoop.step cfg s act) := by
  have hother : ofWorker act = false → InsideInv (JobLoop.step cfg s act) := by
    intro hact
    obtain ⟨hw, hd, ht⟩ := step_frame cfg hact s
    exact h.mono (fun v l hl => by rw [← hw]; exact hl) hd ht
  cases act with
  | poll w acquired started now token =>
    simp only [JobLoop.step]
    split
    · exact h.poll cfg w acquired started now token hfree
    · exact h
  | work w a => exact h.work cfg w a
  | _ => exact hother rfl

/-- **Exclusive workspaces.** In every run of the workers in which no worker leases an attempt while another
is still inside its workspace, no worker makes, cleans up or removes a directory while another worker is
inside it with the attempt's current lease token. -/
theorem workspace_exclusive (acts : List Action)
    (hfree : Along (JobLoop.step cfg) (ReclaimsFree cfg) State.init acts) :
    Exclusive (run (JobLoop.step cfg) State.init acts) := by
  have hinit : InsideInv State.init :=
    ⟨fun v w l m hl => (by cases hl), fun v l hl => (by cases hl), by simp [Exclusive, State.init]⟩
  exact (Along.invariant (fun _ act hC hI => hI.step cfg act hC) acts hfree hinit).exclusive

end Datetime

/-! ### A late clean-up -/

/-- The lease of the first worker runs out and the second worker leases the attempt; then the first fails. -/
def lateCleanup : List Action :=
  assignActs ++ [.poll 1 (seconds 200) (seconds 200) (seconds 200) (py "token-1"),
    .work 0 (.raised (.build exitError) (seconds 201) 0)]

theorem lateCleanup_touched :
    ((run (@JobLoop.step firstDay sampleLoop) State.init lateCleanup).touched.map fun t =>
      (t.worker, t.attemptId, t.users 1)) =
    [(0, sampleAttempt, false), (1, sampleAttempt, false), (0, sampleAttempt, true)] := by
  decide +kernel

/-- The first worker removes the directory the second is inside with the current lease token. -/
theorem workspace_shared :
    (∃ t ∈ (run (@JobLoop.step firstDay sampleLoop) State.init lateCleanup).touched,
      t.worker = 0 ∧ t.attemptId = sampleAttempt ∧ t.users 1 = true) ∧
    ¬ Exclusive (run (@JobLoop.step firstDay sampleLoop) State.init lateCleanup) := by
  have hmem : (0, sampleAttempt, true) ∈
      ((run (@JobLoop.step firstDay sampleLoop) State.init lateCleanup).touched.map fun t =>
        (t.worker, t.attemptId, t.users 1)) := by
    rw [lateCleanup_touched]; simp
  obtain ⟨t, ht, hx⟩ := List.mem_map.mp hmem
  simp only [Prod.mk.injEq] at hx
  refine ⟨⟨t, ht, hx⟩, fun hexcl => ?_⟩
  have := hexcl t ht 1 hx.2.2
  omega

/-- The worker fails while it holds its lease. -/
def timelyCleanup : List Action :=
  assignActs ++ [.work 0 (.raised (.build exitError) (seconds 3) 0)]

theorem timelyCleanup_touched :
    ((run (@JobLoop.step firstDay sampleLoop) State.init timelyCleanup).touched.map fun t =>
      (t.worker, t.attemptId, t.users 0)) = [(0, sampleAttempt, false), (0, sampleAttempt, true)] := by
  decide +kernel

/-- It makes and removes its own directory only. -/
theorem workspace_exclusive_timely :
    ((run (@JobLoop.step firstDay sampleLoop) State.init timelyCleanup).touched.map fun t =>
      (t.worker, t.attemptId, t.users 0)) = [(0, sampleAttempt, false), (0, sampleAttempt, true)] ∧
    Exclusive (run (@JobLoop.step firstDay sampleLoop) State.init timelyCleanup) := by
  let _ := firstDay
  refine ⟨timelyCleanup_touched, workspace_exclusive sampleLoop timelyCleanup
    ⟨trivial, trivial, ?_, trivial, trivial⟩⟩
  intro job _ v l hl
  rw [(step_frame sampleLoop rfl _).1, (step_frame sampleLoop rfl _).1] at hl
  cases hl

end BuildEngine.Agent.WorkspaceExclusivity
