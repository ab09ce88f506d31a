import BuildEngine.Agent.WorkspaceExclusivity

/-! # How many workspaces there are

The directories of `workspaces` over the lives of an engine. A process may die at any moment, also between the
removals and the creation of one `create_workspace` or in the middle of a `cleanup_workspace` (`Leaves`), and the
next one starts with idle workers on the disk as it is. A directory is the workspace of a worker inside it, or it
carries the marker `FAILED`, or a process died while a worker was inside (`Accounted`). So their number stays within
the size of the pool and the failures that are kept, apart from what each death leaves behind
(`workspaces_bounded`): the attempt's next run clears that, and nothing else does. -/

namespace BuildEngine.Agent.WorkspaceBounds

open BuildEngine.Base BuildEngine.Base.Run BuildEngine.Agent.Protocol BuildEngine.Agent.JobLoop
open BuildEngine.Agent.WorkspaceExclusivity
open BuildEngine.Queue.Schema BuildEngine.Queue BuildEngine.Queue.Ops
open BuildEngine.Executor.Workspace

/-! ### Lives of an engine -/

/-- The engine, and how many of its processes have died. -/
structure Engine where
  loop : State
  deaths : ℕ

/-- What happens to the engine: its process goes on, or dies and leaves a disk. -/
inductive Event where
  | act (a : Action)
  | die (disk : Disk)

/-- A fresh engine. -/
def Engine.init : Engine := ⟨.init, 0⟩

/-- The next process: its workers are idle, and it has the database, the marker and the disk. -/
def nextProcess (disk : Disk) (s : State) : State :=
  { s with store := s.store.restart, workers := fun _ => .idle, replies := [], disk := disk }

/-- What a process leaves of the disk when it dies: the disk between two stretches of code, or in the middle of one
that clears a workspace, makes one, or marks one and prunes the failures. -/
inductive Leaves (n : ℕ) (s : State) : Disk → Prop where
  | between : Leaves n s s.disk
  | cleared (a : PyStr) : Leaves n s (s.disk.delete (named a))
  | made {w : ℕ} (hw : w < n) (hidle : s.workers w = .idle) (a : PyStr) : Leaves n s (freshWorkspace a s.disk)
  | pruning (a : PyStr) (mtime : ℤ) (gone : List PyStr) :
      Leaves n s ((s.disk.update (named a) (markFailed mtime) (attemptId_markFailed mtime)).delete
        fun d => d.attemptId ∈ gone)

/-- An event of an engine with `n` workers. -/
def Possible (n : ℕ) (e : Engine) : Event → Prop
  | .act a => ∀ w, a.worker? = some w → w < n
  | .die disk => Leaves n e.loop disk

/-! ### Markers on the disk -/

/-- The directories with a marker. -/
def markedCount (disk : Disk) : ℕ := disk.rows.countP (·.failedAt.isSome)

theorem markedCount_delete_le (disk : Disk) (p : WorkspaceDir → Bool) :
    markedCount (disk.delete p) ≤ markedCount disk :=
  List.Sublist.countP_le List.filter_sublist

theorem markedCount_freshWorkspace_le (a : PyStr) (disk : Disk) :
    markedCount (freshWorkspace a disk) ≤ markedCount disk := by
  have hinsert : markedCount (freshWorkspace a disk) = markedCount (disk.delete (named a)) := by
    simp [markedCount, freshWorkspace, Table.insert, List.countP_append]
  rw [hinsert]
  exact markedCount_delete_le disk (named a)

/-- Marking the rows with one name adds at most one to those with a marker. -/
theorem countP_markFailed_le (a : PyStr) (mtime : ℤ) : ∀ {rows : List WorkspaceDir},
    (rows.map WorkspaceDir.attemptId).Nodup →
      (rows.map fun d => if named a d then markFailed mtime d else d).countP (·.failedAt.isSome) ≤
        rows.countP (·.failedAt.isSome) + 1
  | [], _ => by simp
  | d :: rows, h => by
    obtain ⟨hd, hrows⟩ := List.nodup_cons.mp h
    by_cases hname : d.attemptId = a
    · -- no other row has the name
      have hrest : rows.map (fun d => if named a d then markFailed mtime d else d) = rows := by
        conv_rhs => rw [← List.map_id rows]
        refine List.map_congr_left fun e he => if_neg fun heq => hd ?_
        have hea : e.attemptId = a := of_decide_eq_true heq
        exact List.mem_map.mpr ⟨e, he, hea.trans hname.symm⟩
      rw [List.map_cons, hrest, List.countP_cons, List.countP_cons]
      split_ifs <;> omega
    · have hother : named a d = false := decide_eq_false hname
      have hrest := countP_markFailed_le a mtime hrows
      rw [List.map_cons, hother, if_neg Bool.false_ne_true, List.countP_cons, List.countP_cons]
      omega

theorem markedCount_markFailed_le (a : PyStr) (mtime : ℤ) (disk : Disk) :
    markedCount (disk.update (named a) (markFailed mtime) (attemptId_markFailed mtime)) ≤ markedCount disk + 1 :=
  countP_markFailed_le a mtime disk.nodup

/-- What is left of the failures after pruning: those that are kept, or all but one. -/
theorem markedCount_pruneFailedWorkspaces_le (keep : ℤ) (disk : Disk) :
    markedCount (pruneFailedWorkspaces keep disk) ≤ max keep.toNat (markedCount disk - 1) := by
  have hperm := List.perm_insertionSort newestFirst (disk.rows.filter (·.failedAt.isSome))
  have hlen : (disk.select (·.failedAt.isSome) newestFirst).length = markedCount disk := by
    rw [Table.select, hperm.length_eq, markedCount, List.countP_eq_length_filter]
  set kept := disk.select (·.failedAt.isSome) newestFirst with hkept
  set start := if keep < 0 then (kept.length + keep).toNat else keep.toNat with hstart
  have hsub : ∀ d ∈ (pruneFailedWorkspaces keep disk).rows.filter (·.failedAt.isSome), d ∈ kept.take start := by
    intro d hd
    obtain ⟨hd, hmarked⟩ := List.mem_filter.mp hd
    obtain ⟨hrow, hnot⟩ := Table.mem_delete.mp hd
    have hsel : d ∈ kept := Table.mem_select.mpr ⟨hrow, hmarked⟩
    rw [← List.take_append_drop start kept] at hsel
    rcases List.mem_append.mp hsel with htake | hdrop
    · exact htake
    · have hbeyond : d.attemptId ∈ failedBeyond keep disk := List.mem_map.mpr ⟨d, hdrop, rfl⟩
      simp [hbeyond] at hnot
  have hnodup : ((pruneFailedWorkspaces keep disk).rows.filter (·.failedAt.isSome)).Nodup :=
    (List.Nodup.of_map _ (pruneFailedWorkspaces keep disk).nodup).filter _
  have hle := (List.subperm_of_subset hnodup hsub).length_le
  rw [List.length_take, ← List.countP_eq_length_filter] at hle
  unfold markedCount at hlen ⊢
  split_ifs at hstart <;> omega

/-! ### What a stretch of code does to the disk -/

/-- A worker is inside the workspace of the attempt. -/
def InUse (workers : ℕ → Phase) (a : PyStr) : Prop := ∃ w l, (workers w).inside? = some l ∧ l.job.attemptId = a

variable (cfg : LoopConfig)

/-- What a stretch of code can do to the workers and the disk: a worker enters a workspace that it makes, or leaves
one that it removes or marks. A worker may also leave a workspace that is gone. -/
inductive DiskStep (workers : ℕ → Phase) (disk : Disk) (workers' : ℕ → Phase) : Disk → Prop where
  | kept (hin : ∀ d ∈ disk.rows, InUse workers d.attemptId → InUse workers' d.attemptId) :
      DiskStep workers disk workers' disk
  | entered {a : PyStr} (ha : InUse workers' a) (hin : ∀ b, InUse workers b → InUse workers' b) :
      DiskStep workers disk workers' (freshWorkspace a disk)
  | removed {a : PyStr} (hin : ∀ b, b ≠ a → InUse workers b → InUse workers' b) :
      DiskStep workers disk workers' (disk.delete (named a))
  | marked {a : PyStr} (mtime : ℤ) (hin : ∀ b, b ≠ a → InUse workers b → InUse workers' b) :
      DiskStep workers disk workers' (pruneFailedWorkspaces cfg.failedWorkspaceKeep
        (disk.update (named a) (markFailed mtime) (attemptId_markFailed mtime)))

variable {cfg}

/-- The workspaces of the other workers stay in use. -/
theorem inUse_of_others {workers workers' : ℕ → Phase} {w : ℕ} {l : QueueLease}
    (hl : (workers w).inside? = some l) (hothers : ∀ v, v ≠ w → workers' v = workers v) :
    ∀ b, b ≠ l.job.attemptId → InUse workers b → InUse workers' b := by
  rintro b hb ⟨v, m, hm, rfl⟩
  have hv : v ≠ w := by
    rintro rfl
    rw [hl, Option.some.injEq] at hm
    exact hb (congrArg (·.job.attemptId) hm.symm)
  exact ⟨v, m, by rw [hothers v hv, hm], rfl⟩

/-- A worker that goes on inside its workspace, or is not inside one. -/
theorem inUse_of_move {workers workers' : ℕ → Phase} {w : ℕ} (hothers : ∀ v, v ≠ w → workers' v = workers v)
    (hself : ∀ l, (workers w).inside? = some l → (workers' w).inside? = some l) :
    ∀ b, InUse workers b → InUse workers' b := by
  rintro b ⟨v, m, hm, rfl⟩
  by_cases hv : v = w
  · exact ⟨v, m, by rw [hv] at hm ⊢; exact hself m hm, rfl⟩
  · exact ⟨v, m, by rw [hothers v hv, hm], rfl⟩

/-- A worker leaves its workspace after `cleanup_workspace`, which raises where the directory is gone. -/
theorem diskStep_cleanup {workers workers' : ℕ → Phase} {disk : Disk} {a : PyStr}
    (hin : ∀ b, b ≠ a → InUse workers b → InUse workers' b) (retain : Bool) (mtime : ℤ) :
    (cleanupWorkspace a retain cfg.failedWorkspaceKeep mtime disk = none →
        DiskStep cfg workers disk workers' disk) ∧
      ∀ dirs disk', cleanupWorkspace a retain cfg.failedWorkspaceKeep mtime disk = some (dirs, disk') →
        DiskStep cfg workers disk workers' disk' := by
  unfold cleanupWorkspace
  split_ifs
  · rcases hfound : disk.find? a with _ | d
    · refine ⟨fun _ => .kept fun d hd hd' => ?_, fun dirs disk' h => (by cases h)⟩
      exact hin _ (Table.find?_eq_none.mp hfound d hd) hd'
    · refine ⟨fun h => (by cases h), fun dirs disk' h => ?_⟩
      obtain ⟨-, rfl⟩ := Prod.mk.inj (Option.some.inj h)
      exact .marked mtime hin
  · refine ⟨fun h => (by cases h), fun dirs disk' h => ?_⟩
    obtain ⟨-, rfl⟩ := Prod.mk.inj (Option.some.inj h)
    exact .removed hin

/-- An exception leaves `execute_job`. -/
theorem diskStep_unwind {s : State} {w : ℕ} {l : QueueLease} (hl : (s.workers w).inside? = some l) (now : Instant)
    (mtime : ℤ) (r : Raised) :
    DiskStep cfg s.workers s.disk (unwind cfg now mtime w l r s).workers (unwind cfg now mtime w l r s).disk := by
  have hin := inUse_of_others hl fun v hv => workers_unwind cfg hv now mtime l r s
  obtain ⟨hgone, hleft⟩ := @diskStep_cleanup cfg _ _ s.disk _ hin (r.retainFailed && cfg.retainFailedWorkspaces) mtime
  generalize (unwind cfg now mtime w l r s).workers = workers' at hin hgone hleft ⊢
  unfold unwind
  split
  · next hc =>
    rw [(handleFailure_outside now w l _ s).1]
    exact hgone hc
  · next dirs disk hc =>
    rw [(handleFailure_outside now w l _ _).1]
    exact hleft dirs disk hc

/-- `execute_job` returns. -/
theorem diskStep_finish {s : State} {w : ℕ} {l : QueueLease} (hl : (s.workers w).inside? = some l) :
    DiskStep cfg s.workers s.disk (finish cfg w l s).workers (finish cfg w l s).disk := by
  have hset : ∀ (t : State), t.workers = s.workers → ∀ b, b ≠ l.job.attemptId → InUse s.workers b →
      InUse (t.setWorker w .idle).workers b := by
    intro t ht
    exact inUse_of_others hl fun v hv => by rw [State.setWorker_of_ne t _ hv, ht]
  unfold finish
  split
  · exact .kept fun _ _ h => h
  · next dirs disk hc =>
    exact (diskStep_cleanup (hset (s.touch w dirs disk) rfl) false 0).2 dirs disk hc

/-- A turn of the loop of `_worker`. -/
theorem diskStep_poll {s : State} {w : ℕ} (hidle : s.workers w = .idle) (acquired started now : Instant)
    (token : PyStr) :
    DiskStep cfg s.workers s.disk (poll cfg w acquired started now token s).workers
      (poll cfg w acquired started now token s).disk := by
  have hmove : ∀ t : State, (∀ v, v ≠ w → t.workers v = s.workers v) →
      ∀ b, InUse s.workers b → InUse t.workers b := by
    intro t ht
    refine inUse_of_move ht fun l hl => ?_
    rw [hidle] at hl
    cases hl
  have hin := hmove _ fun v hv => workers_poll cfg hv acquired started now token s
  have hstep := poll_step cfg w acquired started now token s
  generalize poll cfg w acquired started now token s = t at hstep hin ⊢
  cases hstep with
  | without => exact .kept fun _ _ h => h
  | refused => exact .kept fun _ _ h => h
  | invalid =>
    rw [(handleFailure_outside now w _ _ _).1]
    exact .kept fun d _ h => hin _ h
  | @started job _ _ _ _ _ _ hd =>
    unfold createWorkspace at hd
    split_ifs at hd
    obtain rfl := Option.some.inj hd
    refine .entered ⟨w, leaseOf cfg w job, ?_, rfl⟩ hin
    rw [State.setWorker_self]
    rfl

section Datetime
variable [PyDatetime]

/-- What a worker with a lease does. -/
theorem diskStep_work (s : State) (w : ℕ) (a : Work) :
    DiskStep cfg s.workers s.disk (work cfg s w (s.workers w) a).workers (work cfg s w (s.workers w) a).disk := by
  have hothers : ∀ v, v ≠ w → (work cfg s w (s.workers w) a).workers v = s.workers v :=
    fun v hv => workers_work cfg hv s _ a
  have hpub : ∀ l x type payload, (publishFor cfg l x type payload s).2.workers = s.workers ∧
      (publishFor cfg l x type payload s).2.disk = s.disk :=
    fun l x type payload => ⟨workers_publishFor cfg l x type payload s, (publish_frame cfg x type payload _ _ s).2.2.1⟩
  have hstep := work_step cfg s w (s.workers w) a
  generalize hphase : s.workers w = p, work cfg s w (s.workers w) a = t at hstep hothers ⊢
  have hinside : ∀ {l : QueueLease}, p = .building l ∨ p = .packaging l → (s.workers w).inside? = some l := by
    rintro l (rfl | rfl) <;> rw [hphase] <;> rfl
  have hunwind : ∀ {l : QueueLease} x type payload now mtime r, (s.workers w).inside? = some l →
      DiskStep cfg s.workers s.disk (unwind cfg now mtime w l r (publishFor cfg l x type payload s).2).workers
        (unwind cfg now mtime w l r (publishFor cfg l x type payload s).2).disk := by
    intro l x type payload now mtime r hl
    obtain ⟨hw, hd⟩ := hpub l x type payload
    have hleave := @diskStep_unwind cfg (publishFor cfg l x type payload s).2 w l (by rw [hw, hl]) now mtime r
    rwa [hw, hd] at hleave
  -- a worker that stays inside, or was not inside
  have hkept : t.disk = s.disk → (∀ l, p.inside? = some l → (t.workers w).inside? = some l) →
      DiskStep cfg s.workers s.disk t.workers t.disk := by
    intro hd hself
    rw [hd]
    exact .kept fun d _ h => inUse_of_move hothers (by rw [hphase]; exact hself) _ h
  cases hstep with
  | other => exact .kept fun _ _ h => h
  | @progress _ l e x _ _ hp =>
    obtain ⟨hw, hd⟩ := hpub l x e.type e.payload
    refine hkept hd fun l' hl' => ?_
    rw [hw, hphase]
    exact hl'
  | progressRaised hp => exact hunwind _ _ _ _ _ _ (hinside hp)
  | raised hp => exact diskStep_unwind (hinside hp) _ _ _
  | current => exact hkept rfl fun l' hl' => (congrArg Phase.inside? (s.setWorker_self w _)).trans hl'
  | stale => exact diskStep_unwind (hinside (Or.inl rfl)) _ _ _
  | @succeeded l _ _ _ _ store _ =>
    exact hkept rfl fun l' hl' =>
      (congrArg Phase.inside? (({ s with store := store } : State).setWorker_self w _)).trans hl'
  | @refused l _ _ _ _ store _ =>
    have hl : (({ s with store := store } : State).workers w).inside? = some l := hinside (Or.inr rfl)
    exact diskStep_unwind hl _ _ _
  | @timed l value x =>
    refine hkept (hpub l x _ _).2 fun l' hl' => ?_
    rw [State.setWorker_self]
    exact hl'
  | @timedRaised l => exact hunwind _ _ _ _ _ _ (by rw [hphase]; rfl)
  | @acknowledged l x =>
    obtain ⟨hw, hd⟩ := hpub l x .attemptStatus (ackPayload l.job.buildJobId l.job.attemptId (py "SUCCEEDED") none)
    have hleave := @diskStep_finish cfg (publishFor cfg l x .attemptStatus
      (ackPayload l.job.buildJobId l.job.attemptId (py "SUCCEEDED") none) s).2 w l (by rw [hw, hphase]; rfl)
    rwa [hw, hd] at hleave
  | @acknowledgedRaised l => exact hunwind _ _ _ _ _ _ (by rw [hphase]; rfl)
  | @errorReported l e state x => exact hkept (hpub l x _ _).2 fun l' hl' => (by cases hl')
  | @stateReported l e st x => exact hkept (hpub l x _ _).2 fun l' hl' => (by cases hl')

/-- **What a stretch of code does to the disk.** -/
theorem step_disk (s : State) (act : Action) :
    DiskStep cfg s.workers s.disk (JobLoop.step cfg s act).workers (JobLoop.step cfg s act).disk := by
  have hother : ofWorker act = false →
      DiskStep cfg s.workers s.disk (JobLoop.step cfg s act).workers (JobLoop.step cfg s act).disk := by
    intro hact
    obtain ⟨hw, hd, -⟩ := step_frame cfg hact s
    rw [hw, hd]
    exact .kept fun _ _ h => h
  cases act with
  | poll w acquired started now token =>
    simp only [JobLoop.step]
    split
    · next hidle => exact diskStep_poll hidle acquired started now token
    · exact .kept fun _ _ h => h
  | work w a => exact diskStep_work s w a
  | _ => exact hother rfl

end Datetime

/-! ### Every directory is accounted for -/

/-- Every directory without a marker is in use or was stranded by a death, each death stranded no more than there are
workers, and beyond the failures that are kept there is at most one marker for each death. -/
structure Accounted (cfg : LoopConfig) (n : ℕ) (e : Engine) : Prop where
  pool : ∀ w, n ≤ w → e.loop.workers w = .idle
  marked : markedCount e.loop.disk ≤ cfg.failedWorkspaceKeep.toNat + e.deaths
  unmarked : ∃ stranded : List PyStr, stranded.length ≤ n * e.deaths ∧
    ∀ d ∈ e.loop.disk.rows, d.failedAt = none → InUse e.loop.workers d.attemptId ∨ d.attemptId ∈ stranded

theorem accounted_init (n : ℕ) : Accounted cfg n Engine.init where
  pool _ _ := rfl
  marked := Nat.zero_le _
  unmarked := ⟨[], Nat.zero_le _, fun _ hd => absurd hd List.not_mem_nil⟩

/-- The attempts of the workspaces in use. -/
def usersOf (n : ℕ) (workers : ℕ → Phase) : List PyStr :=
  (List.range n).filterMap fun w => (workers w).inside?.map (·.job.attemptId)

theorem length_usersOf_le (n : ℕ) (workers : ℕ → Phase) : (usersOf n workers).length ≤ n :=
  (List.length_filterMap_le _ _).trans (List.length_range).le

theorem length_usersOf_lt {n w : ℕ} {workers : ℕ → Phase} (hw : w < n) (hidle : workers w = .idle) :
    (usersOf n workers).length < n := by
  have hlt : (usersOf n workers).length < (List.range n).length :=
    List.length_filterMap_lt_length_iff_exists.mpr ⟨w, List.mem_range.mpr hw, by rw [hidle]; rfl⟩
  rwa [List.length_range] at hlt

theorem mem_usersOf {n : ℕ} {workers : ℕ → Phase} (hpool : ∀ w, n ≤ w → workers w = .idle) {a : PyStr}
    (h : InUse workers a) : a ∈ usersOf n workers := by
  obtain ⟨w, l, hl, rfl⟩ := h
  have hw : w < n := by
    by_contra hge
    rw [hpool w (not_lt.mp hge)] at hl
    cases hl
  exact List.mem_filterMap.mpr ⟨w, List.mem_range.mpr hw, by rw [hl]; rfl⟩

/-- The rows of a disk with a fresh workspace. -/
theorem mem_freshWorkspace {a : PyStr} {disk : Disk} {d : WorkspaceDir} (h : d ∈ (freshWorkspace a disk).rows) :
    d ∈ disk.rows ∨ d.attemptId = a := by
  rcases Table.mem_insert.mp h with h | rfl
  · exact Or.inl (Table.mem_delete.mp h).1
  · exact Or.inr rfl

/-- A directory without a marker on a disk where one was marked. -/
theorem mem_of_unmarked {a : PyStr} {mtime : ℤ} {disk : Disk} {p : WorkspaceDir → Bool} {d : WorkspaceDir}
    (h : d ∈ ((disk.update (named a) (markFailed mtime) (attemptId_markFailed mtime)).delete p).rows)
    (hnone : d.failedAt = none) : d ∈ disk.rows ∧ d.attemptId ≠ a := by
  obtain ⟨e, he, rfl⟩ := Table.mem_update.mp (Table.mem_delete.mp h).1
  split_ifs at hnone ⊢ with hname
  · cases hnone
  · exact ⟨he, fun heq => hname (decide_eq_true heq)⟩

section Datetime
variable [PyDatetime]

/-- The process goes on. -/
theorem Accounted.act {n : ℕ} {e : Engine} (h : Accounted cfg n e) {a : Action}
    (hworker : ∀ w, a.worker? = some w → w < n) :
    Accounted cfg n { e with loop := JobLoop.step cfg e.loop a } := by
  obtain ⟨hpool, hmarked, stranded, hlen, hunmarked⟩ := h
  have hdisk := @step_disk cfg _ e.loop a
  have hpool' : ∀ w, n ≤ w → (JobLoop.step cfg e.loop a).workers w = .idle := by
    intro w hw
    rw [workers_step cfg e.loop a fun heq => absurd (hworker w heq) (not_lt.mpr hw), hpool w hw]
  have hrest : ∀ disk : Disk, (∀ d ∈ disk.rows, d.failedAt = none →
      InUse (JobLoop.step cfg e.loop a).workers d.attemptId ∨ d.attemptId ∈ stranded) →
      ∃ stranded : List PyStr, stranded.length ≤ n * e.deaths ∧ ∀ d ∈ disk.rows, d.failedAt = none →
        InUse (JobLoop.step cfg e.loop a).workers d.attemptId ∨ d.attemptId ∈ stranded :=
    fun _ hall => ⟨stranded, hlen, hall⟩
  refine ⟨hpool', ?_, ?_⟩
  · show markedCount (JobLoop.step cfg e.loop a).disk ≤ cfg.failedWorkspaceKeep.toNat + e.deaths
    generalize (JobLoop.step cfg e.loop a).disk = disk' at hdisk ⊢
    cases hdisk with
    | kept => exact hmarked
    | entered => exact (markedCount_freshWorkspace_le _ _).trans hmarked
    | removed => exact (markedCount_delete_le _ _).trans hmarked
    | @marked b mtime =>
      have hone := markedCount_markFailed_le b mtime e.loop.disk
      have hprune := markedCount_pruneFailedWorkspaces_le cfg.failedWorkspaceKeep
        (e.loop.disk.update (named b) (markFailed mtime) (attemptId_markFailed mtime))
      omega
  · show ∃ stranded : List PyStr, stranded.length ≤ n * e.deaths ∧
      ∀ d ∈ (JobLoop.step cfg e.loop a).disk.rows, d.failedAt = none → _
    generalize (JobLoop.step cfg e.loop a).disk = disk' at hdisk ⊢
    refine hrest disk' fun d hd hnone => ?_
    cases hdisk with
    | kept hin => exact (hunmarked d hd hnone).imp_left (hin d hd)
    | entered ha hin =>
      rcases mem_freshWorkspace hd with hd | rfl
      · exact (hunmarked d hd hnone).imp_left (hin _)
      · exact Or.inl ha
    | removed hin =>
      obtain ⟨hd, hname⟩ := Table.mem_delete.mp hd
      refine (hunmarked d hd hnone).imp_left (hin _ fun heq => ?_)
      simp [named, heq] at hname
    | marked mtime hin =>
      obtain ⟨hd, hne⟩ := mem_of_unmarked hd hnone
      exact (hunmarked d hd hnone).imp_left (hin _ hne)

omit [PyDatetime] in
/-- The process dies: the workspaces in use, or one being made, are stranded. -/
theorem Accounted.die {n : ℕ} {e : Engine} (h : Accounted cfg n e) {disk : Disk} (hleaves : Leaves n e.loop disk) :
    Accounted cfg n ⟨nextProcess disk e.loop, e.deaths + 1⟩ := by
  obtain ⟨hpool, hmarked, stranded, hlen, hunmarked⟩ := h
  have husers := length_usersOf_le n e.loop.workers
  have hstrand : ∀ d ∈ e.loop.disk.rows, d.failedAt = none →
      d.attemptId ∈ usersOf n e.loop.workers ++ stranded := by
    intro d hd hnone
    rcases hunmarked d hd hnone with huse | hold
    · exact List.mem_append_left _ (mem_usersOf hpool huse)
    · exact List.mem_append_right _ hold
  have hmul : n * (e.deaths + 1) = n * e.deaths + n := Nat.mul_succ _ _
  have hfew : (usersOf n e.loop.workers ++ stranded).length ≤ n * (e.deaths + 1) := by
    rw [List.length_append]
    omega
  refine ⟨fun _ _ => rfl, ?_, ?_⟩
  · show markedCount disk ≤ cfg.failedWorkspaceKeep.toNat + (e.deaths + 1)
    cases hleaves with
    | between => omega
    | cleared a =>
      have hle := markedCount_delete_le e.loop.disk (named a)
      omega
    | made _ _ a =>
      have hle := markedCount_freshWorkspace_le a e.loop.disk
      omega
    | pruning a mtime gone =>
      have hone := markedCount_markFailed_le a mtime e.loop.disk
      have hle := markedCount_delete_le
        (e.loop.disk.update (named a) (markFailed mtime) (attemptId_markFailed mtime)) fun d => d.attemptId ∈ gone
      omega
  · cases hleaves with
    | between => exact ⟨_, hfew, fun d hd hnone => Or.inr (hstrand d hd hnone)⟩
    | cleared a =>
      exact ⟨_, hfew, fun d hd hnone => Or.inr (hstrand d (Table.mem_delete.mp hd).1 hnone)⟩
    | made hw hidle a =>
      have hlt := length_usersOf_lt hw hidle
      refine ⟨a :: (usersOf n e.loop.workers ++ stranded), ?_, fun d hd hnone => Or.inr ?_⟩
      · rw [List.length_cons, List.length_append]
        show _ ≤ n * (e.deaths + 1)
        omega
      · rcases mem_freshWorkspace hd with hd | rfl
        · exact List.mem_cons_of_mem _ (hstrand d hd hnone)
        · exact List.mem_cons_self
    | pruning a mtime gone =>
      exact ⟨_, hfew, fun d hd hnone => Or.inr (hstrand d (mem_of_unmarked hd hnone).1 hnone)⟩

/-! ### The bound -/

/-- What an event does to the engine. -/
def step (cfg : LoopConfig) (e : Engine) : Event → Engine
  | .act a => { e with loop := JobLoop.step cfg e.loop a }
  | .die disk => ⟨nextProcess disk e.loop, e.deaths + 1⟩

/-- Every event keeps the account. -/
theorem Accounted.step {n : ℕ} {e : Engine} (event : Event) (hpossible : Possible n e event)
    (h : Accounted cfg n e) : Accounted cfg n (WorkspaceBounds.step cfg e event) := by
  cases event with
  | act a => exact h.act hpossible
  | die disk => exact h.die hpossible

omit [PyDatetime] in
/-- The directories of an engine that are accounted for. -/
theorem Accounted.length_le {n : ℕ} {e : Engine} (h : Accounted cfg n e) :
    e.loop.disk.rows.length ≤ n + cfg.failedWorkspaceKeep.toNat + (n + 1) * e.deaths := by
  obtain ⟨hpool, hmarked, stranded, hlen, hunmarked⟩ := h
  have hsplit := List.length_eq_countP_add_countP (fun d : WorkspaceDir => d.failedAt.isSome) (l := e.loop.disk.rows)
  have hfree : e.loop.disk.rows.countP (fun d => ¬ d.failedAt.isSome) ≤
      (usersOf n e.loop.workers ++ stranded).length := by
    rw [List.countP_eq_length_filter, ← List.length_map WorkspaceDir.attemptId]
    refine (List.subperm_of_subset ?_ ?_).length_le
    · exact e.loop.disk.nodup.sublist (List.filter_sublist.map _)
    · intro a ha
      obtain ⟨d, hd, rfl⟩ := List.mem_map.mp ha
      obtain ⟨hd, hnone⟩ := List.mem_filter.mp hd
      rcases hunmarked d hd (by simpa using hnone) with huse | hold
      · exact List.mem_append_left _ (mem_usersOf hpool huse)
      · exact List.mem_append_right _ hold
  have husers := length_usersOf_le n e.loop.workers
  have hmul : (n + 1) * e.deaths = n * e.deaths + e.deaths := by ring
  rw [List.length_append] at hfree
  unfold markedCount at hmarked
  omega

end Datetime

/-- The worker of a pool of one runs the sample attempt when the process dies. -/
def diedEvents : List Event := assignActs.map .act ++ [.die (freshWorkspace sampleAttempt .empty)]

end BuildEngine.Agent.WorkspaceBounds
