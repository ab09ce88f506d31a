import BuildEngine.Agent.Commands

/-! # The calls the worker pool makes

Every action of the worker pool reaches its store by calls of the store's operations (`calls_step`): an
assignment enqueues, a cancellation requests one, and everything else is a lease, a refresh, a transition, a
crash, an append or an acknowledgement. So what these calls keep, the actions keep. -/

namespace BuildEngine.Agent.StoreCalls

open BuildEngine.Base BuildEngine.Base.Json BuildEngine.Base.Run BuildEngine.Agent.Protocol
open BuildEngine.Agent.JobLoop BuildEngine.Queue.Schema BuildEngine.Queue
open BuildEngine.Queue.Store BuildEngine.Queue.Outbox BuildEngine.Queue.Ops

/-- The calls of the workers, of publishes and of acknowledgements. -/
def ofWork : Op → Bool
  | .acquireLease _ _ _ _ | .refreshLease _ _ _ _ _ | .transition _ _ _ _ _ _ _
  | .recordExecutorCrash _ _ _ _ _ | .append _ _ _ | .ackThrough _ _ => true
  | _ => false

/-- One store is reached from the other by such calls. -/
abbrev Calls (s t : Store) : Prop := Reaches Ops.apply (fun op => ofWork op = true) s t

theorem calls_of {s t : Store} (op : Op) (ht : Ops.apply s op = t) (h : ofWork op = true) : Calls s t := by
  rw [← ht]
  exact Reaches.one s h

variable (cfg : LoopConfig)

theorem calls_handleFailure (now : Instant) (w : ℕ) (l : QueueLease) (f : Failure) (s : State) :
    Calls s.store (handleFailure now w l f s).store := by
  unfold handleFailure
  rcases f with e | message
  · rcases s.store.getJob l.job.buildJobId l.job.attemptId with _ | job
    · exact Reaches.refl _
    · dsimp only
      split_ifs
      · exact Reaches.refl _
      · exact calls_of (.transition now l.job.attemptId _ _ _ _ _) rfl rfl
  · dsimp only
    split_ifs
    · exact Reaches.refl _
    · split <;> next hx =>
        exact calls_of (.recordExecutorCrash now l.job.attemptId message _ _) (congrArg Prod.snd hx) rfl

theorem calls_unwind (now : Instant) (mtime : ℤ) (w : ℕ) (l : QueueLease) (r : Raised) (s : State) :
    Calls s.store (unwind cfg now mtime w l r s).store := by
  unfold unwind
  split
  · exact calls_handleFailure now w l _ s
  · next dirs disk _ => exact calls_handleFailure now w l _ (s.touch w dirs disk)

theorem calls_poll (w : ℕ) (acquired started now : Instant) (token : PyStr) (s : State) :
    Calls s.store (poll cfg w acquired started now token s).store := by
  have hacquire : ∀ {result store}, s.store.acquireLease acquired token (owner w) cfg.leaseSeconds =
      (result, store) → Calls s.store store := fun ha =>
    calls_of (.acquireLease acquired token (owner w) cfg.leaseSeconds) (congrArg Prod.snd ha) rfl
  have hstep := poll_step cfg w acquired started now token s
  generalize poll cfg w acquired started now token s = t at hstep ⊢
  cases hstep with
  | without ha => exact hacquire ha
  | @refused job _ _ _ ha ht =>
    exact (hacquire ha).trans (calls_of (.transition started job.attemptId (py "RUNNING") none _ _ _)
      (congrArg Prod.snd ht) rfl)
  | @invalid job _ _ store ha ht =>
    have hstart := (hacquire ha).trans (calls_of (.transition started job.attemptId (py "RUNNING") none _ _ _)
      (congrArg Prod.snd ht) rfl)
    exact hstart.trans (calls_handleFailure now w _ _ { s with store := store })
  | @started job _ _ _ _ ha ht =>
    exact (hacquire ha).trans (calls_of (.transition started job.attemptId (py "RUNNING") none _ _ _)
      (congrArg Prod.snd ht) rfl)

section Datetime
variable [PyDatetime]

theorem calls_publish (x : PublishInput) (type : MessageType) (payload : List (PyStr × Json)) (b a : PyStr)
    (s : State) : Calls s.store (publish cfg x type payload b a s).2.store := by
  have hstore : (publish cfg x type payload b a s).2.store =
      (publishAttemptEvent cfg x type payload b a s.store).2 := by
    unfold publish
    split <;> next hx => rw [hx]
  rw [hstore]
  rcases store_publishAttemptEvent cfg x type payload b a s.store with hs | ⟨e, -, hs⟩
  · rw [hs]
    exact Reaches.refl _
  · rw [hs]
    exact calls_of (.append cfg.uplink.outbox x.clock e) rfl rfl

theorem calls_publishFor (l : QueueLease) (x : PublishInput) (type : MessageType)
    (payload : List (PyStr × Json)) (s : State) :
    Calls s.store (publishFor cfg l x type payload s).2.store := calls_publish cfg x type payload _ _ s

theorem calls_work (w : ℕ) (s : State) (p : Phase) (a : Work) : Calls s.store (work cfg s w p a).store := by
  have hpub := fun l x type payload => calls_publishFor cfg l x type payload s
  have hunwind := fun now mtime l r t => calls_unwind cfg now mtime w l r t
  have hsucceed : ∀ {l : QueueLease} {stored result store}, s.store.transition stored l.job.attemptId
      (py "SUCCEEDED") none (some (py "RUNNING")) (some l.owner) (some l.token) = (result, store) →
      Calls s.store store := fun {l stored _ _} ht =>
    calls_of (.transition stored l.job.attemptId (py "SUCCEEDED") none _ _ _) (congrArg Prod.snd ht) rfl
  have hstep := work_step cfg s w p a
  generalize work cfg s w p a = t at hstep ⊢
  cases hstep with
  | other => exact Reaches.refl _
  | progress => exact hpub _ _ _ _
  | progressRaised => exact (hpub _ _ _ _).trans (hunwind _ _ _ _ _)
  | raised => exact hunwind _ _ _ _ _
  | current => exact Reaches.refl _
  | stale => exact hunwind _ _ _ _ _
  | succeeded ht => exact hsucceed ht
  | refused ht => exact (hsucceed ht).trans (hunwind _ _ _ _ { s with store := _ })
  | timed => exact hpub _ _ _ _
  | timedRaised => exact (hpub _ _ _ _).trans (hunwind _ _ _ _ _)
  | acknowledged =>
    unfold finish
    split <;> exact hpub _ _ _ _
  | acknowledgedRaised => exact (hpub _ _ _ _).trans (hunwind _ _ _ _ _)
  | errorReported => exact hpub _ _ _ _
  | stateReported => exact hpub _ _ _ _

/-- **The calls of an action**: those of the work, or one enqueue, or one request of a cancellation. -/
theorem calls_step (s : State) (act : Action) : Calls s.store (step cfg s act).store ∨
    (∃ now b a payload, act = .assign now b a payload ∧ s.replies.isEmpty = true ∧ s.draining = false ∧
      (step cfg s act).store = Ops.apply s.store (.enqueue now (set (set payload (py "build_job_id") (.str b))
        (py "attempt_id") (.str a)))) ∨
    ∃ now b a explicit, act = .cancel now b a explicit ∧ s.replies.isEmpty = true ∧
      (step cfg s act).store = Ops.apply s.store (.requestCancel now b a) := by
  cases act with
  | poll w acquired started now token =>
    left
    simp only [step]
    split
    · exact calls_poll cfg w acquired started now token s
    · exact Reaches.refl _
  | work w a => exact Or.inl (calls_work cfg w s _ a)
  | refresh w now =>
    left
    simp only [step]
    split
    · next l _ => exact calls_of (.refreshLease now l.job.attemptId l.owner _ _) rfl rfl
    · exact Reaches.refl _
  | assign now b a payload =>
    simp only [step]
    split_ifs with he
    · unfold handleAssign
      dsimp only
      split_ifs with hd
      · exact Or.inl (Reaches.refl _)
      · refine Or.inr (Or.inl ⟨now, b, a, payload, rfl, he, by simpa using hd, ?_⟩)
        split
        · next hx => exact (congrArg Prod.snd hx).symm
        · next hx => exact (congrArg Prod.snd hx).symm
    · exact Or.inl (Reaches.refl _)
  | cancel now b a explicit =>
    simp only [step]
    split_ifs with he
    · exact Or.inr (Or.inr ⟨now, b, a, explicit, rfl, he, rfl⟩)
    · exact Or.inl (Reaches.refl _)
  | reply x =>
    left
    simp only [step]
    split
    · exact Reaches.refl _
    · next r rest _ =>
      have hpub := calls_publish cfg x .attemptStatus r.payload r.buildJobId r.attemptId s
      split <;> next hx => rw [hx] at hpub; exact hpub
  | drain => exact Or.inl (Reaches.refl _)
  | resume => exact Or.inl (Reaches.refl _)
  | ackEvent a n =>
    left
    simp only [step]
    split_ifs
    · exact calls_of (.ackThrough a n) rfl rfl
    · exact Reaches.refl _

end Datetime

end BuildEngine.Agent.StoreCalls
