import BuildEngine.Queue.LeaseSelection
import BuildEngine.Queue.StateMachine

/-! # How long an attempt waits

`acquire_lease` leases the oldest attempt it finds, and an attempt it has leased before may come back: after a
crash, up to `MAX_LOCAL_CRASHES` times, or when its lease runs out, as often as that happens. So an attempt that
waits in the queue is passed over by the attempts created before it only, and `turnsLeft` bounds how often by each
of them. The sum over the attempts ahead (`turnsAhead`) is a rank: a call of `acquire_lease` that leases another
attempt lowers it, unless it takes over an expired lease, and nothing raises it. -/

namespace BuildEngine.Queue.WaitingTime

open BuildEngine.Base BuildEngine.Base.Json BuildEngine.Base.Run BuildEngine.Agent.Protocol BuildEngine.Queue.Schema
open BuildEngine.Queue BuildEngine.Queue.Store BuildEngine.Queue.Ops BuildEngine.Queue.StateMachine
open BuildEngine.Queue.LeaseSelection

/-- The row is in the queue and no cancellation of it is requested. -/
def Waits (r : JobRow) : Prop := r.state = .queued ∧ r.cancelRequested = false

/-- The attempt waits to be leased. -/
def Waiting (a : PyStr) (s : Store) : Prop := ∃ r, s.db.job? a = some r ∧ Waits r

/-- The call takes the attempt out of the queue: it leases it, or it names it and moves it or requests its
cancellation. -/
def Takes (a : PyStr) (s : Store) : Op → Prop
  | .acquireLease now token owner timeout =>
    ∃ job, (s.acquireLease now token owner timeout).1 = .ok (some job) ∧ job.attemptId = a
  | .transition _ a' _ _ _ _ _ => a' = a
  | .requestCancel _ b a' => (∃ r, s.db.job? a = some r ∧ r.buildJobId = b) ∧ a'.all (a = ·) = true
  | _ => False

/-- The call enqueues later than the row was created, and puts no leased attempt back in the queue by `transition`. -/
def InOrder (r₀ : JobRow) : Op → Prop
  | .enqueue now _ => r₀.createdAt < formatDatetime now
  | .transition _ _ state _ _ _ _ => state ≠ py "QUEUED"
  | _ => True

/-- A call of `acquire_lease`. -/
def isAcquire : Op → Bool
  | .acquireLease _ _ _ _ => true
  | _ => false

/-- The call of `acquire_lease` leases an attempt whose lease has run out. -/
def takesOver (s : Store) : Op → Bool
  | .acquireLease now token owner timeout =>
    match (s.acquireLease now token owner timeout).1 with
    | .ok (some job) => (s.db.job? job.attemptId).any fun r => r.state.isLeased
    | _ => false
  | _ => false

/-- The row was created before the other one and is not terminal. -/
def ahead (r₀ r : JobRow) : Bool := leaseBefore r r₀ && !r.state.isTerminal

/-- How often the row can be leased before a crash leaves it `FAILED`, with no lease of it running out. -/
def turnsLeft (r : JobRow) : ℕ :=
  if r.state = .queued then max 1 (maxLocalCrashes - r.attempts)
  else if r.state.isLeased = true then maxLocalCrashes - r.attempts
  else 0

/-- The turns of a row that was created before the other one. -/
def turnsBefore (r₀ : JobRow) (x : Option JobRow) : ℕ :=
  x.elim 0 fun r => if leaseBefore r r₀ then turnsLeft r else 0

/-- The turns of the attempts. -/
def turnsAhead (r₀ : JobRow) (ids : Finset PyStr) (s : Store) : ℕ :=
  ∑ i ∈ ids, turnsBefore r₀ (s.db.job? i)

/-- The attempts ahead of the row. -/
def idsAhead (r₀ : JobRow) (s : Store) : Finset PyStr :=
  ((s.db.jobs.rows.filter (ahead r₀)).map (·.attemptId)).toFinset

/-! ### Turns -/

theorem turnsLeft_le (r : JobRow) : turnsLeft r ≤ maxLocalCrashes := by
  unfold turnsLeft maxLocalCrashes
  split_ifs <;> omega

theorem turnsBefore_le (r₀ : JobRow) (x : Option JobRow) : turnsBefore r₀ x ≤ maxLocalCrashes := by
  rcases x with _ | r
  · exact Nat.zero_le _
  · show (if leaseBefore r r₀ then turnsLeft r else 0) ≤ maxLocalCrashes
    have hle := turnsLeft_le r
    split_ifs <;> omega

/-- The rank of an attempt is at most `MAX_LOCAL_CRASHES` for each attempt ahead. -/
theorem turnsAhead_le (r₀ : JobRow) (s : Store) :
    turnsAhead r₀ (idsAhead r₀ s) s ≤ maxLocalCrashes * s.db.jobs.rows.countP (ahead r₀) := by
  have hcard : (idsAhead r₀ s).card ≤ s.db.jobs.rows.countP (ahead r₀) := by
    rw [List.countP_eq_length_filter, ← List.length_map (·.attemptId)]
    exact List.toFinset_card_le _
  calc turnsAhead r₀ (idsAhead r₀ s) s
      ≤ (idsAhead r₀ s).card • maxLocalCrashes :=
        Finset.sum_le_card_nsmul _ _ _ fun i _ => turnsBefore_le r₀ _
    _ = maxLocalCrashes * (idsAhead r₀ s).card := by rw [smul_eq_mul, Nat.mul_comm]
    _ ≤ maxLocalCrashes * s.db.jobs.rows.countP (ahead r₀) := Nat.mul_le_mul_left _ hcard

/-- A row with the same creation time and identifier is before the same rows. -/
theorem leaseBefore_congr {r r' r₀ : JobRow} (hc : r'.createdAt = r.createdAt)
    (ha : r'.attemptId = r.attemptId) : leaseBefore r' r₀ ↔ leaseBefore r r₀ := by
  unfold leaseBefore
  rw [hc, ha]

theorem turnsBefore_mono {r r' r₀ : JobRow} (hc : r'.createdAt = r.createdAt)
    (ha : r'.attemptId = r.attemptId) (h : turnsLeft r' ≤ turnsLeft r) :
    turnsBefore r₀ (some r') ≤ turnsBefore r₀ (some r) := by
  show (if leaseBefore r' r₀ then turnsLeft r' else 0) ≤ if leaseBefore r r₀ then turnsLeft r else 0
  rw [if_congr (leaseBefore_congr hc ha) rfl rfl]
  split_ifs <;> omega

theorem turnsLeft_leaseRow_le {now : Stamp} {r : JobRow} (he : eligible now r = true) (owner token : PyStr)
    (expiresAt now' : Stamp) : turnsLeft (leaseRow owner token expiresAt now' r) ≤ turnsLeft r := by
  have hlease : turnsLeft (leaseRow owner token expiresAt now' r) = maxLocalCrashes - (r.attempts + 1) := rfl
  rw [hlease]
  unfold turnsLeft
  rcases eligible_cases he with hq | ⟨hl, -⟩
  · rw [if_pos hq]
    omega
  · rw [if_neg (fun hq => by rw [hq] at hl; cases hl), if_pos hl]
    omega

/-- A row that waits has one turn less once it is leased. -/
theorem turnsLeft_leaseRow_lt {r : JobRow} (hq : r.state = .queued) (owner token : PyStr)
    (expiresAt now : Stamp) : turnsLeft (leaseRow owner token expiresAt now r) < turnsLeft r := by
  have hlease : turnsLeft (leaseRow owner token expiresAt now r) = maxLocalCrashes - (r.attempts + 1) := rfl
  rw [hlease, turnsLeft, if_pos hq]
  omega

theorem turnsBefore_leaseRow_lt {r r₀ : JobRow} (hq : r.state = .queued) (hb : leaseBefore r r₀)
    (owner token : PyStr) (expiresAt now : Stamp) :
    turnsBefore r₀ (some (leaseRow owner token expiresAt now r)) < turnsBefore r₀ (some r) := by
  have hb' : leaseBefore (leaseRow owner token expiresAt now r) r₀ := hb
  show (if _ then _ else 0) < if _ then _ else 0
  rw [if_pos hb', if_pos hb]
  exact turnsLeft_leaseRow_lt hq owner token expiresAt now

/-! ### One call -/

/-- What the state of a row is after a call that moves it by hand. -/
theorem turnsLeft_transitionRow_le {target : JobState} {r : JobRow} (hlegal : r.state ∈ legalPreviousStates target)
    (htarget : target ≠ .queued) (error : Option PyStr) (now : Stamp) :
    turnsLeft (transitionRow target error now r) ≤ turnsLeft r := by
  unfold turnsLeft transitionRow
  dsimp only
  rw [if_neg htarget]
  cases target with
  | queued => exact absurd rfl htarget
  | leased =>
    rw [List.mem_singleton.mp hlegal]
    simp [JobState.isLeased]
  | running =>
    rw [List.mem_singleton.mp hlegal]
    simp [JobState.isLeased]
  | succeeded | failed | cancelled | timedOut => simp [JobState.isLeased]

theorem turnsLeft_crashRow_le {r : JobRow} (hl : r.state.isLeased = true) (error : PyStr) (now : Stamp) :
    turnsLeft (crashRow (if r.attempts ≥ maxLocalCrashes then .failed else .queued) error now r) ≤ turnsLeft r := by
  have hq : r.state ≠ .queued := fun hq => by rw [hq] at hl; cases hl
  unfold turnsLeft crashRow
  dsimp only
  rw [if_neg hq, if_pos hl]
  by_cases hn : r.attempts ≥ maxLocalCrashes
  · simp [hn, JobState.isLeased]
  · simp only [hn, if_false, if_true]
    omega

/-- A row that is enqueued comes after the one that waits. -/
theorem not_leaseBefore_newRow {r₀ : JobRow} {now : Instant} (h : r₀.createdAt < formatDatetime now) (rowid : ℕ)
    (b a text : PyStr) : ¬ leaseBefore (newRow rowid b a text (formatDatetime now)) r₀ := by
  rintro (hlt | ⟨heq, -⟩)
  · exact lt_asymm h hlt
  · exact absurd heq (ne_of_gt h)

/-- A call adds no turn to the attempts ahead. -/
theorem turnsBefore_step {r₀ : JobRow} {op : Op} {x y : Option JobRow} (h : RowStep op x y) (hop : InOrder r₀ op) :
    turnsBefore r₀ y ≤ turnsBefore r₀ x := by
  cases h with
  | keep => exact le_rfl
  | insert rowid b a text =>
    exact le_of_eq_of_le (if_neg (not_leaseBefore_newRow hop rowid b a text)) (Nat.zero_le _)
  | lease he _ => exact turnsBefore_mono rfl rfl (turnsLeft_leaseRow_le he _ _ _ _)
  | cancel => exact turnsBefore_mono rfl rfl (Nat.zero_le _)
  | refresh => exact turnsBefore_mono rfl rfl le_rfl
  | transition _ hs hc =>
    refine turnsBefore_mono rfl rfl (turnsLeft_transitionRow_le (of_transitionCheck hc).2.2.2 ?_ _ _)
    rintro rfl
    exact hop (JobState.text_of_ofText? hs).symm
  | requestCancel => exact turnsBefore_mono rfl rfl le_rfl
  | crash _ hl _ _ => exact turnsBefore_mono rfl rfl (turnsLeft_crashRow_le hl _ _)
  | delete => exact Nat.zero_le _
  | cursor => exact turnsBefore_mono rfl rfl le_rfl

/-- A row keeps its place in the order, and a terminal row its end. -/
theorem ahead_step {r₀ r' : JobRow} {op : Op} {x : Option JobRow} (h : RowStep op x (some r'))
    (hop : InOrder r₀ op) (ha : ahead r₀ r' = true) : ∃ r, x = some r ∧ ahead r₀ r = true := by
  rw [ahead, Bool.and_eq_true, decide_eq_true_eq] at ha
  obtain ⟨hb, hn⟩ := ha
  rcases x with _ | r
  · cases h with
    | insert => exact absurd hb (not_leaseBefore_newRow hop _ _ _ _)
  · have hplace : r'.createdAt = r.createdAt ∧ r'.attemptId = r.attemptId := by cases h <;> exact ⟨rfl, rfl⟩
    refine ⟨r, rfl, ?_⟩
    rw [ahead, Bool.and_eq_true, decide_eq_true_eq]
    refine ⟨(leaseBefore_congr hplace.1 hplace.2).mp hb, ?_⟩
    by_contra ht
    rw [Bool.not_eq_true', Bool.not_eq_false] at ht
    rcases RowStep.terminal h ht with ⟨r'', hr'', hst⟩ | ⟨now, days, rfl⟩
    · rw [Option.some.inj hr'', hst, ht] at hn
      cases hn
    · cases h
      rw [ht] at hn; cases hn

/-- The attempt still waits, with its place in the order, and the attempts ahead of it are among those named. -/
structure Behind (a : PyStr) (r₀ : JobRow) (ids : Finset PyStr) (s : Store) : Prop where
  waits : ∃ r, s.db.job? a = some r ∧ Waits r ∧ r.createdAt = r₀.createdAt ∧ r.attemptId = r₀.attemptId
  covered : ∀ i r, s.db.job? i = some r → ahead r₀ r = true → i ∈ ids

/-- The call of `acquire_lease` that leases another attempt than the one that waits. -/
structure Passes (a : PyStr) (now : Instant) (token owner : PyStr) (timeout : ℤ) (s : Store) (f : JobRow) : Prop where
  row : s.db.job? f.attemptId = some f
  eligible : eligible (formatDatetime now) f = true
  returns : ∃ job, (s.acquireLease now token owner timeout).1 = .ok (some job) ∧ job.attemptId = f.attemptId
  before : ∀ r ∈ s.db.job? a, leaseBefore f r
  leased : (s.acquireLease now token owner timeout).2.db.job? f.attemptId =
    some (leaseRow owner token (formatDatetime (now + seconds timeout)) (formatDatetime now) f)
  kept : (s.acquireLease now token owner timeout).2.db.job? a = s.db.job? a

/-- While an attempt waits, `acquire_lease` leases it or one before it. -/
theorem acquireLease_passes {a : PyStr} {s : Store} {r : JobRow} (hr : s.db.job? a = some r) (hw : Waits r)
    {now : Instant} {token owner : PyStr} {timeout : ℤ}
    (hnot : ¬ Takes a s (.acquireLease now token owner timeout)) :
    ∃ f, Passes a now token owner timeout s f := by
  obtain ⟨db, found, hloop⟩ := acquireLoop_ends (formatDatetime now) s.db
  obtain ⟨s', hs', hacq⟩ := acquireLease_of_loop token owner timeout (hloop _ (Nat.lt_succ_self _))
  have hmem : r ∈ s.db.jobs.rows := Table.mem_of_find? hr
  have ha : r.attemptId = a := Db.attemptId_of_job? hr
  have helig : Store.eligible (formatDatetime now) r = true := by simp [Store.eligible, hw.1]
  rcases found with _ | f
  · -- the attempt that waits would have been found
    have hc := hacq.none_iff.mp rfl r hmem helig
    rw [hw.2] at hc; cases hc
  · obtain ⟨hf, hfe, -, hleast⟩ := hacq.selected f rfl
    have hret : (s.acquireLease now token owner timeout).1 = .ok (some (leasedRecord now token owner timeout s' f)) := by
      rw [hs']; rfl
    have hid : (leasedRecord now token owner timeout s' f).attemptId = f.attemptId := attemptId_record _ _
    have hne : f.attemptId ≠ a := fun he => hnot ⟨_, hret, hid.trans he⟩
    have hrow : s.db.job? f.attemptId = some f := Table.find?_of_mem hf
    refine ⟨f, hrow, hfe, ⟨_, hret, hid⟩, ?_, ?_, ?_⟩
    · rintro r' hr'
      obtain rfl := Option.some.inj (hr.symm.trans hr')
      exact leaseBefore_of_leaseOrder (hleast r hmem helig hw.2) (by rw [ha]; exact hne)
    · obtain ⟨f', hf', -, -, hleased, -⟩ := acquireLease_returns hret
      rw [hid, hrow] at hf'
      obtain rfl := Option.some.inj hf'
      rwa [hid] at hleased
    · have hkept : r ∈ s'.db.jobs.rows := by
        refine hacq.unchanged hmem (fun he => hne (by rw [Option.some.inj he, ha])) ?_
        simp [swept, hw.2]
      rw [hr, hs', ← ha]
      exact Table.find?_of_mem hkept

theorem turnsAhead_step {r₀ : JobRow} {op : Op} (hop : InOrder r₀ op) (ids : Finset PyStr) (s : Store) :
    turnsAhead r₀ ids (apply s op) ≤ turnsAhead r₀ ids s :=
  Finset.sum_le_sum fun i _ => turnsBefore_step (rowStep s op i) hop

/-- The row of the attempt that waits, after a call that does not take it. -/
theorem waits_step {a : PyStr} {r r₀ : JobRow} {s : Store} {op : Op} (hr : s.db.job? a = some r) (hw : Waits r)
    (hc : r.createdAt = r₀.createdAt) (hid : r.attemptId = r₀.attemptId) (hnot : ¬ Takes a s op) :
    ∃ r', (apply s op).db.job? a = some r' ∧ Waits r' ∧ r'.createdAt = r₀.createdAt ∧
      r'.attemptId = r₀.attemptId := by
  have ha : r.attemptId = a := Db.attemptId_of_job? hr
  have hleased : r.state.isLeased ≠ true := by rw [hw.1]; simp [JobState.isLeased]
  have hstep := rowStep s op a
  rw [hr] at hstep
  generalize hy : (apply s op).db.job? a = y at hstep
  cases hstep with
  | keep => exact ⟨r, rfl, hw, hc, hid⟩
  | lease =>
    obtain ⟨f, hf⟩ := acquireLease_passes hr hw hnot
    have hkept := hf.kept
    rw [hr] at hkept
    exact ⟨r, hy.symm.trans hkept, hw, hc, hid⟩
  | cancel _ hreq => rw [hw.2] at hreq; cases hreq
  | refresh _ hl => exact absurd hl hleased
  | transition ha' => exact absurd (ha'.symm.trans ha) hnot
  | requestCancel hb ha' => exact absurd ⟨⟨r, hr, hb⟩, by rwa [ha] at ha'⟩ hnot
  | crash _ hl => exact absurd hl hleased
  | delete ht => rw [hw.1] at ht; cases ht
  | cursor => exact ⟨_, rfl, hw, hc, hid⟩

theorem takesOver_of_returns {s : Store} {now : Instant} {token owner : PyStr} {timeout : ℤ} {f : JobRow}
    {job : JobRecord} (hjob : (s.acquireLease now token owner timeout).1 = .ok (some job))
    (hid : job.attemptId = f.attemptId) (hf : s.db.job? f.attemptId = some f) :
    takesOver s (.acquireLease now token owner timeout) = f.state.isLeased := by
  simp only [takesOver, hjob, hid, hf, Option.any_some]

/-- The call that passes over the attempt lowers the rank, or takes over an expired lease. -/
theorem Passes.rank {a : PyStr} {s : Store} {now : Instant} {token owner : PyStr} {timeout : ℤ} {f r₀ : JobRow}
    {ids : Finset PyStr} (h : Passes a now token owner timeout s f) (hbefore : leaseBefore f r₀)
    (hcov : ∀ i r, s.db.job? i = some r → ahead r₀ r = true → i ∈ ids) :
    turnsAhead r₀ ids (apply s (.acquireLease now token owner timeout)) + 1 ≤
      turnsAhead r₀ ids s + (takesOver s (.acquireLease now token owner timeout)).toNat := by
  have hop : InOrder r₀ (.acquireLease now token owner timeout) := trivial
  obtain ⟨job, hjob, hjid⟩ := h.returns
  rw [takesOver_of_returns hjob hjid h.row]
  rcases eligible_cases h.eligible with hq | ⟨hl, -⟩
  · have hmem : f.attemptId ∈ ids := by
      refine hcov _ f h.row ?_
      rw [ahead, Bool.and_eq_true, decide_eq_true_eq, hq]
      exact ⟨hbefore, rfl⟩
    have hlt : turnsAhead r₀ ids (apply s (.acquireLease now token owner timeout)) < turnsAhead r₀ ids s := by
      refine Finset.sum_lt_sum (fun i _ => turnsBefore_step (rowStep s _ i) hop) ⟨f.attemptId, hmem, ?_⟩
      show turnsBefore r₀ ((s.acquireLease now token owner timeout).2.db.job? f.attemptId) < _
      rw [h.leased, h.row]
      exact turnsBefore_leaseRow_lt hq hbefore _ _ _ _
    omega
  · have hle := turnsAhead_step hop ids s
    rw [hl, Bool.toNat_true]
    omega

theorem of_isAcquire {op : Op} (h : isAcquire op = true) :
    ∃ now token owner timeout, op = .acquireLease now token owner timeout := by
  cases op <;> first | exact ⟨_, _, _, _, rfl⟩ | cases h

/-- **One call while the attempt waits**: unless it takes the attempt, the attempt goes on waiting, and a call of
`acquire_lease` lowers the rank or takes over an expired lease. -/
theorem behind_step {a : PyStr} {r₀ : JobRow} {ids : Finset PyStr} {s : Store} {op : Op} (hop : InOrder r₀ op)
    (h : Behind a r₀ ids s) (hnot : ¬ Takes a s op) :
    Behind a r₀ ids (apply s op) ∧
      turnsAhead r₀ ids (apply s op) + (isAcquire op).toNat ≤ turnsAhead r₀ ids s + (takesOver s op).toNat := by
  obtain ⟨⟨r, hr, hw, hc, hid⟩, hcov⟩ := h
  refine ⟨⟨waits_step hr hw hc hid hnot, fun i r' hr' ha' => ?_⟩, ?_⟩
  · have hstep := rowStep s op i
    rw [hr'] at hstep
    obtain ⟨r'', hr'', ha''⟩ := ahead_step hstep hop ha'
    exact hcov i r'' hr'' ha''
  · by_cases hacq : isAcquire op = true
    · rw [hacq]
      obtain ⟨now, token, owner, timeout, rfl⟩ := of_isAcquire hacq
      obtain ⟨f, hf⟩ := acquireLease_passes hr hw hnot
      have hbefore : leaseBefore f r := hf.before r hr
      unfold leaseBefore at hbefore
      rw [hc, hid] at hbefore
      exact hf.rank hbefore hcov
    · have hle := turnsAhead_step hop ids s
      rw [Bool.not_eq_true] at hacq
      rw [hacq, Bool.toNat_false]
      omega

/-! ### Whole runs -/

/-- A payload for an older attempt. -/
def olderPayload : List (PyStr × Json) :=
  [(py "build_job_id", .str sampleBuild), (py "attempt_id", .str (py "00000000-0000-4000-8000-00000000000c"))]

/-- Four calls of `acquire_lease`, and the crash of the first attempt they lease. -/
def waitingOps : List Op :=
  [.acquireLease 3000 (py "token-1") (py "worker-1") 120,
    .recordExecutorCrash 4000 (py "00000000-0000-4000-8000-00000000000c") (py "OOM") (some (py "worker-1"))
      (some (py "token-1")),
    .acquireLease 5000 (py "token-2") (py "worker-1") 120, .acquireLease 6000 (py "token-3") (py "worker-2") 120,
    .acquireLease 7000 (py "token-4") (py "worker-3") 120]

end BuildEngine.Queue.WaitingTime
