import BuildEngine.Queue.Cancellation

/-! # Executor crashes and dead letters

`record_executor_crash` has no counter of its own: it reads `attempts`, which `acquire_lease` raises. The
history `crashes` of a run is the list of the states in which the successful calls leave an attempt; its
length never passes the counter, because a row that went back to the queue is leased again before it can
crash again. The dead letter of an attempt is there exactly when the last of them left it `FAILED`. -/

namespace BuildEngine.Queue.CrashAccounting

open BuildEngine.Base BuildEngine.Base.Json BuildEngine.Base.Run BuildEngine.Agent.Protocol
open BuildEngine.Queue.Schema BuildEngine.Queue BuildEngine.Queue.Store BuildEngine.Queue.Outbox
open BuildEngine.Queue.Ops BuildEngine.Queue.StateMachine BuildEngine.Queue.Cancellation

/-- The state in which a successful call of `record_executor_crash` leaves the attempt. -/
def crashed? (a : PyStr) (s : Store) : Op → Option JobState
  | .recordExecutorCrash now a' error owner token =>
    if a' = a then ((s.recordExecutorCrash now a error owner token).1.toOption).map JobRecord.state
    else none
  | _ => none

/-- The states in which the successful crash calls of a run leave the attempt, in order. -/
def crashes (a : PyStr) : Store → List Op → List JobState
  | _, [] => []
  | s, op :: ops => (crashed? a s op).toList ++ crashes a (apply s op) ops

/-- The call does not prune jobs, and it is no lease but that of `acquire_lease`. -/
def Counted (s : Store) (op : Op) : Prop := ¬ IsPrune op ∧ transits .leased s op = false

instance : DecidablePred IsPrune
  | .pruneTerminal _ _ => isTrue trivial
  | .enqueue _ _ | .acquireLease _ _ _ _ | .refreshLease _ _ _ _ _ | .transition _ _ _ _ _ _ _ => isFalse id
  | .requestCancel _ _ _ | .recordExecutorCrash _ _ _ _ _ | .append _ _ _ | .ackThrough _ _ => isFalse id
  | .prune _ _ | .restart => isFalse id

instance (s : Store) (op : Op) : Decidable (Counted s op) := inferInstanceAs (Decidable (_ ∧ _))

/-! ### The dead letters -/

theorem dlq_insertOrIgnoreJob (db : Db) (r : JobRow) : (db.insertOrIgnoreJob r).dlq = db.dlq := by
  unfold Db.insertOrIgnoreJob
  split_ifs <;> rfl

theorem dlq_enqueue (s : Store) (now : Instant) (payload : List (PyStr × Json)) :
    (s.enqueue now payload).2.db.dlq = s.db.dlq := by
  rw [db_enqueue]
  split
  · exact dlq_insertOrIgnoreJob _ _
  · rfl

theorem dlq_acquireLoop {now : Stamp} : ∀ {fuel : ℕ} {db db' : Db} {found : Option JobRow},
    acquireLoop now fuel db = some (db', found) → db'.dlq = db.dlq
  | 0, _, _, _, h => by simp [acquireLoop] at h
  | fuel + 1, db, db', found, h => by
    rw [acquireLoop] at h
    split at h
    · obtain ⟨rfl, -⟩ := Prod.mk.inj (Option.some.inj h)
      rfl
    · split_ifs at h
      · exact (dlq_acquireLoop h).trans rfl
      · obtain ⟨rfl, -⟩ := Prod.mk.inj (Option.some.inj h)
        rfl

theorem dlq_acquireLease (s : Store) (now : Instant) (token owner : PyStr) (timeout : ℤ) :
    (s.acquireLease now token owner timeout).2.db.dlq = s.db.dlq := by
  unfold acquireLease
  dsimp only
  split
  · rfl
  · next h => exact dlq_acquireLoop h
  · next h =>
    have hdlq := dlq_acquireLoop h
    split <;> exact hdlq

theorem dlq_refreshLease (s : Store) (now : Instant) (a owner : PyStr) (timeout : ℤ)
    (token : Option PyStr) : (s.refreshLease now a owner timeout token).2.db.dlq = s.db.dlq := by
  by_cases h : ∃ r, s.db.job? a = some r ∧ refreshWhere a owner token r = true
  · obtain ⟨r, hr, hw⟩ := h
    obtain ⟨s', hs', hdb⟩ := refreshLease_accepts hr hw now timeout
    rw [hs', hdb]
    rfl
  · rw [refreshLease_refuses fun r hr => by simpa using fun hw => h ⟨r, hr, hw⟩]

theorem dlq_transition (s : Store) (now : Instant) (a state : PyStr)
    (error expected owner token : Option PyStr) :
    (s.transition now a state error expected owner token).2.db.dlq = s.db.dlq := by
  by_cases h : ∃ target r, JobState.ofText? state = some target ∧ s.db.job? a = some r ∧
      transitionCheck target expected owner token r = none
  · obtain ⟨target, r, hs, hr, hc⟩ := h
    obtain ⟨s', hs', hdb⟩ := transition_accepts hs hr hc now error
    rw [hs', hdb]
    rfl
  · rw [transition_unchanged fun target r hs hr hc => h ⟨target, r, hs, hr, hc⟩]

theorem dlq_pruneSync (cfg : OutboxConfig) (now : Instant) (db : Db) :
    (pruneSync cfg now db).2.dlq = db.dlq := (pruned_pruneSync cfg now db).dlq

theorem dlq_append (cfg : OutboxConfig) (clock : AppendClock) (e : Envelope) (db : Db) :
    (append cfg clock e db).2.dlq = db.dlq := by
  have hstep := append_step cfg clock e db
  generalize (append cfg clock e db).1 = result, (append cfg clock e db).2 = db₁ at hstep ⊢
  cases hstep with
  | refused => rfl
  | repeated => rfl
  | inserted ha hs hb ht hi =>
    rw [dlq_pruneSync]
    unfold Db.insertEvent at hi
    split_ifs at hi
    rw [← Option.some.inj hi]
    rfl

/-- Only `record_executor_crash` writes a dead letter. -/
theorem dlq_apply {s : Store} {op : Op}
    (h : ∀ now a error owner token, op ≠ .recordExecutorCrash now a error owner token) :
    (apply s op).db.dlq = s.db.dlq := by
  cases op with
  | enqueue now payload => exact dlq_enqueue s now payload
  | acquireLease now token owner timeout => exact dlq_acquireLease s now token owner timeout
  | refreshLease now a owner timeout token => exact dlq_refreshLease s now a owner timeout token
  | transition now a state error expected owner token =>
    exact dlq_transition s now a state error expected owner token
  | requestCancel now b a => rfl
  | recordExecutorCrash now a error owner token => exact absurd rfl (h now a error owner token)
  | pruneTerminal now retention => rfl
  | append cfg clock e => exact dlq_append cfg clock e s.db
  | ackThrough a n =>
    show (ackThrough a n s.db).2.dlq = _
    unfold ackThrough
    split_ifs <;> rfl
  | prune cfg now => exact dlq_pruneSync cfg now s.db
  | restart => rfl

theorem find?_insertOrIgnoreDlq (db : Db) (d : DlqRow) (a : PyStr) :
    (db.insertOrIgnoreDlq d).dlq.find? a =
      if d.attemptId = a ∧ db.dlq.find? a = none then some d else db.dlq.find? a := by
  unfold Db.insertOrIgnoreDlq
  split_ifs with h h' h'
  · rw [Table.find?_insert, if_pos h'.1]
  · rw [Table.find?_insert, if_neg]
    rintro rfl
    exact h' ⟨rfl, h⟩
  · exact absurd (h'.1 ▸ h'.2) h
  · rfl

/-! ### Accounts -/

/-- The crashes of a row so far, and its dead letter, agree with its counter and its state. -/
structure RowAccounted (r : JobRow) (log : List JobState) (letter : Option DlqRow) : Prop where
  counted : log.length ≤ r.attempts
  leased : r.state.isLeased = true → log.length < r.attempts
  open_or_dead : (letter = none ∧ (∀ st ∈ log, st = .queued) ∧ log.length < maxLocalCrashes) ∨
    ∃ d init, letter = some d ∧ d.payloadJson = r.payloadJson ∧ r.state = .failed ∧
      log = init ++ [.failed] ∧ (∀ st ∈ init, st = .queued) ∧ init.length < maxLocalCrashes

/-- The account of an attempt; without a row there are no crashes and no dead letter. -/
def Accounted (a : PyStr) (s : Store) (log : List JobState) : Prop :=
  match s.db.job? a with
  | none => log = [] ∧ s.db.dlq.find? a = none
  | some r => RowAccounted r log (s.db.dlq.find? a)

/-- A row with the same counter, state and payload has the same account. -/
theorem RowAccounted.congr {r r' : JobRow} {log : List JobState} {letter : Option DlqRow}
    (h : RowAccounted r log letter) (ha : r'.attempts = r.attempts) (hs : r'.state = r.state)
    (hp : r'.payloadJson = r.payloadJson) : RowAccounted r' log letter :=
  ⟨ha ▸ h.counted, by rw [ha, hs]; exact h.leased, by rw [hp, hs]; exact h.open_or_dead⟩

/-- A row that is not terminal has no dead letter, and its crashes all sent it back to the queue. -/
theorem RowAccounted.still_open {r : JobRow} {log : List JobState} {letter : Option DlqRow}
    (h : RowAccounted r log letter) (hn : r.state.isTerminal = false) :
    letter = none ∧ (∀ st ∈ log, st = .queued) ∧ log.length < maxLocalCrashes := by
  rcases h.open_or_dead with hopen | ⟨d, init, -, -, hs, -⟩
  · exact hopen
  · rw [hs] at hn
    cases hn

/-- A call that is no crash of the attempt keeps its account. -/
theorem RowAccounted.step {op : Op} {r : JobRow} {y : Option JobRow} {log : List JobState}
    {letter : Option DlqRow} (h : RowAccounted r log letter) (hstep : RowStep op (some r) y)
    (hprune : ¬ IsPrune op)
    (hcrash : ∀ now error owner token, op ≠ .recordExecutorCrash now r.attemptId error owner token)
    (hlease : ∀ now state error expected owner token,
      op = .transition now r.attemptId state error expected owner token →
      transitionCheck .leased expected owner token r = none → JobState.ofText? state ≠ some .leased) :
    ∃ r', y = some r' ∧ RowAccounted r' log letter := by
  cases hstep with
  | keep => exact ⟨r, rfl, h⟩
  | lease he hc =>
    have hopen := h.still_open (isTerminal_of_eligible he)
    exact ⟨_, rfl, Nat.le_succ_of_le h.counted, fun _ => Nat.lt_succ_of_le h.counted, Or.inl hopen⟩
  | cancel he hc =>
    have hopen := h.still_open (isTerminal_of_eligible he)
    exact ⟨_, rfl, h.counted, fun hl => (by cases hl), Or.inl hopen⟩
  | refresh => exact ⟨_, rfl, h.congr rfl rfl rfl⟩
  | @transition now a state error expected owner token _ target ha hs hc =>
    have hlegal := (of_transitionCheck hc).2.2.2
    have hopen := h.still_open (isTerminal_of_edge (edge_of_legalPreviousStates hlegal))
    subst ha
    refine ⟨_, rfl, h.counted, fun hl => ?_, Or.inl hopen⟩
    -- the only way to a leased state is from `LEASED` to `RUNNING`
    have htarget : target = .leased ∨ target = .running := by
      rcases target with _ | _ | _ | _ | _ | _ | _ <;> first | exact Or.inl rfl | exact Or.inr rfl | cases hl
    rcases htarget with rfl | rfl
    · exact absurd hs (hlease now state error expected owner token rfl hc)
    · have hprev : r.state = .leased := by simpa [legalPreviousStates] using hlegal
      exact h.leased (by rw [hprev]; rfl)
  | requestCancel => exact ⟨_, rfl, h.congr rfl rfl rfl⟩
  | @crash now a error owner token _ ha hl ho ht => exact absurd (by rw [ha]) (hcrash now error owner token)
  | delete => exact absurd trivial hprune
  | cursor => exact ⟨_, rfl, h.congr rfl rfl rfl⟩

/-- A crash of a leased row. -/
theorem RowAccounted.crash {r : JobRow} {log : List JobState} (h : RowAccounted r log none)
    (hl : r.state.isLeased = true) (error : PyStr) (now : Stamp) :
    RowAccounted (crashRow (if r.attempts ≥ maxLocalCrashes then .failed else .queued) error now r)
      (log ++ [if r.attempts ≥ maxLocalCrashes then .failed else .queued])
      (if r.attempts ≥ maxLocalCrashes then some (deadLetter error now r) else none) := by
  have hlt := h.leased hl
  obtain ⟨-, hqueued, hlen⟩ := h.still_open (isTerminal_of_isLeased hl)
  have hcounted : (log ++ [if r.attempts ≥ maxLocalCrashes then JobState.failed else .queued]).length ≤
      r.attempts := by
    rw [List.length_append, List.length_singleton]
    omega
  split_ifs at hcounted ⊢ with hmax
  · exact ⟨hcounted, fun hl' => (by cases hl'),
      Or.inr ⟨_, log, rfl, rfl, rfl, rfl, hqueued, hlen⟩⟩
  · refine ⟨hcounted, fun hl' => (by cases hl'), Or.inl ⟨rfl, fun st hst => ?_, ?_⟩⟩
    · rcases List.mem_append.mp hst with hst | hst
      · exact hqueued st hst
      · exact List.mem_singleton.mp hst
    · rw [List.length_append, List.length_singleton]
      omega

/-! ### One call -/

theorem crashed?_of_refused {a a' : PyStr} {s : Store} {now : Instant} {error : PyStr}
    {owner token : Option PyStr} (h : ∀ r, s.db.job? a' = some r → crashWhere a' owner token r = false) :
    crashed? a s (.recordExecutorCrash now a' error owner token) = none := by
  unfold crashed?
  dsimp only
  split_ifs with ha
  · subst ha
    rw [recordExecutorCrash_refuses h]
    rfl
  · rfl

theorem accounted_of_other {a : PyStr} {s : Store} {op : Op} {log : List JobState} (h : Accounted a s log)
    (hop : Counted s op) (hcrash : ∀ now error owner token, op ≠ .recordExecutorCrash now a error owner token)
    (hdlq : (apply s op).db.dlq.find? a = s.db.dlq.find? a) : Accounted a (apply s op) log := by
  have hstep := rowStep s op a
  unfold Accounted at h ⊢
  rw [hdlq]
  rcases hr : s.db.job? a with _ | r
  · rw [hr] at h hstep
    obtain ⟨rfl, hnone⟩ := h
    generalize (apply s op).db.job? a = y at hstep
    cases hstep with
    | keep => exact ⟨rfl, hnone⟩
    | insert => exact ⟨le_rfl, fun hl => (by cases hl), Or.inl ⟨hnone, by simp, by decide⟩⟩
  · rw [hr] at h hstep
    have ha := Db.attemptId_of_job? hr
    obtain ⟨r', hr', haccount⟩ := h.step hstep hop.1 (by rw [ha]; exact hcrash) (by
      rintro now state error expected owner token rfl hc hs
      have htakes : transits .leased s (.transition now r.attemptId state error expected owner token) = true :=
        transits_iff.mpr ⟨hs, r, by rw [ha]; exact hr, hc⟩
      rw [hop.2] at htakes
      cases htakes)
    rw [hr']
    exact haccount

theorem accounted_crash {a : PyStr} {s : Store} {log : List JobState} {r : JobRow}
    {owner token : Option PyStr} (h : Accounted a s log) (hr : s.db.job? a = some r)
    (hw : crashWhere a owner token r = true) (now : Instant) (error : PyStr) :
    Accounted a (apply s (.recordExecutorCrash now a error owner token))
      (log ++ (crashed? a s (.recordExecutorCrash now a error owner token)).toList) := by
  obtain ⟨s', hs', hdb⟩ := recordExecutorCrash_accepts hr hw now error
  obtain ⟨ha, hl, -, -⟩ := crashWhere_iff.mp hw
  have hrow := job?_recordExecutorCrash hr hw now error
  have hcrashed : crashed? a s (.recordExecutorCrash now a error owner token) =
      some (if r.attempts ≥ maxLocalCrashes then .failed else .queued) := by
    simp only [crashed?, if_true, hs', Except.toOption, Option.map_some, state_record]
    rfl
  unfold Accounted at h
  rw [hr] at h
  have hnone : s.db.dlq.find? a = none := (h.still_open (isTerminal_of_isLeased hl)).1
  have hletter : (apply s (.recordExecutorCrash now a error owner token)).db.dlq.find? a =
      if r.attempts ≥ maxLocalCrashes then some (deadLetter error (formatDatetime now) r) else none := by
    show (s.recordExecutorCrash now a error owner token).2.db.dlq.find? a = _
    rw [hs', hdb]
    show (if r.attempts ≥ maxLocalCrashes then s.db.insertOrIgnoreDlq (deadLetter error (formatDatetime now) r)
      else s.db).dlq.find? a = _
    split_ifs with hmax
    · rw [find?_insertOrIgnoreDlq, if_pos ⟨ha, hnone⟩]
    · exact hnone
  rw [hnone] at h
  unfold Accounted
  show match (s.recordExecutorCrash now a error owner token).2.db.job? a with
    | none => _
    | some r => _
  rw [hrow, hcrashed, hletter]
  exact h.crash hl error (formatDatetime now)

/-- A call keeps the account of every attempt. -/
theorem accounted_apply {a : PyStr} {s : Store} {op : Op} {log : List JobState} (h : Accounted a s log)
    (hop : Counted s op) : Accounted a (apply s op) (log ++ (crashed? a s op).toList) := by
  by_cases hcrash : ∃ now a' error owner token, op = .recordExecutorCrash now a' error owner token
  · obtain ⟨now, a', error, owner, token, rfl⟩ := hcrash
    by_cases hw : ∃ r, s.db.job? a' = some r ∧ crashWhere a' owner token r = true
    · obtain ⟨r, hr, hw⟩ := hw
      by_cases ha : a' = a
      · subst ha
        exact accounted_crash h hr hw now error
      · have hnone : crashed? a s (.recordExecutorCrash now a' error owner token) = none := by
          simp [crashed?, ha]
        rw [hnone, Option.toList_none, List.append_nil]
        refine accounted_of_other h hop (by simp [ha]) ?_
        obtain ⟨s', hs', hdb⟩ := recordExecutorCrash_accepts hr hw now error
        show (s.recordExecutorCrash now a' error owner token).2.db.dlq.find? a = _
        rw [hs', hdb]
        show (if r.attempts ≥ maxLocalCrashes then
          s.db.insertOrIgnoreDlq (deadLetter error (formatDatetime now) r) else s.db).dlq.find? a = _
        split_ifs
        · have hne : (deadLetter error (formatDatetime now) r).attemptId ≠ a := by
            rw [← Db.attemptId_of_job? hr] at ha
            exact ha
          rw [find?_insertOrIgnoreDlq, if_neg fun hh => hne hh.1]
        · rfl
    · have hrefuse : ∀ r, s.db.job? a' = some r → crashWhere a' owner token r = false :=
        fun r hr => by simpa using fun hw' => hw ⟨r, hr, hw'⟩
      rw [crashed?_of_refused hrefuse, Option.toList_none, List.append_nil]
      show Accounted a (s.recordExecutorCrash now a' error owner token).2 log
      rw [recordExecutorCrash_refuses hrefuse]
      exact h
  · have hnone : crashed? a s op = none := by
      cases op with
      | recordExecutorCrash now a' error owner token => exact absurd ⟨_, _, _, _, _, rfl⟩ hcrash
      | _ => rfl
    rw [hnone, Option.toList_none, List.append_nil]
    refine accounted_of_other h hop (fun now error owner token hx => hcrash ⟨_, _, _, _, _, hx⟩) ?_
    rw [dlq_apply fun now a' error owner token hx => hcrash ⟨_, _, _, _, _, hx⟩]

/-! ### Whole runs -/

theorem accounted_run (a : PyStr) : ∀ (ops : List Op) {s : Store} {log : List JobState}, Accounted a s log →
    Along apply Counted s ops → Accounted a (run apply s ops) (log ++ crashes a s ops)
  | [], s, log, h, _ => by
    rw [crashes, List.append_nil]
    exact h
  | op :: ops, s, log, h, hops => by
    have hrest := accounted_run a ops (accounted_apply h hops.1) hops.2
    rw [crashes, ← List.append_assoc]
    exact hrest

/-- What an account says of the history. -/
theorem Accounted.bounds {a : PyStr} {s : Store} {log : List JobState} (h : Accounted a s log) :
    log.count .queued ≤ maxLocalCrashes - 1 ∧ log.length ≤ maxLocalCrashes ∧
      ((s.db.dlq.find? a).isSome ↔ log.getLast? = some .failed) ∧
      ∀ d, s.db.dlq.find? a = some d → ∃ r, s.db.job? a = some r ∧ d.payloadJson = r.payloadJson := by
  unfold Accounted at h
  rcases hr : s.db.job? a with _ | r
  · rw [hr] at h
    obtain ⟨rfl, hnone⟩ := h
    simp [hnone]
  · rw [hr] at h
    rcases h.open_or_dead with ⟨hnone, hqueued, hlen⟩ | ⟨d, init, hd, hp, -, rfl, hqueued, hlen⟩
    · have hlast : log.getLast? ≠ some .failed := fun hl => by
        cases hqueued _ (List.mem_of_getLast? hl)
      have hcount : log.count .queued ≤ log.length := List.count_le_length
      refine ⟨by omega, by omega, by simp [hnone, hlast], fun d hd => ?_⟩
      rw [hnone] at hd
      cases hd
    · have hcount : init.count .queued ≤ init.length := List.count_le_length
      refine ⟨?_, ?_, by simp [hd], fun d' hd' => ⟨r, rfl, ?_⟩⟩
      · rw [List.count_append, List.count_singleton]
        simp only [beq_iff_eq, reduceCtorEq, if_false]
        omega
      · rw [List.length_append, List.length_singleton]
        omega
      · rw [hd] at hd'
        rw [← Option.some.inj hd', hp]

/-- A call of `record_executor_crash` that raises changes nothing. -/
theorem recordExecutorCrash_raises {s : Store} {now : Instant} {a error : PyStr}
    {owner token : Option PyStr} {x : QueueError}
    (h : (s.recordExecutorCrash now a error owner token).1 = .error x) :
    (s.recordExecutorCrash now a error owner token).2 = s := by
  by_cases hw : ∃ r, s.db.job? a = some r ∧ crashWhere a owner token r = true
  · obtain ⟨r, hr, hw⟩ := hw
    obtain ⟨s', hs', -⟩ := recordExecutorCrash_accepts hr hw now error
    rw [hs'] at h
    cases h
  · rw [recordExecutorCrash_refuses fun r hr => by simpa using fun hw' => hw ⟨r, hr, hw'⟩]

/-- **Crash accounting.** In a run from an empty store that prunes no jobs and leases only through
`acquire_lease`: an attempt is sent back to the queue by at most `MAX_LOCAL_CRASHES - 1` crashes and crashes
at most `MAX_LOCAL_CRASHES` times; it has a dead letter if and only if its last crash left it `FAILED`, there
is then one, with the payload of its row; and a crash call that raises changes nothing. -/
theorem crash_accounting (a : PyStr) (ops : List Op) (h : Along apply Counted Store.empty ops) :
    (crashes a Store.empty ops).count .queued ≤ maxLocalCrashes - 1 ∧
    (crashes a Store.empty ops).length ≤ maxLocalCrashes ∧
    ((∃ d ∈ (run apply Store.empty ops).db.dlq.rows, d.attemptId = a) ↔
      (crashes a Store.empty ops).getLast? = some .failed) ∧
    (∀ d ∈ (run apply Store.empty ops).db.dlq.rows, d.attemptId = a →
      (∀ d' ∈ (run apply Store.empty ops).db.dlq.rows, d'.attemptId = a → d' = d) ∧
      ∃ r, (run apply Store.empty ops).db.job? a = some r ∧ d.payloadJson = r.payloadJson) ∧
    ∀ now error owner token x,
      ((run apply Store.empty ops).recordExecutorCrash now a error owner token).1 = .error x →
      ((run apply Store.empty ops).recordExecutorCrash now a error owner token).2 =
        run apply Store.empty ops := by
  have hempty : Accounted a Store.empty [] := ⟨rfl, rfl⟩
  have haccount := accounted_run a ops hempty h
  rw [List.nil_append] at haccount
  obtain ⟨hqueued, hlen, hletter, hpayload⟩ := haccount.bounds
  refine ⟨hqueued, hlen, ?_, ?_, fun _ _ _ _ _ => recordExecutorCrash_raises⟩
  · rw [← hletter, Option.isSome_iff_exists]
    constructor
    · rintro ⟨d, hd, rfl⟩
      exact ⟨d, Table.find?_of_mem hd⟩
    · rintro ⟨d, hd⟩
      exact ⟨d, Table.mem_of_find? hd, Table.key_of_find? hd⟩
  · rintro d hd rfl
    exact ⟨fun d' hd' he => Table.eq_of_mem_of_key hd' hd he, hpayload d (Table.find?_of_mem hd)⟩

/-- An attempt whose worker crashes three times. -/
def crashOps : List Op :=
  .enqueue 0 samplePayload :: (List.range 3).flatMap fun n =>
    [.acquireLease (seconds n) (py "token") (py "worker-0") 120,
      .recordExecutorCrash (seconds n) sampleAttempt (py "crash") (some (py "worker-0")) none]

theorem crash_accounting_dead_letter :
    crashes sampleAttempt Store.empty crashOps = [.queued, .queued, .failed] ∧
    ((∃ d ∈ (run apply Store.empty crashOps).db.dlq.rows, d.attemptId = sampleAttempt) ↔
      (crashes sampleAttempt Store.empty crashOps).getLast? = some .failed) :=
  ⟨by decide +kernel, (crash_accounting sampleAttempt crashOps (by decide +kernel)).2.2.1⟩

end BuildEngine.Queue.CrashAccounting
