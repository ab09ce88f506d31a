import BuildEngine.Agent.Publishing
import BuildEngine.Queue.Freshness
import BuildEngine.Queue.Replay

/-! # The scope of a cancellation

A `job.cancel` frame names an attempt in its own `attempt_id` or in that of its payload. The handler that
marks the rows reads the payload only, so a frame that names the attempt in its own field is taken for
a cancellation of the whole build. `Touched` are the attempts whose rows a frame can change, `Scoped` says in
terms of the frame and the rows that there is none but the attempt it names (`cancel_scope_iff`). -/

namespace BuildEngine.Agent.CancelScope

open BuildEngine.Base BuildEngine.Base.Json BuildEngine.Base.Run BuildEngine.Agent.Protocol
open BuildEngine.Agent.JobLoop hiding handleAssign handleCancel
open BuildEngine.Agent.Commands BuildEngine.Agent.Publishing BuildEngine.Queue.Schema BuildEngine.Queue
open BuildEngine.Queue.Store BuildEngine.Queue.Outbox BuildEngine.Queue.Events

/-- The frame names the attempt. -/
def Names (e : Envelope) (a : PyStr) : Prop :=
  e.attemptId = some a ∨ get? e.payload (py "attempt_id") = some (.str a)

/-- No row is changed but that of the attempt `a`, a row of the build `b`. -/
def ChangesOnly (b a : PyStr) (db db' : Db) : Prop :=
  ∀ x, db'.job? x ≠ db.job? x → x = a ∧ ∃ r, db.job? x = some r ∧ r.buildJobId = b

/-! ### The marks -/

theorem job?_requestCancel (now : Instant) (b : PyStr) (attemptId : Option PyStr) (s : Store) (x : PyStr) :
    (s.requestCancel now b attemptId).2.db.job? x =
      (s.db.job? x).map fun r => if cancelWhere b attemptId r then requestRow (formatDatetime now) r else r :=
  Db.job?_updateJobs _ _ _ _ _

/-- A call that marks no row changes nothing. -/
theorem requestCancel_unchanged {b : PyStr} {attemptId : Option PyStr} {s : Store}
    (h : ∀ r ∈ s.db.jobs.rows, cancelWhere b attemptId r = false) (now : Instant) :
    (s.requestCancel now b attemptId).2 = s := by
  have hjobs : s.db.jobs.update (cancelWhere b attemptId) (requestRow (formatDatetime now))
      (attemptId_requestRow _) = s.db.jobs := Table.update_of_none h
  have hdb : (s.requestCancel now b attemptId).2.db = s.db := Db.ext hjobs rfl rfl
  show { s with db := (s.requestCancel now b attemptId).2.db } = s
  rw [hdb]

/-- If the handler answers for an attempt that it does not mark, it marks no row and answers for no other
attempt. -/
theorem answered_unmarked {b : PyStr} {attemptId explicit : Option PyStr} {s : Store}
    {x : PyStr} (hmem : x ∈ if (s.requestCancel 0 b attemptId).1 = [] then explicit.toList
      else (s.requestCancel 0 b attemptId).1)
    (hno : ¬ ∃ r, s.db.job? x = some r ∧ cancelWhere b attemptId r = true) :
    (if (s.requestCancel 0 b attemptId).1 = [] then explicit.toList
      else (s.requestCancel 0 b attemptId).1) = [x] ∧
    ∀ r ∈ s.db.jobs.rows, cancelWhere b attemptId r = false := by
  rcases attemptId with _ | a
  · have haffected : (s.requestCancel 0 b none).1 =
        (s.db.jobs.rows.filter (cancelWhere b none)).map JobRow.attemptId := rfl
    rw [haffected] at hmem ⊢
    split_ifs at hmem ⊢ with hempty
    · refine ⟨?_, fun r hr => ?_⟩
      · rw [Option.mem_toList] at hmem
        rw [hmem]
        rfl
      · rw [List.map_eq_nil_iff, List.filter_eq_nil_iff] at hempty
        simpa using hempty r hr
    · obtain ⟨r, hr, rfl⟩ := List.mem_map.mp hmem
      obtain ⟨hrow, hwhere⟩ := List.mem_filter.mp hr
      exact absurd ⟨r, Table.find?_of_mem hrow, hwhere⟩ hno
  · have haffected : (s.requestCancel 0 b (some a)).1 = [a] := rfl
    rw [haffected, if_neg (by simp)] at hmem ⊢
    obtain rfl := List.mem_singleton.mp hmem
    refine ⟨rfl, fun r hr => ?_⟩
    by_contra hwhere
    have hwhere : cancelWhere b (some x) r = true := by simpa using hwhere
    have hid : r.attemptId = x := by
      simp only [cancelWhere, Option.all_some, Bool.and_eq_true, decide_eq_true_eq] at hwhere
      exact hwhere.1.2
    exact hno ⟨r, hid ▸ Table.find?_of_mem hr, hwhere⟩

/-! ### The attempts a frame can change -/

/-- An answer for the attempt can be published: it moves the cursor of the attempt's row. -/
def Answerable (s : Store) (b x : PyStr) : Prop :=
  isUuid b = true ∧ isUuid x = true ∧ ∃ r, s.db.job? x = some r ∧ r.sequenceCursor + 1 < maxSqliteInt

/-- The attempts the handler answers for. -/
def answered (e : Envelope) (b : PyStr) (attemptId : Option PyStr) (s : Store) : List PyStr :=
  let affected := (s.requestCancel 0 b attemptId).1
  if affected = [] then ((explicitAttempt e).toOption.getD none).toList else affected

/-- The attempts whose rows the frame can change: those that are marked, and those that are answered for. -/
def Touched (e : Envelope) (b : PyStr) (attemptId : Option PyStr) (s : Store) (x : PyStr) : Prop :=
  (∃ r, s.db.job? x = some r ∧ cancelWhere b attemptId r = true) ∨
    ((∃ explicit, explicitAttempt e = .ok explicit) ∧ x ∈ answered e b attemptId s ∧ Answerable s b x)

/-- The frame keeps to the attempt `a` of the build `b`. If its payload names an attempt, that is `a` of `b`,
or its row is out of reach. If the payload names none, no other attempt of `b` is unfinished; and if none is
unfinished at all, the attempt the frame itself names is `a` of `b`, or its row is out of reach. -/
def Scoped (e : Envelope) (b a : PyStr) (s : Store) : Prop :=
  match cancelAttempt e.payload with
  | .error _ => True
  | .ok (some x) => ∀ r, s.db.job? x = some r →
      (r.buildJobId = b ∧ r.state.isTerminal = false) ∨ Answerable s b x → x = a ∧ r.buildJobId = b
  | .ok none =>
    (∀ r ∈ s.db.jobs.rows, r.buildJobId = b → r.state.isTerminal = false → r.attemptId = a) ∧
    ((∀ r ∈ s.db.jobs.rows, r.buildJobId = b → r.state.isTerminal = true) →
      ∀ x r, e.attemptId = some x → s.db.job? x = some r → Answerable s b x → x = a ∧ r.buildJobId = b)

theorem cancelWhere_none {b : PyStr} {r : JobRow} :
    cancelWhere b none r = true ↔ r.buildJobId = b ∧ r.state.isTerminal = false := by
  simp [cancelWhere]

theorem cancelWhere_some {b x : PyStr} {r : JobRow} :
    cancelWhere b (some x) r = true ↔ (r.buildJobId = b ∧ r.attemptId = x) ∧ r.state.isTerminal = false := by
  simp [cancelWhere]

theorem answered_some (e : Envelope) (b x : PyStr) (s : Store) : answered e b (some x) s = [x] := rfl

/-- The attempt in the payload as `_handle_cancel` reads it: an empty text is refused. -/
theorem optionalStr_of_cancelAttempt {payload : List (PyStr × Json)} {attemptId : Option PyStr}
    (h : cancelAttempt payload = .ok attemptId) (hne : attemptId ≠ some []) :
    optionalStr payload (py "attempt_id") = .ok attemptId := by
  unfold cancelAttempt at h
  unfold optionalStr
  split at h
  · exact h
  · exact h
  · next x _ =>
    cases h
    rw [if_neg (by simpa using hne)]
  · cases h

/-- The attempt `_handle_cancel` reads, in a decoded frame: that of the frame goes first. -/
theorem explicitAttempt_of_optionalStr {e : Envelope} {attemptId : Option PyStr}
    (hid : e.attemptId.all isUuid = true) (h : optionalStr e.payload (py "attempt_id") = .ok attemptId) :
    explicitAttempt e = .ok (e.attemptId.or attemptId) := by
  unfold explicitAttempt
  rcases hx : e.attemptId with _ | y
  · exact h
  · rw [hx] at hid
    dsimp only
    rw [if_neg]
    · rfl
    · rintro rfl
      exact absurd hid (by decide)

/-- Without an attempt in the payload, the attempt the frame names is answered for if none is marked. -/
theorem answered_none {e : Envelope} {b : PyStr} {s : Store} (hid : e.attemptId.all isUuid = true)
    (hpayload : cancelAttempt e.payload = .ok none) (x : PyStr) :
    ((∃ explicit, explicitAttempt e = .ok explicit) ∧ x ∈ answered e b none s) ↔
      (∃ r ∈ s.db.jobs.rows, cancelWhere b none r = true ∧ r.attemptId = x) ∨
      ((∀ r ∈ s.db.jobs.rows, cancelWhere b none r = false) ∧ e.attemptId = some x) := by
  have hexplicit : explicitAttempt e = .ok e.attemptId := by
    rw [explicitAttempt_of_optionalStr hid (optionalStr_of_cancelAttempt hpayload (by simp)), Option.or_none]
  have haffected : (s.requestCancel 0 b none).1 =
      (s.db.jobs.rows.filter (cancelWhere b none)).map JobRow.attemptId := rfl
  unfold answered
  rw [hexplicit, haffected]
  dsimp only [Except.toOption, Option.getD]
  by_cases hnone : ∀ r ∈ s.db.jobs.rows, cancelWhere b none r = false
  · have hempty : (s.db.jobs.rows.filter (cancelWhere b none)).map JobRow.attemptId = [] := by
      rw [List.map_eq_nil_iff, List.filter_eq_nil_iff]
      intro r hr
      rw [hnone r hr]
      simp
    rw [if_pos hempty, Option.mem_toList]
    constructor
    · rintro ⟨-, hx⟩
      exact Or.inr ⟨hnone, hx⟩
    · rintro (⟨r, hr, hw, -⟩ | ⟨-, hx⟩)
      · rw [hnone r hr] at hw; cases hw
      · exact ⟨⟨_, rfl⟩, hx⟩
  · have hne : (s.db.jobs.rows.filter (cancelWhere b none)).map JobRow.attemptId ≠ [] := by
      intro hempty
      rw [List.map_eq_nil_iff, List.filter_eq_nil_iff] at hempty
      exact hnone fun r hr => by simpa using hempty r hr
    rw [if_neg hne]
    simp only [List.mem_map, List.mem_filter, and_assoc]
    constructor
    · rintro ⟨-, r, hr, hw, hx⟩
      exact Or.inl ⟨r, hr, hw, hx⟩
    · rintro (h | ⟨h, -⟩)
      · exact ⟨⟨_, rfl⟩, h⟩
      · exact absurd h hnone

/-- The condition on the frame and the rows says that every row the frame can change is that of `a`. -/
theorem scoped_iff {e : Envelope} (hid : e.attemptId.all isUuid = true) (b a : PyStr) (s : Store) :
    Scoped e b a s ↔ ∀ attemptId, cancelAttempt e.payload = .ok attemptId → ∀ x, Touched e b attemptId s x →
      x = a ∧ ∃ r, s.db.job? x = some r ∧ r.buildJobId = b := by
  unfold Scoped
  rcases hpayload : cancelAttempt e.payload with err | _ | x
  · simp
  · simp only [Except.ok.injEq, forall_eq']
    constructor
    · rintro ⟨hactive, hidle⟩ x (⟨r, hr, hw⟩ | ⟨hexp, hmem, hanswer⟩)
      · obtain ⟨hb, ht⟩ := cancelWhere_none.mp hw
        have hx := hactive r (Table.mem_of_find? hr) hb ht
        rw [Db.attemptId_of_job? hr] at hx
        exact ⟨hx, r, hr, hb⟩
      · rcases (answered_none hid hpayload x).mp ⟨hexp, hmem⟩ with ⟨r, hr, hw, rfl⟩ | ⟨hnone, hx⟩
        · obtain ⟨hb, ht⟩ := cancelWhere_none.mp hw
          exact ⟨hactive r hr hb ht, r, Table.find?_of_mem hr, hb⟩
        · obtain ⟨r, hr, -⟩ := hanswer.2.2
          have hfinished : ∀ r ∈ s.db.jobs.rows, r.buildJobId = b → r.state.isTerminal = true := by
            intro r hr hb
            by_contra ht
            have hw := hnone r hr
            rw [cancelWhere_none.mpr ⟨hb, by simpa using ht⟩] at hw
            cases hw
          obtain ⟨hxa, hb⟩ := hidle hfinished x r hx hr hanswer
          exact ⟨hxa, r, hr, hb⟩
    · intro htouched
      constructor
      · intro r hr hb ht
        exact (htouched r.attemptId (Or.inl ⟨r, Table.find?_of_mem hr, cancelWhere_none.mpr ⟨hb, ht⟩⟩)).1
      · intro hfinished x r hx hr hanswer
        have hnone : ∀ r ∈ s.db.jobs.rows, cancelWhere b none r = false := by
          intro r hr
          rw [Bool.eq_false_iff]
          intro hw
          obtain ⟨hb, ht⟩ := cancelWhere_none.mp hw
          rw [hfinished r hr hb] at ht
          cases ht
        obtain ⟨hexp, hmem⟩ := (answered_none (b := b) (s := s) hid hpayload x).mpr (Or.inr ⟨hnone, hx⟩)
        obtain ⟨hxa, r', hr', hb⟩ := htouched x (Or.inr ⟨hexp, hmem, hanswer⟩)
        rw [Option.some.inj (hr.symm.trans hr')]
        exact ⟨hxa, hb⟩
  · simp only [Except.ok.injEq, forall_eq']
    constructor
    · rintro hscoped y (⟨r, hr, hw⟩ | ⟨-, hmem, hanswer⟩)
      · obtain ⟨⟨hb, hx⟩, ht⟩ := cancelWhere_some.mp hw
        obtain rfl : x = y := hx.symm.trans (Db.attemptId_of_job? hr)
        exact ⟨(hscoped r hr (Or.inl ⟨hb, ht⟩)).1, r, hr, hb⟩
      · rw [answered_some, List.mem_singleton] at hmem
        subst hmem
        obtain ⟨r, hr, -⟩ := hanswer.2.2
        obtain ⟨hya, hb⟩ := hscoped r hr (Or.inr hanswer)
        exact ⟨hya, r, hr, hb⟩
    · intro htouched r hr hreach
      have hx : Touched e b (some x) s x := by
        rcases hreach with ⟨hb, ht⟩ | hanswer
        · exact Or.inl ⟨r, hr, cancelWhere_some.mpr ⟨⟨hb, Db.attemptId_of_job? hr⟩, ht⟩⟩
        · have hne : some x ≠ some [] := by
            intro hx
            have huuid := hanswer.2.1
            rw [Option.some.inj hx] at huuid
            exact absurd huuid (by decide)
          have hexplicit := explicitAttempt_of_optionalStr hid (optionalStr_of_cancelAttempt hpayload hne)
          exact Or.inr ⟨⟨_, hexplicit⟩, by rw [answered_some, List.mem_singleton], hanswer⟩
      obtain ⟨hxa, r', hr', hb⟩ := htouched x hx
      rw [Option.some.inj (hr.symm.trans hr')]
      exact ⟨hxa, hb⟩

section Datetime
variable [PyDatetime] (cfg : LoopConfig)

/-! ### The answers -/

theorem store_publishStatus (i : PublishInput) (payload : List (PyStr × Json)) (b a : PyStr) (s : Engine) :
    (publishStatus cfg i payload b a s).2.store =
      (publishAttemptEvent cfg i .attemptStatus payload b a s.store).2 := by
  unfold publishStatus
  split <;> next hcall => rw [hcall]

/-- The answers leave the rows of other attempts alone. -/
theorem job?_answerCancel_of_not_mem (x : FrameInput) (b : PyStr) : ∀ {as : List PyStr} {i : ℕ} {s : Engine}
    {a : PyStr}, a ∉ as → (answerCancel cfg x b i as s).2.store.db.job? a = s.store.db.job? a
  | [], _, _, _, _ => rfl
  | y :: as, i, s, a, ha => by
    have hhead : (publishStatus cfg (x.publish i) (cancelPayload b y) b y s).2.store.db.job? a =
        s.store.db.job? a := by
      rw [store_publishStatus]
      have hne : a ≠ y := by
        rintro rfl
        exact ha List.mem_cons_self
      exact job?_publish_of_ne cfg _ _ _ b hne s.store
    rw [answerCancel]
    split
    · next hcall => rw [hcall] at hhead; exact hhead
    · next hcall =>
      rw [hcall] at hhead
      rw [job?_answerCancel_of_not_mem x b fun hm => ha (List.mem_cons_of_mem _ hm)]
      exact hhead

/-- The answers keep a row, and stamp it with the time of an answer if they change it. -/
theorem job?_answerCancel {x : FrameInput} {t : Instant} (hx : ∀ i, (x.publish i).clock.updated = t)
    (b : PyStr) : ∀ (as : List PyStr) (i : ℕ) {s : Engine} {a : PyStr} {r : JobRow},
    s.store.db.job? a = some r → ∃ r', (answerCancel cfg x b i as s).2.store.db.job? a = some r' ∧
      (r' = r ∨ r'.updatedAt = formatDatetime t)
  | [], _, _, _, r, hr => ⟨r, hr, Or.inl rfl⟩
  | y :: as, i, s, a, r, hr => by
    obtain ⟨r₁, hr₁, hstamp⟩ := job?_publish cfg (x.publish i) .attemptStatus (cancelPayload b y) b y hr
    rw [← store_publishStatus] at hr₁
    rw [hx] at hstamp
    rw [answerCancel]
    split
    · next hcall => rw [hcall] at hr₁; exact ⟨r₁, hr₁, hstamp⟩
    · next hcall =>
      rw [hcall] at hr₁
      obtain ⟨r₂, hr₂, hstamp₂⟩ := job?_answerCancel hx b as (i + 1) hr₁
      refine ⟨r₂, hr₂, ?_⟩
      rcases hstamp₂ with rfl | hstamp₂
      · exact hstamp
      · exact Or.inr hstamp₂

/-- An answer for one attempt is one publish. -/
theorem store_answerCancel_singleton (x : FrameInput) (b a : PyStr) (i : ℕ) (s : Engine) :
    (answerCancel cfg x b i [a] s).2.store =
      (publishAttemptEvent cfg (x.publish i) .attemptStatus (cancelPayload b a) b a s.store).2 := by
  rw [← store_publishStatus, answerCancel]
  split
  · next hcall => rw [hcall]
  · next hcall => rw [hcall]; rfl

/-! ### The frame -/

theorem handleFrame_cancel {x : FrameInput} {frame : PyStr} {e : Envelope}
    (hdecode : decodeFrame x.decoded inboundMessageTypes frame = .ok e) (htype : e.type = .jobCancel)
    (hengine : e.engineId = cfg.uplink.engineId) (s : Engine) :
    handleFrame cfg x frame s = handleCancel cfg x e s := by
  unfold handleFrame
  rw [hdecode]
  dsimp only
  rw [if_neg (not_not.mpr hengine), htype]

/-- The store after a cancellation that passes its checks. -/
theorem store_handleCancel {e : Envelope} {b : PyStr} {attemptId : Option PyStr} (x : FrameInput)
    (hb : requiredStr e.payload (py "build_job_id") = .ok b) (ha : cancelAttempt e.payload = .ok attemptId)
    (s : Engine) : (handleCancel cfg x e s).2.store =
      match explicitAttempt e with
      | .error _ => (s.store.requestCancel x.stored b attemptId).2
      | .ok explicit => (answerCancel cfg x b 0 (if (s.store.requestCancel 0 b attemptId).1 = [] then
          explicit.toList else (s.store.requestCancel 0 b attemptId).1)
          { s with store := (s.store.requestCancel x.stored b attemptId).2 }).2.store := by
  unfold handleCancel
  rw [hb, ha]
  dsimp only
  rcases explicitAttempt e with err | explicit
  · rfl
  · rfl

/-- A row that is not marked changes only through the answer for its attempt. -/
theorem job?_handleCancel_unmarked {e : Envelope} {b : PyStr} {attemptId : Option PyStr} (x : FrameInput)
    (hb : requiredStr e.payload (py "build_job_id") = .ok b) (ha : cancelAttempt e.payload = .ok attemptId)
    (s : Engine) {a : PyStr} (hno : ¬ ∃ r, s.store.db.job? a = some r ∧ cancelWhere b attemptId r = true) :
    ((∃ explicit, explicitAttempt e = .ok explicit) ∧ a ∈ answered e b attemptId s.store ∧
      (handleCancel cfg x e s).2.store =
        (publishAttemptEvent cfg (x.publish 0) .attemptStatus (cancelPayload b a) b a s.store).2) ∨
    (¬ ((∃ explicit, explicitAttempt e = .ok explicit) ∧ a ∈ answered e b attemptId s.store) ∧
      (handleCancel cfg x e s).2.store.db.job? a = s.store.db.job? a) := by
  have hrequest : (s.store.requestCancel x.stored b attemptId).2.db.job? a = s.store.db.job? a := by
    rw [job?_requestCancel]
    rcases hr : s.store.db.job? a with _ | r
    · rfl
    · have hwhere : cancelWhere b attemptId r = false := by simpa using fun hw => hno ⟨r, hr, hw⟩
      simp [hwhere]
  have hstore := store_handleCancel cfg x hb ha s
  rcases hexp : explicitAttempt e with err | explicit
  · rw [hexp] at hstore
    exact Or.inr ⟨by simp, by rw [hstore]; exact hrequest⟩
  · rw [hexp] at hstore
    dsimp only at hstore
    have hanswered : answered e b attemptId s.store = if (s.store.requestCancel 0 b attemptId).1 = [] then
        explicit.toList else (s.store.requestCancel 0 b attemptId).1 := by
      unfold answered
      rw [hexp]
      rfl
    rw [hanswered]
    by_cases hmem : a ∈ if (s.store.requestCancel 0 b attemptId).1 = [] then explicit.toList
        else (s.store.requestCancel 0 b attemptId).1
    · obtain ⟨hlist, hnone⟩ := answered_unmarked hmem hno
      refine Or.inl ⟨⟨explicit, rfl⟩, hmem, ?_⟩
      rw [hstore, hlist, store_answerCancel_singleton, requestCancel_unchanged hnone]
    · refine Or.inr ⟨fun h => hmem h.2, ?_⟩
      rw [hstore, job?_answerCancel_of_not_mem cfg x b hmem]
      exact hrequest

/-- A cancellation whose payload holds no string for the attempt changes nothing. -/
theorem handleCancel_refused {e : Envelope} {b : PyStr} {err : FrameError} (x : FrameInput)
    (hb : requiredStr e.payload (py "build_job_id") = .ok b) (ha : cancelAttempt e.payload = .error err)
    (s : Engine) : (handleCancel cfg x e s).2 = s := by
  unfold handleCancel
  rw [hb, ha]

/-- A publish at an instant. -/
def publishOn (t : Instant) : PublishInput := ⟨t, t, [], ⟨t, t, t⟩⟩

/-- A marked row is changed, at a time that is not that of its last change. -/
theorem marked_changes {e : Envelope} {b : PyStr} {attemptId : Option PyStr} (decoded : Instant)
    (hb : requiredStr e.payload (py "build_job_id") = .ok b) (ha : cancelAttempt e.payload = .ok attemptId)
    (s : Engine) {a : PyStr} {r : JobRow} (hr : s.store.db.job? a = some r)
    (hw : cancelWhere b attemptId r = true) :
    ∃ t, (handleCancel cfg ⟨decoded, t, fun _ => publishOn t⟩ e s).2.store.db.job? a ≠ s.store.db.job? a := by
  let t : Instant := (r.updatedAt + 1) * 1000
  have ht : formatDatetime t = r.updatedAt + 1 := Int.mul_ediv_cancel _ (by norm_num)
  refine ⟨t, ?_⟩
  have hmarked : (s.store.requestCancel t b attemptId).2.db.job? a =
      some (requestRow (formatDatetime t) r) := by
    rw [job?_requestCancel, hr]
    simp [hw]
  have hstamped : ∃ r', (handleCancel cfg ⟨decoded, t, fun _ => publishOn t⟩ e s).2.store.db.job? a =
      some r' ∧ r'.updatedAt = formatDatetime t := by
    rw [store_handleCancel cfg _ hb ha s]
    rcases explicitAttempt e with err | explicit
    · exact ⟨_, hmarked, rfl⟩
    · obtain ⟨r', hr', hstamp⟩ := job?_answerCancel (t := t) cfg
        (x := ⟨decoded, t, fun _ => publishOn t⟩) (fun _ => rfl) b _ 0
        (s := { s with store := (s.store.requestCancel t b attemptId).2 }) hmarked
      refine ⟨r', hr', ?_⟩
      rcases hstamp with rfl | hstamp
      · rfl
      · exact hstamp
  obtain ⟨r', hr', hstamp⟩ := hstamped
  rw [hr', hr]
  intro heq
  rw [Option.some.inj heq, ht] at hstamp
  exact absurd hstamp (ne_of_lt (Int.lt_succ _))

omit [PyDatetime] in
/-- The payload of an answer is short. -/
theorem membersSize_cancelPayload {b a : PyStr} (hb : isUuid b = true) (ha : isUuid a = true) :
    membersSize (cancelPayload b a) ≤ 10000 := by
  have hb := length_of_isUuid hb
  have ha := length_of_isUuid ha
  have hkeys : (py "build_job_id").length = 12 ∧ (py "attempt_id").length = 10 ∧ (py "phase").length = 5 ∧
      (py "CANCELLING").length = 10 := by decide
  simp only [cancelPayload, membersSize, textSize]
  omega

/-- An answer can change the row of its attempt exactly if it can be published. -/
theorem answer_changes_iff {s : Store} (hcover : CursorCovers s.db) (hsupply : ∃ i, Supplied i s.db)
    (hengine : isUuid cfg.uplink.engineId = true) (b x : PyStr) :
    (∃ i, (publishAttemptEvent cfg i .attemptStatus (cancelPayload b x) b x s).2.db.job? x ≠ s.db.job? x) ↔
      Answerable s b x := by
  constructor
  · rintro ⟨i, hchange⟩
    rcases publishAttemptEvent_cases cfg hcover i .attemptStatus (cancelPayload b x) b x with
      ⟨err, hpublish⟩ | ⟨e, db', r, hpublish, hr, -, hfree, hb, hx⟩
    · rw [hpublish] at hchange
      exact absurd rfl hchange
    · exact ⟨hb, hx, r, hr, hfree⟩
  · rintro ⟨hb, hx, r, hr, hfree⟩
    obtain ⟨i, hi⟩ := hsupply
    obtain ⟨db', hpublish, hrow⟩ := publishAttemptEvent_status cfg hcover hi hengine hb hx
      (membersSize_cancelPayload hb hx) hr hfree
    refine ⟨i, ?_⟩
    rw [hpublish, hr]
    show db'.job? x ≠ some r
    rw [hrow]
    intro hsame
    have hcursor : max r.sequenceCursor (r.sequenceCursor + 1) = r.sequenceCursor :=
      congrArg JobRow.sequenceCursor (Option.some.inj hsame)
    omega

/-- **The scope of a cancellation.** For every store reached by its calls, and every `job.cancel` frame for the
build `b` that is addressed to this engine: whatever the clock and the identifiers of the answers, handling it
changes no row but that of the attempt `a` of `b`, if and only if the frame and the rows keep it to that
one. -/
theorem cancel_scope_iff (ops : List Ops.Op) (frame : PyStr) (decoded : Instant) (e : Envelope) (b a : PyStr)
    (s : Engine) (hstore : s.store = run Ops.apply Store.empty ops)
    (hsupply : ∃ i, Supplied i s.store.db)
    (hdecode : decodeFrame decoded inboundMessageTypes frame = .ok e) (htype : e.type = .jobCancel)
    (hengine : e.engineId = cfg.uplink.engineId)
    (hb : requiredStr e.payload (py "build_job_id") = .ok b) :
    (∀ stored publish, ChangesOnly b a s.store.db
      (handleFrame cfg ⟨decoded, stored, publish⟩ frame s).2.store.db) ↔ Scoped e b a s.store := by
  obtain ⟨hengineId, -, hid⟩ := uuids_of_decodeFrame hdecode
  rw [hengine] at hengineId
  have hcover : CursorCovers s.store.db := hstore ▸ cursorCovers_run ops
  have hanswer := answer_changes_iff cfg hcover hsupply hengineId b
  have hhandle : ∀ stored publish, handleFrame cfg ⟨decoded, stored, publish⟩ frame s =
      handleCancel cfg ⟨decoded, stored, publish⟩ e s := by
    intro stored publish
    exact handleFrame_cancel cfg (x := ⟨decoded, stored, publish⟩) hdecode htype hengine s
  simp only [hhandle]
  rw [scoped_iff hid]
  constructor
  · intro hall attemptId ha x htouched
    by_cases hmarked : ∃ r, s.store.db.job? x = some r ∧ cancelWhere b attemptId r = true
    · obtain ⟨r, hr, hw⟩ := hmarked
      obtain ⟨t, ht⟩ := marked_changes cfg decoded hb ha s hr hw
      exact hall t _ x ht
    · rcases htouched with hmarked' | ⟨hexp, hmem, hanswerable⟩
      · exact absurd hmarked' hmarked
      · obtain ⟨i, hchange⟩ := (hanswer x).mpr hanswerable
        rcases job?_handleCancel_unmarked cfg ⟨decoded, 0, fun _ => i⟩ hb ha s hmarked with
          ⟨-, -, hstore⟩ | ⟨hnot, -⟩
        · refine hall 0 (fun _ => i) x ?_
          rw [hstore]
          exact hchange
        · exact absurd ⟨hexp, hmem⟩ hnot
  · intro hscoped stored publish x hchange
    rcases ha : cancelAttempt e.payload with err | attemptId
    · rw [handleCancel_refused cfg _ hb ha] at hchange
      exact absurd rfl hchange
    · by_cases hmarked : ∃ r, s.store.db.job? x = some r ∧ cancelWhere b attemptId r = true
      · exact hscoped attemptId ha x (Or.inl hmarked)
      · rcases job?_handleCancel_unmarked cfg ⟨decoded, stored, publish⟩ hb ha s hmarked with
          ⟨hexp, hmem, hstore⟩ | ⟨-, hsame⟩
        · rw [hstore] at hchange
          exact hscoped attemptId ha x (Or.inr ⟨hexp, hmem, (hanswer x).mp ⟨publish 0, hchange⟩⟩)
        · exact absurd hsame hchange

end Datetime

/-- A cancellation that names the sample attempt in its own field only. -/
def cancelCommand : Envelope := sampleCommand .jobCancel [(py "build_job_id", .str Ops.sampleBuild)]

theorem decode_cancelCommand :
    @decodeFrame firstDay (seconds 1) inboundMessageTypes cancelCommand.encoded = .ok cancelCommand.sorted := by
  have hvalid : @Valid firstDay cancelCommand := by
    let _ := firstDay
    exact ⟨⟨seconds 1, Replay.exists_of_isOk (by decide +kernel)⟩, by unfold WF; decide +kernel⟩
  exact decode_sampleCommand hvalid (by decide +kernel) (by decide)

/-- An engine after some calls of its store. -/
def engineAfter (ops : List Ops.Op) : Engine := ⟨run Ops.apply Store.empty ops, false, [], [], []⟩

/-- The readings of the handling. -/
def cancelInput : FrameInput := ⟨seconds 1, seconds 1, fun _ => publishAt 1⟩

theorem required_cancelCommand :
    requiredStr cancelCommand.sorted.payload (py "build_job_id") = .ok Ops.sampleBuild := rfl

theorem scoped_alone : Scoped cancelCommand.sorted Ops.sampleBuild Ops.sampleAttempt
    (engineAfter [.enqueue 0 Ops.samplePayload]).store := by
  have hpayload : cancelAttempt cancelCommand.sorted.payload = .ok none := rfl
  unfold Scoped
  rw [hpayload]
  exact ⟨by decide +kernel, fun hfinished => absurd hfinished (by decide +kernel)⟩

/-- With no other attempt of the build, the cancellation keeps to the attempt it names. -/
theorem cancel_scope_alone : ChangesOnly Ops.sampleBuild Ops.sampleAttempt
    (engineAfter [.enqueue 0 Ops.samplePayload]).store.db
    (@handleFrame firstDay sampleLoop ⟨seconds 1, seconds 1, fun _ => publishAt 1⟩ cancelCommand.encoded
      (engineAfter [.enqueue 0 Ops.samplePayload])).2.store.db := by
  have hsupply : ∃ i, @Supplied firstDay i (engineAfter [.enqueue 0 Ops.samplePayload]).store.db :=
    ⟨publishAt 1, supplied_publishAt (by decide +kernel)⟩
  exact (@cancel_scope_iff firstDay sampleLoop [.enqueue 0 Ops.samplePayload] cancelCommand.encoded (seconds 1)
    cancelCommand.sorted Ops.sampleBuild Ops.sampleAttempt (engineAfter [.enqueue 0 Ops.samplePayload]) rfl
    hsupply decode_cancelCommand rfl rfl required_cancelCommand).mpr scoped_alone (seconds 1)
    fun _ => publishAt 1

/-- Two attempts of the sample build. -/
def twoAttempts : Engine :=
  engineAfter [.enqueue 0 Ops.samplePayload, .enqueue (seconds 1) Freshness.laterPayload]

theorem twoAttempts_cancelled :
    ((@handleCancel firstDay sampleLoop cancelInput cancelCommand.sorted twoAttempts).2.store.db.job?
      Freshness.laterAttempt).map (·.cancelRequested) = some true ∧
    (twoAttempts.store.db.job? Freshness.laterAttempt).map (·.cancelRequested) = some false := by
  decide +kernel

/-- A cancellation that names one attempt in its own field marks the other attempt of the build too. -/
theorem cancel_marks_other_attempt : Names cancelCommand.sorted Ops.sampleAttempt ∧
    @decodeFrame firstDay (seconds 1) inboundMessageTypes cancelCommand.encoded = .ok cancelCommand.sorted ∧
    ((@handleFrame firstDay sampleLoop cancelInput cancelCommand.encoded twoAttempts).2.store.db.job?
      Freshness.laterAttempt).map (·.cancelRequested) = some true ∧
    ¬ ChangesOnly Ops.sampleBuild Ops.sampleAttempt twoAttempts.store.db
      (@handleFrame firstDay sampleLoop cancelInput cancelCommand.encoded twoAttempts).2.store.db := by
  obtain ⟨hafter, hbefore⟩ := twoAttempts_cancelled
  let _ := firstDay
  rw [handleFrame_cancel sampleLoop (x := cancelInput) decode_cancelCommand rfl rfl]
  refine ⟨Or.inl rfl, decode_cancelCommand, hafter, fun honly => ?_⟩
  have hother : Freshness.laterAttempt ≠ Ops.sampleAttempt := by decide
  refine hother (honly Freshness.laterAttempt fun hsame => ?_).1
  rw [hsame, hbefore] at hafter
  cases hafter

end BuildEngine.Agent.CancelScope
