import BuildEngine.Agent.Publishing
import BuildEngine.Queue.Replay

/-! # The answer to an assignment

The answer to a `job.assign` frame is published under a number of the attempt's row. An engine that is not
draining has made sure of the row, and answers with its state. A draining engine makes none: an attempt it
does not know is refused with an exception, which ends the connection, and one it knows is answered with
`FAILED` whatever its state is. -/

namespace BuildEngine.Agent.Assignments

open BuildEngine.Base BuildEngine.Base.Json BuildEngine.Base.Run BuildEngine.Agent.Protocol
open BuildEngine.Agent.JobLoop hiding handleAssign handleCancel
open BuildEngine.Agent.Commands BuildEngine.Agent.Publishing BuildEngine.Queue.Schema BuildEngine.Queue
open BuildEngine.Queue.Store BuildEngine.Queue.Outbox BuildEngine.Queue.Events

/-- The state an assignment is to be answered with: that of the row, `FAILED` if a draining engine does not
know the attempt, and `QUEUED` if the assignment is new. -/
def answerState (s : Engine) (a : PyStr) : JobState :=
  match s.store.db.job? a with
  | some r => r.state
  | none => if s.draining then .failed else .queued

/-- The assignment of `a` is answered: handling returns and publishes exactly one event, a status of the
attempt with the state it is to be answered with; and a draining engine keeps its jobs as they are. -/
structure Answered (a : PyStr) (s : Engine) (h : Handled) : Prop where
  returns : h.1 = .ok ()
  answer : ∃ e, h.2.published = s.published ++ [e] ∧ e.type = .attemptStatus ∧ e.attemptId = some a ∧
    get? e.payload (py "state") = some (.str (answerState s a).text)
  jobs : s.draining = true → h.2.store.db.jobs = s.store.db.jobs

/-! ### The fields of the frame -/

theorem uuid_of_fieldOrPayload {field : Option PyStr} {payload : List (PyStr × Json)} {key s : PyStr}
    (hfield : field.all isUuid = true) (h : fieldOrPayload field payload key = .ok (some s)) :
    isUuid s = true := by
  have hstring : ∀ {s}, stringPayload payload key = .ok (some s) → isUuid s = true := by
    intro s h
    unfold stringPayload at h
    split at h
    · cases h
    · cases h
    · split_ifs at h with hs
      cases h
      exact hs
    · cases h
  unfold fieldOrPayload at h
  split at h
  · split_ifs at h
    · exact hstring h
    · cases h
      exact hfield
  · exact hstring h

/-- The attempt fields of a decoded envelope are UUIDs. -/
theorem uuids_of_attemptFields {e : Envelope} {b a : PyStr} (hb : e.buildJobId.all isUuid = true)
    (ha : e.attemptId.all isUuid = true) (h : attemptFields e = .ok (b, a)) :
    isUuid b = true ∧ isUuid a = true := by
  unfold attemptFields at h
  obtain ⟨b', hb', h⟩ := bind_ok h
  obtain ⟨a', ha', h⟩ := bind_ok h
  split at h
  · cases h
    exact ⟨uuid_of_fieldOrPayload hb hb', uuid_of_fieldOrPayload ha ha'⟩
  · cases h

/-! ### The enqueue -/

theorem requiredPayloadUuid_of_get? {payload : List (PyStr × Json)} {key s : PyStr}
    (h : get? payload key = some (.str s)) (hs : isUuid s = true) :
    requiredPayloadUuid payload key = .ok s := by
  have hne : s ≠ [] := by
    rintro rfl
    exact absurd hs (by decide)
  unfold requiredPayloadUuid requiredPayloadStr
  rw [h]
  dsimp only
  rw [if_neg hne]
  show (if isUuid s = true then Except.ok s else _) = _
  rw [if_pos hs]

/-- The enqueue of an assignment finds or makes the row of its attempt, and returns its state. -/
theorem enqueue_assignment {s : Store} {b a : PyStr} (hb : isUuid b = true) (ha : isUuid a = true)
    (hbuild : ∀ r, s.db.job? a = some r → r.buildJobId = b) (now : Instant)
    (payload : List (PyStr × Json)) :
    ∃ result r, s.enqueue now (mergedPayload payload b a) =
        (.ok result, (s.enqueue now (mergedPayload payload b a)).2) ∧ result.job.state = r.state ∧
      (s.enqueue now (mergedPayload payload b a)).2.db.job? a = some r ∧
      (s.db.job? a = some r ∨ s.db.job? a = none ∧ r.state = .queued ∧ r.sequenceCursor = 0) := by
  have hbuildId : requiredPayloadUuid (mergedPayload payload b a) (py "build_job_id") = .ok b := by
    refine requiredPayloadUuid_of_get? ?_ hb
    unfold mergedPayload
    rw [get?_set_of_ne _ _ (by decide), get?_set_self]
  have hattemptId : requiredPayloadUuid (mergedPayload payload b a) (py "attempt_id") = .ok a :=
    requiredPayloadUuid_of_get? (get?_set_self _ _ _) ha
  let new := newRow s.db.nextRowid b a (dumpsSorted (.obj (durablePayload (mergedPayload payload b a))))
    (formatDatetime now)
  obtain ⟨r, hr, hrow, horigin⟩ : ∃ r, (s.db.insertOrIgnoreJob new).job? a = some r ∧ r.buildJobId = b ∧
      (s.db.job? a = some r ∨ s.db.job? a = none ∧ r.state = .queued ∧ r.sequenceCursor = 0) := by
    rw [Db.job?_insertOrIgnoreJob]
    rcases hold : s.db.job? a with _ | r
    · exact ⟨new, by rw [if_pos ⟨rfl, rfl⟩], rfl, Or.inr ⟨rfl, rfl, rfl⟩⟩
    · exact ⟨r, by rw [if_neg (by simp)], hbuild r hold, Or.inl rfl⟩
  unfold enqueue
  rw [hbuildId, hattemptId]
  dsimp only
  have hreload : ∀ held : Store,
      Store.jobRow { held with db := s.db.insertOrIgnoreJob new } b a = some r := by
    intro held
    unfold Store.jobRow
    show ((s.db.insertOrIgnoreJob new).job? a).filter _ = _
    rw [hr, Option.filter_some, if_pos (by simpa using hrow)]
  rw [hreload]
  exact ⟨_, r, rfl, state_record _ _, hr, horigin⟩

section Datetime
variable [PyDatetime] (cfg : LoopConfig)

/-! ### The frame -/

theorem handleFrame_assign {x : FrameInput} {frame : PyStr} {e : Envelope} {b a : PyStr}
    (hdecode : decodeFrame x.decoded inboundMessageTypes frame = .ok e) (htype : e.type = .jobAssign)
    (hengine : e.engineId = cfg.uplink.engineId) (hids : attemptFields e = .ok (b, a)) (s : Engine) :
    handleFrame cfg x frame s =
      match assign x.stored (mergedPayload e.payload b a) s with
      | (.error err, s') => (.error err, s')
      | (.ok state, s') => publishStatus cfg (x.publish 0) (ackPayload b a state none) b a s' := by
  unfold handleFrame
  rw [hdecode]
  dsimp only
  rw [if_neg (not_not.mpr hengine), htype]
  dsimp only
  unfold handleAssign
  generalize attemptFields e = fields at hids ⊢
  subst hids
  rfl

omit [PyDatetime] in
/-- The payload of an answer is short. -/
theorem membersSize_ackPayload {b a : PyStr} (hb : isUuid b = true) (ha : isUuid a = true) (st : JobState) :
    membersSize (ackPayload b a st.text none) ≤ 10000 := by
  have hb := length_of_isUuid hb
  have ha := length_of_isUuid ha
  have hst : st.text.length ≤ 9 := by cases st <;> decide
  have hkeys : (py "build_job_id").length = 12 ∧ (py "attempt_id").length = 10 ∧
      (py "state").length = 5 := by decide
  simp only [ackPayload, List.append_nil, membersSize, textSize]
  omega

/-- An engine that is not draining answers with the state of the row, if the row has a further number. -/
theorem answered_of_not_draining {x : FrameInput} {frame : PyStr} {e : Envelope} {b a : PyStr} {s : Engine}
    (hcover : CursorCovers s.store.db)
    (hdecode : decodeFrame x.decoded inboundMessageTypes frame = .ok e) (htype : e.type = .jobAssign)
    (hengine : e.engineId = cfg.uplink.engineId) (hids : attemptFields e = .ok (b, a))
    (hbuild : ∀ r, s.store.db.job? a = some r → r.buildJobId = b) (hx : Supplied (x.publish 0) s.store.db)
    (hdraining : s.draining = false) :
    Answered a s (handleFrame cfg x frame s) ↔
      ∀ r, s.store.db.job? a = some r → r.sequenceCursor + 1 < maxSqliteInt := by
  obtain ⟨hengineId, hbuildId, hattemptId⟩ := uuids_of_decodeFrame hdecode
  rw [hengine] at hengineId
  obtain ⟨hb, ha⟩ := uuids_of_attemptFields hbuildId hattemptId hids
  obtain ⟨result, r, henqueue, hstate, hr, horigin⟩ :=
    enqueue_assignment hb ha hbuild x.stored e.payload
  generalize hstore : (s.store.enqueue x.stored (mergedPayload e.payload b a)).2 = store at henqueue hr
  have hhandle : handleFrame cfg x frame s = publishStatus cfg (x.publish 0)
      (ackPayload b a r.state.text none) b a { s with store := store } := by
    rw [handleFrame_assign cfg hdecode htype hengine hids]
    unfold assign
    rw [if_neg (by simp [hdraining]), henqueue]
    dsimp only
    rw [hstate]
  have hanswer : answerState s a = r.state := by
    unfold answerState
    rcases horigin with hold | ⟨hold, hqueued, -⟩
    · rw [hold]
    · rw [hold, hqueued]
      simp [hdraining]
  have hcover' : CursorCovers store.db := by
    rw [← hstore]
    exact hcover.apply (.enqueue x.stored (mergedPayload e.payload b a))
  rw [hhandle]
  unfold publishStatus
  constructor
  · intro hanswered r' hr'
    by_contra hfull
    have hsame : r' = r := by
      rcases horigin with hold | ⟨hold, -, -⟩
      · exact Option.some.inj (hr'.symm.trans hold)
      · rw [hr'] at hold; cases hold
    obtain ⟨err, hpublish⟩ := publishAttemptEvent_overflow cfg b (ackPayload b a r.state.text none) hcover' hr
      (by rw [← hsame]; omega) (x.publish 0) .attemptStatus
    have hreturns := hanswered.returns
    dsimp only at hreturns
    rw [hpublish] at hreturns
    cases hreturns
  · intro hfree
    have hcursor : r.sequenceCursor + 1 < maxSqliteInt := by
      rcases horigin with hold | ⟨-, -, hzero⟩
      · exact hfree r hold
      · rw [hzero]; decide
    have hevents : store.db.events = s.store.db.events := by
      rw [← hstore]
      exact events_enqueue _ _ _
    have hx' : Supplied (x.publish 0) store.db :=
      ⟨hx.uuid, by rw [hevents]; exact hx.unused, hx.fresh, hx.short⟩
    obtain ⟨db', hpublish, -⟩ := publishAttemptEvent_status cfg hcover' hx' hengineId hb ha
      (membersSize_ackPayload hb ha r.state) hr hcursor
    dsimp only
    rw [hpublish]
    refine ⟨rfl, ⟨_, rfl, rfl, rfl, ?_⟩, fun h => ?_⟩
    · rw [hanswer]; rfl
    · rw [hdraining] at h; cases h

/-- A draining engine does not answer: without a row the publish raises, and with one it moves the cursor of
the row. -/
theorem not_answered_of_draining {x : FrameInput} {frame : PyStr} {e : Envelope} {b a : PyStr} {s : Engine}
    (hcover : CursorCovers s.store.db)
    (hdecode : decodeFrame x.decoded inboundMessageTypes frame = .ok e) (htype : e.type = .jobAssign)
    (hengine : e.engineId = cfg.uplink.engineId) (hids : attemptFields e = .ok (b, a))
    (hdraining : s.draining = true) : ¬ Answered a s (handleFrame cfg x frame s) := by
  intro hanswered
  have hhandle : handleFrame cfg x frame s =
      publishStatus cfg (x.publish 0) (ackPayload b a (py "FAILED") none) b a s := by
    rw [handleFrame_assign cfg hdecode htype hengine hids]
    unfold assign
    rw [if_pos hdraining]
  have hreturns := hanswered.returns
  have hjobs := hanswered.jobs hdraining
  rw [hhandle] at hreturns hjobs
  unfold publishStatus at hreturns hjobs
  rcases publishAttemptEvent_cases cfg hcover (x.publish 0) .attemptStatus (ackPayload b a (py "FAILED") none) b a
    with ⟨err, hpublish⟩ | ⟨e', db', r, hpublish, hr, hrow, -⟩
  · rw [hpublish] at hreturns
    cases hreturns
  · rw [hpublish] at hjobs
    have hsame : db'.job? a = s.store.db.job? a := by
      unfold Db.job?
      rw [show db'.jobs = s.store.db.jobs from hjobs]
    rw [hrow, hr] at hsame
    have hraised : max r.sequenceCursor (r.sequenceCursor + 1) = r.sequenceCursor :=
      congrArg JobRow.sequenceCursor (Option.some.inj hsame)
    omega

end Datetime

/-- An assignment of the sample attempt. -/
def assignCommand : Envelope := sampleCommand .jobAssign []

theorem decode_assignCommand :
    @decodeFrame firstDay (seconds 1) inboundMessageTypes assignCommand.encoded = .ok assignCommand.sorted := by
  have hvalid : @Valid firstDay assignCommand := by
    let _ := firstDay
    exact ⟨⟨seconds 1, Replay.exists_of_isOk (by decide +kernel)⟩, by unfold WF; decide +kernel⟩
  exact decode_sampleCommand hvalid (by decide +kernel) (by decide)

/-- The readings of its handling. -/
def assignInput : FrameInput := ⟨seconds 1, seconds 1, fun _ => publishAt 1⟩

/-- An engine without jobs. -/
def idleEngine (draining : Bool) : Engine := ⟨.empty, draining, [], [], []⟩

theorem supplied_assignInput : @Supplied firstDay (assignInput.publish 0) Db.empty :=
  supplied_publishAt fun f hf => absurd hf (by simp [Db.empty, Table.empty])

end BuildEngine.Agent.Assignments
