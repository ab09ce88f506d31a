import BuildEngine.Agent.Publishing
import BuildEngine.Agent.StoreCalls
import BuildEngine.Agent.TerminalReports
import BuildEngine.Base.Toml

/-! # The size of a failure report

`_ack_safely` sends the terminal status of a failed attempt with the message of its error, which may be of any
length, and suppresses whatever is raised. An envelope has no JSON text of more than `MAX_FRAME_BYTES`
(`toJson_ok_iff`), so the report of a long message raises in `append` and is never seen again. The length of the
text is computed exactly (`length_report`), and decides whether the report is appended. -/

namespace BuildEngine.Agent.ReportSize

open BuildEngine.Base BuildEngine.Base.Json BuildEngine.Base.Run BuildEngine.Agent.Protocol
open BuildEngine.Agent.JobLoop BuildEngine.Agent.Publishing BuildEngine.Agent.StoreCalls
open BuildEngine.Agent.TerminalReports (publishAttemptEvent_ok)
open BuildEngine.Queue.Schema BuildEngine.Queue BuildEngine.Queue.Outbox BuildEngine.Queue.Ops
open BuildEngine.Queue.Events BuildEngine.Executor.Workspace

/-! ### The text of a report -/

theorem all_plain_of_matchesMask : ∀ {mask : List Bool} {s : PyStr}, matchesMask mask s = true →
    s.all isPlainChar = true
  | [], [], _ => rfl
  | [], _ :: _, h => by simp [matchesMask] at h
  | _ :: _, [], h => by simp [matchesMask] at h
  | hyphen :: mask, c :: s, h => by
    rw [matchesMask, Bool.and_eq_true] at h
    rw [List.all_cons, Bool.and_eq_true]
    refine ⟨?_, all_plain_of_matchesMask h.2⟩
    have hc := h.1
    split_ifs at hc
    · rw [of_decide_eq_true hc]
      decide
    · simp only [isLowerHex, isDigit, Bool.or_eq_true, Bool.and_eq_true, decide_eq_true_eq] at hc
      simp only [isPlainChar, Bool.and_eq_true, decide_eq_true_eq]
      omega

/-- The literal of a UUID. -/
theorem length_strText_uuid {s : PyStr} (h : isUuid s = true) : (strText s).length = 38 := by
  have hlength := length_of_isUuid h
  have hplain := length_strText_of_plain (all_plain_of_matchesMask h)
  omega

/-- The length of the text of a report: the literals of its timestamp, its number, its state and the three texts of
its error, and what is the same in every report. -/
def reportLength (ts : PyStr) (seq : ℕ) (st : JobState) (e : BuildExecutionError) : ℕ :=
  418 + (strText ts).length + (intText seq).length + (strText st.text).length + (strText e.errorClass).length +
    (strText e.errorCode).length + (strText e.message).length

section Datetime
variable [PyDatetime] (cfg : LoopConfig)

/-- The text of a report has this length. -/
theorem length_report {x : PublishInput} {b a : PyStr} (hid : isUuid x.messageId = true)
    (hengine : isUuid cfg.uplink.engineId = true) (hb : isUuid b = true) (ha : isUuid a = true) (seq : ℕ)
    (st : JobState) (e : BuildExecutionError) :
    (dumps (.obj (statusEvent cfg x (ackPayload b a st.text (some e)) b a seq).toDict)).length =
      reportLength (formatTimestamp x.timestamp) seq st e := by
  have hstr : ∀ s : PyStr, dumps (.str s) = strText s := fun s => by rw [dumps]
  have hint : ∀ n : ℤ, dumps (.int n) = intText n := fun n => by rw [dumps]
  have hkeys : (strText (py "v")).length = 3 ∧ (strText (py "id")).length = 4 ∧ (strText (py "type")).length = 6 ∧
      (strText (py "ts")).length = 4 ∧ (strText (py "engine_id")).length = 11 ∧
      (strText (py "payload")).length = 9 ∧ (strText (py "build_job_id")).length = 14 ∧
      (strText (py "attempt_id")).length = 12 ∧ (strText (py "seq")).length = 5 ∧
      (strText (py "state")).length = 7 ∧ (strText (py "error_class")).length = 13 ∧
      (strText (py "error_code")).length = 12 ∧ (strText (py "error_message")).length = 15 := by
    decide
  have htype : (strText MessageType.attemptStatus.text).length = 16 := by decide
  have hversion : (intText protocolVersion).length = 1 := by decide
  have hid := length_strText_uuid hid
  have hengine := length_strText_uuid hengine
  have hb := length_strText_uuid hb
  have ha := length_strText_uuid ha
  have hpayload : (dumps (.obj (ackPayload b a st.text (some e)))).length =
      162 + (strText st.text).length + (strText e.errorClass).length + (strText e.errorCode).length +
        (strText e.message).length := by
    have hne : ackPayload b a st.text (some e) ≠ [] := List.cons_ne_nil _ _
    rw [length_dumps_obj hne]
    simp only [ackPayload, List.cons_append, List.nil_append, List.map_cons, List.map_nil, List.sum_cons,
      List.sum_nil, memberLength, hstr]
    omega
  have hne : (statusEvent cfg x (ackPayload b a st.text (some e)) b a seq).toDict ≠ [] := List.cons_ne_nil _ _
  rw [length_dumps_obj hne]
  simp only [statusEvent, Envelope.toDict, optionalMember, Option.map_some, List.cons_append, List.nil_append,
    List.map_cons, List.map_nil, List.sum_cons, List.sum_nil, memberLength, hstr, hint, hpayload]
  unfold reportLength
  omega

/-! ### What decides a publish -/

omit [PyDatetime] in
/-- An envelope has a JSON text unless it is too long. -/
theorem toJson_ok_iff (e : Envelope) :
    (∃ text, e.toJson = .ok text) ↔ (dumps (.obj e.toDict)).length ≤ maxFrameBytes := by
  unfold Envelope.toJson Envelope.encoded
  rw [encodedLength_dumpsSorted_eq]
  dsimp only
  split_ifs with hlong
  · constructor
    · rintro ⟨text, h⟩
      cases h
    · intro h
      omega
  · exact ⟨fun _ => by omega, fun _ => ⟨_, rfl⟩⟩

omit [PyDatetime] in
/-- What an append under a free number asks for. -/
theorem append_ok_iff {e : Envelope} {a : PyStr} {n : ℕ} (ha : e.attemptId = some a) (hn : e.seq = some n) {db : Db}
    (hfree : db.event? a n = none) (outbox : OutboxConfig) (clock : AppendClock) :
    (append outbox clock e db).1 = .ok () ↔ n < maxSqliteInt ∧
      (dumps (.obj e.toDict)).length ≤ maxFrameBytes ∧ db.events.find? e.id = none ∧ (db.job? a).isSome = true := by
  have htext := toJson_ok_iff e
  unfold append appendStates
  rw [ha, hn]
  dsimp only
  by_cases hlimit : n ≥ maxSqliteInt
  · rw [if_pos hlimit]
    exact iff_of_false (fun h => (by cases h)) (fun h => absurd h.1 (by omega))
  · rw [if_neg hlimit, hfree]
    dsimp only
    rcases hjson : e.toJson with err | text
    · refine iff_of_false (fun h => (by cases h)) fun h => ?_
      obtain ⟨text, hok⟩ := htext.mpr h.2.1
      rw [hjson] at hok
      cases hok
    · have hshort := htext.mp ⟨text, hjson⟩
      by_cases hinsert : db.canInsertEvent (eventRow e.id a n e.type text clock.created) = true
      · have hsome : db.insertEvent (eventRow e.id a n e.type text clock.created) ≠ none := by
          unfold Db.insertEvent
          rw [dif_pos hinsert]
          exact Option.some_ne_none _
        obtain ⟨db', hdb'⟩ := Option.ne_none_iff_exists'.mp hsome
        simp only [Db.canInsertEvent, eventRow, Bool.and_eq_true, Option.isNone_iff_eq_none] at hinsert
        dsimp only
        rw [hdb']
        exact iff_of_true rfl ⟨by omega, hshort, hinsert.1.1, hinsert.2⟩
      · have hnone : db.insertEvent (eventRow e.id a n e.type text clock.created) = none := by
          unfold Db.insertEvent
          rw [dif_neg hinsert]
        dsimp only
        rw [hnone]
        refine iff_of_false (fun h => (by cases h)) fun h => hinsert ?_
        simp only [Db.canInsertEvent, eventRow, h.2.2.1, hfree, h.2.2.2, Option.isNone_none, Bool.and_self]

/-- The validation of a status event does not look at its payload. -/
theorem newEnvelope_payload {x : PublishInput} {b a : PyStr} {seq : ℕ} {e : Envelope}
    (h : newEnvelope x.now x.timestamp x.messageId .attemptStatus [] cfg.uplink.engineId (some b) (some a)
      (some seq) = .ok e) (payload : List (PyStr × Json)) :
    newEnvelope x.now x.timestamp x.messageId .attemptStatus payload cfg.uplink.engineId (some b) (some a)
      (some seq) = .ok (statusEvent cfg x payload b a seq) := by
  obtain ⟨rfl, e', hvalid⟩ := of_newEnvelope h
  have hsame : checkFields x.now allMessageTypes (statusEvent cfg x payload b a seq) =
      checkFields x.now allMessageTypes (statusEvent cfg x [] b a seq) := rfl
  have hvalid' : checkFields x.now allMessageTypes (statusEvent cfg x [] b a seq) = .ok () := by
    have hempty : validateEnvelope x.now [] (.obj (statusEvent cfg x [] b a seq).toDict) = .ok e' := hvalid
    rw [validateEnvelope_of_represents (represents_toDict _), if_pos rfl] at hempty
    rcases hc : checkFields x.now allMessageTypes (statusEvent cfg x [] b a seq) with err | u
    · rw [hc] at hempty
      cases hempty
    · rfl
  show (do
    let _ ← validateEnvelope x.now [] (.obj (statusEvent cfg x payload b a seq).toDict)
    return statusEvent cfg x payload b a seq) = _
  rw [validateEnvelope_of_represents (represents_toDict _), if_pos rfl, hsame, hvalid']
  rfl

/-- The outbox accepts writes: at this moment a status event of the attempt with nothing in it would be appended. -/
def Accepts (x : PublishInput) (b a : PyStr) (s : Store) : Prop :=
  ∃ e, (publishAttemptEvent cfg x .attemptStatus [] b a s).1 = .ok e

/-- The number of the next event of an attempt. -/
def nextNumber (a : PyStr) (s : Store) : ℕ := ((s.db.job? a).map (·.sequenceCursor)).getD 0 + 1

/-- What an outbox that accepts writes is given. -/
structure Accepted (x : PublishInput) (b a : PyStr) (s : Store) : Prop where
  seq : nextSeq a s.db = .ok (nextNumber a s)
  envelope : ∀ payload, newEnvelope x.now x.timestamp x.messageId .attemptStatus payload cfg.uplink.engineId
    (some b) (some a) (some (nextNumber a s)) = .ok (statusEvent cfg x payload b a (nextNumber a s))
  append : (append cfg.uplink.outbox x.clock (statusEvent cfg x [] b a (nextNumber a s)) s.db).1 = .ok ()

theorem accepted_of_accepts {x : PublishInput} {b a : PyStr} {s : Store} (h : Accepts cfg x b a s) :
    Accepted cfg x b a s := by
  obtain ⟨e, h⟩ := h
  unfold publishAttemptEvent at h
  rcases hseq : nextSeq a s.db with err | seq
  · rw [hseq] at h
    cases h
  rw [hseq] at h
  dsimp only at h
  have hnumber : seq = nextNumber a s := by
    unfold nextSeq at hseq
    unfold nextNumber
    rcases hr : s.db.job? a with _ | r
    · rw [hr] at hseq
      cases hseq
    · rw [hr] at hseq
      exact (Except.ok.inj hseq).symm
  subst hnumber
  rcases hnew : newEnvelope x.now x.timestamp x.messageId .attemptStatus [] cfg.uplink.engineId (some b) (some a)
      (some (nextNumber a s)) with err | e'
  · rw [hnew] at h
    cases h
  rw [hnew] at h
  dsimp only at h
  have he : e' = statusEvent cfg x [] b a (nextNumber a s) := (of_newEnvelope hnew).1
  subst he
  refine ⟨hseq, newEnvelope_payload cfg hnew, ?_⟩
  rcases happend : append cfg.uplink.outbox x.clock (statusEvent cfg x [] b a (nextNumber a s)) s.db with
    ⟨err | u, db⟩
  · rw [happend] at h
    cases h
  · rfl

/-- **Whether a status event is appended** to an outbox that accepts writes is a matter of its length. -/
theorem publish_ok_iff {x : PublishInput} {b a : PyStr} {s : Store} (hcover : CursorCovers s.db)
    (h : Accepts cfg x b a s) (payload : List (PyStr × Json)) :
    (publishAttemptEvent cfg x .attemptStatus payload b a s).1 = .ok (statusEvent cfg x payload b a (nextNumber a s)) ↔
      (dumps (.obj (statusEvent cfg x payload b a (nextNumber a s)).toDict)).length ≤ maxFrameBytes := by
  have hacc := accepted_of_accepts cfg h
  have hfree := hcover.next_unused hacc.seq
  obtain ⟨hlimit, -, hid, hrow⟩ := (append_ok_iff rfl rfl hfree _ _).mp hacc.append
  have happend := append_ok_iff (e := statusEvent cfg x payload b a (nextNumber a s)) rfl rfl hfree
    cfg.uplink.outbox x.clock
  unfold publishAttemptEvent
  rw [hacc.seq]
  dsimp only
  rw [hacc.envelope payload]
  dsimp only
  constructor
  · intro hok
    rcases hresult : append cfg.uplink.outbox x.clock (statusEvent cfg x payload b a (nextNumber a s)) s.db with
      ⟨err | u, db⟩
    · rw [hresult] at hok
      cases hok
    · exact (happend.mp (by rw [hresult])).2.1
  · intro hshort
    have hok := happend.mpr ⟨hlimit, hshort, hid, hrow⟩
    rcases hresult : append cfg.uplink.outbox x.clock (statusEvent cfg x payload b a (nextNumber a s)) s.db with
      ⟨err | u, db⟩
    · rw [hresult] at hok
      cases hok
    · rfl

/-! ### The worker -/

/-- The cursors cover the events in every state of the pool. -/
theorem covers_step {s : State} (h : CursorCovers s.store.db) (act : Action) :
    CursorCovers (step cfg s act).store.db := by
  rcases calls_step cfg s act with hcalls | ⟨now, b, a, payload, -, -, -, hs⟩ | ⟨now, b, a, explicit, -, -, hs⟩
  · exact hcalls.rel (R := fun t u : Store => CursorCovers t.db → CursorCovers u.db) (fun _ ht => ht)
      (fun _ _ _ htu huv ht => huv (htu ht)) (fun _ op _ ht => ht.apply op) h
  · rw [hs]
    exact h.apply _
  · rw [hs]
    exact h.apply _

theorem covers_run (acts : List Action) : CursorCovers (run (step cfg) State.init acts).store.db := by
  have hinit : CursorCovers State.init.store.db := fun f hf => absurd hf List.not_mem_nil
  exact run_invariant (I := fun s : State => CursorCovers s.store.db) (fun s act hs => covers_step cfg hs act) acts
    hinit

/-- The terminal status of the failure is appended when the worker reports it. -/
def Appended (s : State) (w : ℕ) (l : QueueLease) (e : BuildExecutionError) (st : JobState) (x : PublishInput) :
    Prop :=
  ∃ r, (step cfg s (.work w (.ackFailed x))).published = s.published ++ [r] ∧ r.event.type = .attemptStatus ∧
    r.event.attemptId = some l.job.attemptId ∧
    r.event.payload = ackPayload l.job.buildJobId l.job.attemptId st.text (some e)

/-- The report of a worker, in a state whose cursors cover its events. -/
theorem appended_iff {s : State} (hcover : CursorCovers s.store.db) {w : ℕ} {l : QueueLease}
    {e : BuildExecutionError} {st : JobState} {x : PublishInput} (hphase : s.workers w = .reportingState l e st)
    (haccepts : Accepts cfg x l.job.buildJobId l.job.attemptId s.store) : Appended cfg s w l e st x ↔
      reportLength (formatTimestamp x.timestamp) (nextNumber l.job.attemptId s.store) st e ≤ maxFrameBytes := by
  have hacc := accepted_of_accepts cfg haccepts
  obtain ⟨-, e', hvalid⟩ := of_newEnvelope (hacc.envelope [])
  have hshape := shape_of_validate hvalid
  have hpublish := publish_ok_iff cfg hcover haccepts
    (ackPayload l.job.buildJobId l.job.attemptId st.text (some e))
  rw [length_report cfg hshape.id hshape.engineId hshape.buildJobId hshape.attemptId] at hpublish
  rw [← hpublish]
  have hstep : (step cfg s (.work w (.ackFailed x))).published = (publish cfg x .attemptStatus
      (ackPayload l.job.buildJobId l.job.attemptId st.text (some e)) l.job.buildJobId l.job.attemptId s).2.published := by
    dsimp only [step]
    rw [hphase]
    rfl
  unfold Appended
  rw [hstep]
  unfold publish
  rcases hresult : publishAttemptEvent cfg x .attemptStatus
      (ackPayload l.job.buildJobId l.job.attemptId st.text (some e)) l.job.buildJobId l.job.attemptId s.store with
    ⟨err | event, store⟩
  · refine iff_of_false ?_ fun h => (by cases h)
    rintro ⟨r, hr, -⟩
    have hlength := congrArg List.length hr
    rw [List.length_append, List.length_singleton] at hlength
    dsimp only at hlength
    omega
  · obtain ⟨htype, hpayload, hattempt, -⟩ := publishAttemptEvent_ok cfg (congrArg Prod.fst hresult)
    constructor
    · intro _
      have hevent : event = statusEvent cfg x (ackPayload l.job.buildJobId l.job.attemptId st.text (some e))
          l.job.buildJobId l.job.attemptId (nextNumber l.job.attemptId s.store) := by
        unfold publishAttemptEvent at hresult
        rw [hacc.seq] at hresult
        dsimp only at hresult
        rw [hacc.envelope] at hresult
        dsimp only at hresult
        split at hresult
        · cases hresult
        · cases hresult
          rfl
      rw [hevent]
    · intro _
      exact ⟨_, rfl, htype, hattempt, hpayload⟩

/-- A worker whose build fails goes on to report its error. -/
theorem workers_raised {s : State} {w : ℕ} {l : QueueLease} {r : Raised} {e : BuildExecutionError} (now : Instant)
    (mtime : ℤ) (hphase : s.workers w = .building l) (hr : r.failure = .build e)
    (hretain : cfg.retainFailedWorkspaces = false) :
    (step cfg s (.work w (.raised r now mtime))).workers w = .reportingError l e (some e.target) := by
  have hclean : cleanupWorkspace l.job.attemptId (r.retainFailed && cfg.retainFailedWorkspaces)
      cfg.failedWorkspaceKeep mtime s.disk = some ([l.job.attemptId], s.disk.delete (named l.job.attemptId)) := by
    rw [hretain, Bool.and_false]
    rfl
  dsimp only [step]
  rw [hphase]
  dsimp only [work]
  unfold unwind
  rw [hclean]
  dsimp only
  rw [hr]
  exact State.setWorker_self _ _ _

/-- Then it goes on to report the state, whether the error could be published or not. -/
theorem step_publishError {s : State} {w : ℕ} {l : QueueLease} {e : BuildExecutionError} {st : JobState}
    (x : PublishInput) (hphase : s.workers w = .reportingError l e (some st)) :
    (step cfg s (.work w (.publishError x))).workers w = .reportingState l e st ∧
    (step cfg s (.work w (.publishError x))).store =
      (publishAttemptEvent cfg x .error (errorPayload e) l.job.buildJobId l.job.attemptId s.store).2 := by
  dsimp only [step]
  rw [hphase]
  refine ⟨State.setWorker_self _ _ _, ?_⟩
  show (publish cfg x .error (errorPayload e) l.job.buildJobId l.job.attemptId s).2.store = _
  unfold publish
  split <;> next h => rw [h]

omit [PyDatetime] in
theorem length_le_strText (s : PyStr) : s.length ≤ (strText s).length := by
  have hescape : ∀ t : PyStr, t.length ≤ (t.flatMap escape).length := by
    intro t
    induction t with
    | nil => exact le_rfl
    | cons c t ih =>
      have hc : 1 ≤ (escape c).length := by
        obtain ⟨d, t', h, -⟩ := Toml.escape_head c []
        rw [List.append_nil] at h
        rw [h, List.length_cons]
        omega
      rw [List.flatMap_cons, List.length_cons, List.length_append]
      omega
  have hlength := hescape s
  unfold strText
  rw [List.length_cons, List.length_append, List.length_singleton]
  omega

/-- The error event of a long message is not published either, and the store stays as it is. -/
theorem publish_error_long {s : Store} (hcover : CursorCovers s.db) {e : BuildExecutionError}
    (hlong : maxFrameBytes ≤ e.message.length) (x : PublishInput) (b a : PyStr) :
    (publishAttemptEvent cfg x .error (errorPayload e) b a s).2 = s := by
  have hmessage := length_le_strText e.message
  rcases publishAttemptEvent_cases cfg hcover x .error (errorPayload e) b a with ⟨err, h⟩ | ⟨event, db', r, h, -⟩
  · rw [h]
  · exfalso
    have hfirst := congrArg Prod.fst h
    unfold publishAttemptEvent at hfirst
    rcases hseq : nextSeq a s.db with err | seq
    · rw [hseq] at hfirst
      cases hfirst
    rw [hseq] at hfirst
    dsimp only at hfirst
    rcases hnew : newEnvelope x.now x.timestamp x.messageId .error (errorPayload e) cfg.uplink.engineId (some b)
        (some a) (some seq) with err | made
    · rw [hnew] at hfirst
      cases hfirst
    rw [hnew] at hfirst
    dsimp only at hfirst
    obtain ⟨rfl, -⟩ := of_newEnvelope hnew
    split at hfirst
    · cases hfirst
    · next happend =>
      have hok := (append_ok_iff rfl rfl (hcover.next_unused hseq) cfg.uplink.outbox x.clock).mp
        (congrArg Prod.fst happend)
      have hshort := hok.2.1
      have hstr : ∀ s : PyStr, dumps (.str s) = strText s := fun s => by rw [dumps]
      have hpayload : (strText e.message).length ≤ (dumps (.obj (errorPayload e))).length := by
        have hne : errorPayload e ≠ [] := List.cons_ne_nil _ _
        rw [length_dumps_obj hne]
        simp only [errorPayload, List.map_cons, List.map_nil, List.sum_cons, List.sum_nil, memberLength, hstr]
        omega
      rw [length_dumps_obj (by exact List.cons_ne_nil _ _)] at hshort
      simp only [Envelope.toDict, optionalMember, Option.map_some, List.cons_append, List.nil_append, List.map_cons,
        List.map_nil, List.sum_cons, List.sum_nil, memberLength] at hshort
      omega

end Datetime

/-- The lease of a worker that is building. -/
def building? : Phase → Option QueueLease
  | .building l => some l
  | _ => none

theorem eq_building {p : Phase} {l : QueueLease} (h : building? p = some l) : p = .building l := by
  rcases p with _ | l' | l' | l' | l' | ⟨l', e, _ | st'⟩ | ⟨l', e, st'⟩ <;> cases h
  rfl

theorem building_leased : ∃ l, (run (@JobLoop.step firstDay sampleLoop) State.init assignActs).workers 0 =
    .building l ∧ l.job.buildJobId = sampleBuild ∧ l.job.attemptId = sampleAttempt := by
  have hlease : (building? ((run (@JobLoop.step firstDay sampleLoop) State.init assignActs).workers 0)).map (fun l => (l.job.buildJobId, l.job.attemptId)) =
      some (sampleBuild, sampleAttempt) := by decide +kernel
  obtain ⟨l, hl, hids⟩ := Option.map_eq_some_iff.mp hlease
  exact ⟨l, eq_building hl, congrArg Prod.fst hids, congrArg Prod.snd hids⟩

/-- The build fails for a reason, and the error is published or lost. -/
def failing (r : Raised) : List Action :=
  assignActs ++ [.work 0 (.raised r (seconds 3) 0), .work 0 (.publishError (publishAt 3))]

theorem run_failing (r : Raised) : run (@JobLoop.step firstDay sampleLoop) State.init (failing r) =
    @JobLoop.step firstDay sampleLoop (@JobLoop.step firstDay sampleLoop
      (run (@JobLoop.step firstDay sampleLoop) State.init assignActs) (.work 0 (.raised r (seconds 3) 0)))
      (.work 0 (.publishError (publishAt 3))) := by
  unfold failing
  exact run_concat_two _ _ _ _ _

/-- The worker is about to report the state. -/
theorem reporting_failing {r : Raised} {e : BuildExecutionError} (hr : r.failure = .build e) :
    ∃ l, (run (@JobLoop.step firstDay sampleLoop) State.init (failing r)).workers 0 =
        .reportingState l e e.target ∧
      l.job.buildJobId = sampleBuild ∧ l.job.attemptId = sampleAttempt ∧
      (run (@JobLoop.step firstDay sampleLoop) State.init (failing r)).store =
        (@publishAttemptEvent firstDay sampleLoop (publishAt 3) .error (errorPayload e) sampleBuild sampleAttempt
          (@JobLoop.step firstDay sampleLoop (run (@JobLoop.step firstDay sampleLoop) State.init assignActs)
            (.work 0 (.raised r (seconds 3) 0))).store).2 := by
  obtain ⟨l, hl, hb, ha⟩ := building_leased
  rw [run_failing]
  generalize run (@JobLoop.step firstDay sampleLoop) State.init assignActs = s at hl ⊢
  have hraised := @workers_raised firstDay sampleLoop s 0 l r e (seconds 3) 0 hl hr rfl
  have hreporting := @step_publishError firstDay sampleLoop _ 0 l e e.target (publishAt 3) hraised
  rw [hb, ha] at hreporting
  exact ⟨l, hreporting.1, hb, ha, hreporting.2⟩

/-- The outbox of the sample pool takes an event without content. -/
def acceptsSample (s : Store) : Bool :=
  (@publishAttemptEvent firstDay sampleLoop (publishAt 4) .attemptStatus [] sampleBuild sampleAttempt s).1.toOption.isSome

theorem accepts_of_sample {s : Store} (h : acceptsSample s = true) :
    @Accepts firstDay sampleLoop (publishAt 4) sampleBuild sampleAttempt s := by
  unfold acceptsSample at h
  unfold Accepts
  rcases hresult : (@publishAttemptEvent firstDay sampleLoop (publishAt 4) .attemptStatus [] sampleBuild sampleAttempt
      s).1 with err | e
  · rw [hresult] at h
    cases h
  · exact ⟨e, rfl⟩

theorem accepts_exit :
    acceptsSample (run (@JobLoop.step firstDay sampleLoop) State.init (failing (.build exitError))).store = true ∧
    reportLength (@formatTimestamp firstDay (publishAt 4).timestamp) (nextNumber sampleAttempt
      (run (@JobLoop.step firstDay sampleLoop) State.init (failing (.build exitError))).store) exitError.target
      exitError ≤ maxFrameBytes := by
  decide +kernel

/-- An upload that fails with a response of one megabyte. -/
def longError : BuildExecutionError :=
  ⟨py "EXEC_INFRA", py "STORAGE_FAILURE", List.replicate maxFrameBytes (ch 'x')⟩

theorem accepts_long : acceptsSample
    (@JobLoop.step firstDay sampleLoop (run (@JobLoop.step firstDay sampleLoop) State.init assignActs)
      (.work 0 (.raised (.upload longError.message) (seconds 3) 0))).store = true := by
  decide +kernel

end BuildEngine.Agent.ReportSize
