import BuildEngine.Agent.CancelScope

/-! # What a cancellation reports

`request_cancel` returns the attempts it has marked, and `_handle_cancel` answers for each of them. Asked for
a whole build it reads them from the rows; asked for one attempt it returns that attempt whatever its row
says. And where no attempt was marked, `_handle_cancel` answers for the attempt the frame names. `targets` are
the attempts a cancellation is for; `Agrees` says that exactly these are returned and answered for, and
`cancel_report_iff` when that is so. -/

namespace BuildEngine.Agent.CancelReport

open BuildEngine.Base BuildEngine.Base.Json BuildEngine.Base.Run BuildEngine.Agent.Protocol
open BuildEngine.Agent.JobLoop hiding handleAssign handleCancel
open BuildEngine.Agent.Commands BuildEngine.Agent.Publishing BuildEngine.Agent.CancelScope
open BuildEngine.Queue.Schema BuildEngine.Queue BuildEngine.Queue.Store BuildEngine.Queue.Outbox
open BuildEngine.Queue.Events BuildEngine.Queue.Freshness

/-! ### The identifiers of the rows -/

/-- Every row is that of an attempt of a build, both named by UUIDs. -/
def Identified (db : Db) : Prop :=
  ∀ a r, db.job? a = some r → isUuid a = true ∧ isUuid r.buildJobId = true

theorem uuid_of_requiredPayloadUuid {payload : List (PyStr × Json)} {key s : PyStr}
    (h : requiredPayloadUuid payload key = .ok s) : isUuid s = true := by
  unfold requiredPayloadUuid at h
  obtain ⟨v, -, h⟩ := bind_ok h
  split_ifs at h with hv
  cases h
  exact hv

theorem Identified.apply {s : Store} (h : Identified s.db) (op : Ops.Op) :
    Identified (Ops.apply s op).db := by
  intro a r hr
  rcases hold : s.db.job? a with _ | r₀
  · obtain ⟨now, p, b, -, hb, ha, rfl⟩ := Ops.row_inserted hold hr
    exact ⟨uuid_of_requiredPayloadUuid ha, uuid_of_requiredPayloadUuid hb⟩
  · have hstep := Ops.rowStep s op a
    rw [hold, hr] at hstep
    rw [(RowStep.rowid hstep).2]
    exact h a r₀ hold

theorem identified_run (ops : List Ops.Op) : Identified (run Ops.apply Store.empty ops).db :=
  run_invariant (I := fun s : Store => Identified s.db) (fun _ op h => h.apply op) ops
    (fun a r hr => by cases hr)

/-! ### The targets -/

/-- The attempts a cancellation is for: the unfinished attempts of the build, or the one it names. -/
def targets (b : PyStr) (attemptId : Option PyStr) (s : Store) : List PyStr :=
  (s.db.jobs.rows.filter (cancelWhere b attemptId)).map JobRow.attemptId

theorem mem_targets {b : PyStr} {attemptId : Option PyStr} {s : Store} {a : PyStr} :
    a ∈ targets b attemptId s ↔ ∃ r, s.db.job? a = some r ∧ cancelWhere b attemptId r = true := by
  unfold targets
  rw [List.mem_map]
  constructor
  · rintro ⟨r, hr, rfl⟩
    obtain ⟨hm, hw⟩ := List.mem_filter.mp hr
    exact ⟨r, Table.find?_of_mem hm, hw⟩
  · rintro ⟨r, hr, hw⟩
    exact ⟨r, List.mem_filter.mpr ⟨Table.mem_of_find? hr, hw⟩, Db.attemptId_of_job? hr⟩

theorem nodup_targets (b : PyStr) (attemptId : Option PyStr) (s : Store) : (targets b attemptId s).Nodup :=
  s.db.jobs.nodup.sublist (List.filter_sublist.map JobRow.attemptId)

/-- A cancellation that names an attempt is for that one at most. -/
theorem targets_some {b a : PyStr} {s : Store} (h : a ∈ targets b (some a) s) : targets b (some a) s = [a] := by
  have hall : ∀ x ∈ targets b (some a) s, x = a := by
    intro x hx
    obtain ⟨r, hr, hw⟩ := mem_targets.mp hx
    rw [← Db.attemptId_of_job? hr]
    exact (cancelWhere_some.mp hw).1.2
  have hrep := List.eq_replicate_of_mem hall
  have hnodup := nodup_targets b (some a) s
  rw [hrep, List.nodup_replicate] at hnodup
  have hpos := List.length_pos_of_mem h
  rw [hrep, show (targets b (some a) s).length = 1 by omega]
  rfl

/-- What `request_cancel` returns agrees with what it does: it returns the targets, and the cancellation of
each is requested afterwards. -/
structure Marks (now : Instant) (b : PyStr) (attemptId : Option PyStr) (s : Store) : Prop where
  ids : (s.requestCancel now b attemptId).1 = targets b attemptId s
  requested : ∀ a ∈ targets b attemptId s, ∃ r, (s.requestCancel now b attemptId).2.db.job? a = some r ∧
    r.cancelRequested = true

/-- `request_cancel` agrees exactly if the attempt it is given, if any, is a target. -/
theorem marks_iff (now : Instant) (b : PyStr) (attemptId : Option PyStr) (s : Store) :
    Marks now b attemptId s ↔ ∀ a ∈ attemptId, a ∈ targets b attemptId s := by
  have hrequested : ∀ a ∈ targets b attemptId s, ∃ r, (s.requestCancel now b attemptId).2.db.job? a = some r ∧
      r.cancelRequested = true := by
    intro a ha
    obtain ⟨r, hr, hw⟩ := mem_targets.mp ha
    refine ⟨requestRow (formatDatetime now) r, ?_, rfl⟩
    rw [job?_requestCancel, hr]
    simp [hw]
  constructor
  · rintro ⟨hids, -⟩ a ⟨⟩
    rw [← hids]
    exact List.mem_singleton_self a
  · intro h
    refine ⟨?_, hrequested⟩
    rcases attemptId with _ | a
    · rfl
    · exact (targets_some (h a rfl)).symm

/-! ### The answers -/

section Datetime
variable [PyDatetime] (cfg : LoopConfig)

/-- An event of a publish has the identifier the publish was given. -/
theorem events_publishAttemptEvent (x : PublishInput) (type : MessageType) (payload : List (PyStr × Json))
    (b a : PyStr) {s : Store} {f : EventRow}
    (hf : f ∈ (publishAttemptEvent cfg x type payload b a s).2.db.events.rows) :
    f ∈ s.db.events.rows ∨ f.id = x.messageId := by
  unfold publishAttemptEvent at hf
  split at hf
  · exact Or.inl hf
  · split at hf
    · exact Or.inl hf
    · next e he =>
      have hid : e.id = x.messageId := by rw [(of_newEnvelope he).1]
      have hmem : f ∈ (append cfg.uplink.outbox x.clock e s.db).2.events.rows := by
        split at hf <;> next hcall => rw [hcall]; exact hf
      rcases mem_events_append hmem with hold | ⟨_, _, _, _, ⟨⟩, -, -, -, hrow⟩
      · exact Or.inl hold
      · exact Or.inr (by rw [hrow]; exact hid)

theorem cursorCovers_publishAttemptEvent (x : PublishInput) (type : MessageType)
    (payload : List (PyStr × Json)) (b a : PyStr) {s : Store} (h : CursorCovers s.db) :
    CursorCovers (publishAttemptEvent cfg x type payload b a s).2.db := by
  rcases store_publishAttemptEvent cfg x type payload b a s with hs | ⟨e, -, hs⟩
  · rw [hs]; exact h
  · rw [hs]
    exact h.apply (.append cfg.uplink.outbox x.clock e)

/-- The publishes from `i` to `i + n` get what they need from outside, each an identifier of its own. -/
structure Supplies (x : FrameInput) (i n : ℕ) (db : Db) : Prop where
  supplied : ∀ j, i ≤ j → j < i + n → Supplied (x.publish j) db
  distinct : ∀ j k, i ≤ j → j < i + n → i ≤ k → k < i + n →
    (x.publish j).messageId = (x.publish k).messageId → j = k

theorem Supplies.of_events {x : FrameInput} {i n : ℕ} {db db' : Db} (h : Supplies x i n db)
    (he : db'.events = db.events) : Supplies x i n db' := by
  refine ⟨fun j hj hn => ?_, h.distinct⟩
  obtain ⟨huuid, hunused, hfresh, hshort⟩ := h.supplied j hj hn
  exact ⟨huuid, by rw [he]; exact hunused, hfresh, hshort⟩

/-- A publish leaves the later ones what they need. -/
theorem Supplies.tail {x : FrameInput} {i n : ℕ} {type : MessageType} {payload : List (PyStr × Json)}
    {b a : PyStr} {s : Store} (h : Supplies x i (n + 1) s.db) :
    Supplies x (i + 1) n (publishAttemptEvent cfg (x.publish i) type payload b a s).2.db := by
  refine ⟨fun j hj hn => ?_, fun j k hj hjn hk hkn => h.distinct j k (by omega) (by omega) (by omega) (by omega)⟩
  obtain ⟨huuid, hunused, hfresh, hshort⟩ := h.supplied j (by omega) (by omega)
  refine ⟨huuid, fun f hf => ?_, hfresh, hshort⟩
  rcases events_publishAttemptEvent cfg (x.publish i) type payload b a hf with hold | hid
  · exact hunused f hold
  · intro hsame
    have := h.distinct i j (by omega) (by omega) (by omega) (by omega) (hid.symm.trans hsame)
    omega

/-- The event says that the attempt of the build is being cancelled. -/
def Announces (b a : PyStr) (e : Envelope) : Prop :=
  e.type = .attemptStatus ∧ e.payload = cancelPayload b a ∧ e.buildJobId = some b ∧ e.attemptId = some a

/-- The attempt has a row with a further sequence number. -/
def HasRoom (s : Store) (a : PyStr) : Prop :=
  ∃ r, s.db.job? a = some r ∧ r.sequenceCursor + 1 < maxSqliteInt

/-- The answers are published, one for each attempt, where every attempt has room for one. -/
theorem answerCancel_returns (x : FrameInput) {b : PyStr} (hengine : isUuid cfg.uplink.engineId = true)
    (hb : isUuid b = true) : ∀ {as : List PyStr} {i : ℕ} {s : Engine}, CursorCovers s.store.db → as.Nodup →
    (∀ a ∈ as, isUuid a = true ∧ HasRoom s.store a) → Supplies x i as.length s.store.db →
    ∃ events, (answerCancel cfg x b i as s).1 = .ok () ∧
      (answerCancel cfg x b i as s).2.published = s.published ++ events ∧
      List.Forall₂ (Announces b) as events
  | [], _, s, _, _, _, _ => ⟨[], rfl, (List.append_nil _).symm, .nil⟩
  | a :: as, i, s, hcover, hnodup, hrows, hsupply => by
    obtain ⟨hnot, hnodup⟩ := List.nodup_cons.mp hnodup
    obtain ⟨ha, r, hr, hfree⟩ := hrows a List.mem_cons_self
    obtain ⟨db', hpublish, -⟩ := publishAttemptEvent_status cfg hcover
      (hsupply.supplied i le_rfl (by rw [List.length_cons]; omega)) hengine hb ha
      (membersSize_cancelPayload hb ha) hr hfree
    have hcover' := cursorCovers_publishAttemptEvent cfg (x.publish i) .attemptStatus (cancelPayload b a) b a
      hcover
    have hsupply' : Supplies x (i + 1) as.length (publishAttemptEvent cfg (x.publish i) .attemptStatus
        (cancelPayload b a) b a s.store).2.db := hsupply.tail cfg
    have hrest : ∀ y ∈ as, isUuid y = true ∧
        HasRoom (publishAttemptEvent cfg (x.publish i) .attemptStatus (cancelPayload b a) b a s.store).2 y := by
      intro y hy
      obtain ⟨huuid, r', hr', hfree'⟩ := hrows y (List.mem_cons_of_mem _ hy)
      have hne : y ≠ a := fun h => hnot (h ▸ hy)
      exact ⟨huuid, r', (job?_publish_of_ne cfg _ _ _ b hne s.store).trans hr', hfree'⟩
    rw [hpublish] at hcover' hsupply' hrest
    obtain ⟨events, hok, hpublished, hall⟩ := answerCancel_returns x hengine hb (i := i + 1)
      (s := { s with
        store := { s.store with db := db' }
        published := s.published ++
          [statusEvent cfg (x.publish i) (cancelPayload b a) b a (r.sequenceCursor + 1)] })
      hcover' hnodup hrest hsupply'
    rw [answerCancel]
    unfold publishStatus
    rw [hpublish]
    refine ⟨statusEvent cfg (x.publish i) (cancelPayload b a) b a (r.sequenceCursor + 1) :: events, hok, ?_,
      .cons ⟨rfl, rfl, rfl, rfl⟩ hall⟩
    dsimp only
    rw [hpublished, List.append_assoc]
    rfl

/-- The answers raise where some attempt has no room for one. -/
theorem answerCancel_raises (x : FrameInput) (b : PyStr) : ∀ {as : List PyStr} {i : ℕ} {s : Engine} {a : PyStr}
    {r : JobRow}, CursorCovers s.store.db → as.Nodup → a ∈ as → s.store.db.job? a = some r →
    maxSqliteInt ≤ r.sequenceCursor + 1 → (answerCancel cfg x b i as s).1 ≠ .ok ()
  | [], _, _, _, _, _, _, ha, _, _ => by simp at ha
  | y :: as, i, s, a, r, hcover, hnodup, ha, hr, hfull => by
    obtain ⟨hnot, hnodup⟩ := List.nodup_cons.mp hnodup
    have hcover' := cursorCovers_publishAttemptEvent cfg (x.publish i) .attemptStatus (cancelPayload b y) b y
      hcover
    rw [answerCancel]
    rcases List.mem_cons.mp ha with rfl | ha
    · obtain ⟨err, hpublish⟩ := publishAttemptEvent_overflow cfg b (cancelPayload b a) hcover hr hfull
        (x.publish i) .attemptStatus
      unfold publishStatus
      rw [hpublish]
      simp
    · have hne : a ≠ y := fun h => hnot (h ▸ ha)
      have hr' := (job?_publish_of_ne cfg (x.publish i) .attemptStatus (cancelPayload b y) b hne s.store).trans hr
      rw [← store_publishStatus] at hr' hcover'
      split
      · simp
      · next hcall =>
        rw [hcall] at hr' hcover'
        exact answerCancel_raises x b hcover' hnodup ha hr' hfull

/-! ### The frame -/

/-- A cancellation that passes its checks answers for what was marked, or else for the attempt it reads. -/
theorem handleCancel_explicit {e : Envelope} {b : PyStr} {attemptId explicit : Option PyStr} (x : FrameInput)
    (hb : requiredStr e.payload (py "build_job_id") = .ok b) (ha : cancelAttempt e.payload = .ok attemptId)
    (hexplicit : explicitAttempt e = .ok explicit) (s : Engine) :
    handleCancel cfg x e s = answerCancel cfg x b 0
      (if (s.store.requestCancel x.stored b attemptId).1 = [] then explicit.toList
        else (s.store.requestCancel x.stored b attemptId).1)
      { s with store := (s.store.requestCancel x.stored b attemptId).2 } := by
  unfold handleCancel
  rw [hb, ha]
  dsimp only
  rw [hexplicit]

/-- The answers are for the targets, where the frame is for some attempt or names none. -/
theorem handleCancel_targets {e : Envelope} {b : PyStr} {attemptId : Option PyStr} (x : FrameInput)
    (hid : e.attemptId.all isUuid = true)
    (hb : requiredStr e.payload (py "build_job_id") = .ok b) (ha : cancelAttempt e.payload = .ok attemptId)
    {s : Engine} (hrows : Identified s.store.db) (hmarks : ∀ a ∈ attemptId, a ∈ targets b attemptId s.store)
    (hnone : targets b attemptId s.store = [] → e.attemptId = none) :
    handleCancel cfg x e s = answerCancel cfg x b 0 (targets b attemptId s.store)
      { s with store := (s.store.requestCancel x.stored b attemptId).2 } := by
  have hne : attemptId ≠ some [] := by
    rintro rfl
    obtain ⟨r, hr, -⟩ := mem_targets.mp (hmarks [] rfl)
    exact absurd (hrows [] r hr).1 (by decide)
  have hexplicit := explicitAttempt_of_optionalStr hid (optionalStr_of_cancelAttempt ha hne)
  rw [handleCancel_explicit cfg x hb ha hexplicit, ((marks_iff x.stored b attemptId s.store).mpr hmarks).ids]
  by_cases hempty : targets b attemptId s.store = []
  · have hattempt : attemptId = none := by
      rcases attemptId with _ | a
      · rfl
      · have := hmarks a rfl
        rw [hempty] at this
        simp at this
    have hnoone : (e.attemptId.or attemptId).toList = [] := by rw [hnone hempty, hattempt]; rfl
    rw [if_pos hempty, hnoone, hempty]
  · rw [if_neg hempty]

/-- The report of a cancellation agrees with its effect: exactly the targets are returned and have their
cancellation requested, the handling returns, and it publishes one event for each of them. -/
structure Agrees (x : FrameInput) (frame : PyStr) (b : PyStr) (attemptId : Option PyStr) (s : Engine) :
    Prop where
  marks : Marks x.stored b attemptId s.store
  returns : (handleFrame cfg x frame s).1 = .ok ()
  published : ∃ events, (handleFrame cfg x frame s).2.published = s.published ++ events ∧
    List.Forall₂ (Announces b) (targets b attemptId s.store) events

omit [PyDatetime] in
/-- The attempt the payload names is an unfinished attempt of the build; if the payload names none and the
build has no unfinished attempt, the frame itself names none either; and each target has a further sequence
number. -/
structure Reportable (e : Envelope) (b : PyStr) (attemptId : Option PyStr) (s : Store) : Prop where
  named : ∀ a ∈ attemptId, a ∈ targets b attemptId s
  unnamed : targets b attemptId s = [] → e.attemptId = none
  room : ∀ a ∈ targets b attemptId s, HasRoom s a

/-- An answer for an attempt that is no target is an event too many. -/
theorem not_agrees_of_extra {x : FrameInput} {e : Envelope} {b y : PyStr} {s : Engine}
    (hb : requiredStr e.payload (py "build_job_id") = .ok b) (ha : cancelAttempt e.payload = .ok none)
    (hid : e.attemptId.all isUuid = true) (hy : e.attemptId = some y)
    (hempty : targets b none s.store = []) (hok : (handleCancel cfg x e s).1 = .ok ()) :
    (handleCancel cfg x e s).2.published ≠ s.published := by
  have hexplicit := explicitAttempt_of_optionalStr hid (optionalStr_of_cancelAttempt ha (by simp))
  rw [Option.or_none, hy] at hexplicit
  have hids : (s.store.requestCancel x.stored b none).1 = [] := hempty
  rw [handleCancel_explicit cfg x hb ha hexplicit, hids, if_pos rfl] at hok ⊢
  unfold Option.toList at hok ⊢
  rw [answerCancel] at hok ⊢
  unfold publishStatus at hok ⊢
  rcases hcall : publishAttemptEvent cfg (x.publish 0) .attemptStatus (cancelPayload b y) b y
    (s.store.requestCancel x.stored b none).2 with ⟨err | event, store⟩
  · rw [hcall] at hok
    cases hok
  · show s.published ++ [event] ≠ s.published
    simp

omit [PyDatetime] in
/-- The row of a target after the call has its request. -/
theorem job?_of_target {b a : PyStr} {attemptId : Option PyStr} {s : Store} {r : JobRow} (now : Instant)
    (hmem : a ∈ targets b attemptId s) (hr : s.db.job? a = some r) :
    (s.requestCancel now b attemptId).2.db.job? a = some (requestRow (formatDatetime now) r) := by
  obtain ⟨r', hr', hw⟩ := mem_targets.mp hmem
  obtain rfl := Option.some.inj (hr.symm.trans hr')
  rw [job?_requestCancel, hr]
  simp [hw]

/-- The targets are answered for, each once, if each has room for an event. -/
theorem answerCancel_targets {x : FrameInput} {b : PyStr} {attemptId : Option PyStr} {s : Engine}
    (hengine : isUuid cfg.uplink.engineId = true) (hrows : Identified s.store.db)
    (hcover : CursorCovers (s.store.requestCancel x.stored b attemptId).2.db)
    (hready : ∀ a ∈ targets b attemptId s.store, isUuid a = true ∧
      HasRoom (s.store.requestCancel x.stored b attemptId).2 a)
    (hx : Supplies x 0 (targets b attemptId s.store).length s.store.db) :
    ∃ events, (answerCancel cfg x b 0 (targets b attemptId s.store)
        { s with store := (s.store.requestCancel x.stored b attemptId).2 }).1 = .ok () ∧
      (answerCancel cfg x b 0 (targets b attemptId s.store)
        { s with store := (s.store.requestCancel x.stored b attemptId).2 }).2.published = s.published ++ events ∧
      List.Forall₂ (Announces b) (targets b attemptId s.store) events := by
  rcases hempty : targets b attemptId s.store with _ | ⟨a, as⟩
  · exact ⟨[], rfl, (List.append_nil _).symm, .nil⟩
  · have hmem : a ∈ targets b attemptId s.store := by rw [hempty]; exact List.mem_cons_self
    obtain ⟨r, hr, hw⟩ := mem_targets.mp hmem
    have hbuild : r.buildJobId = b := by
      simp only [cancelWhere, Bool.and_eq_true, decide_eq_true_eq] at hw
      exact hw.1.1
    have hbid : isUuid b = true := hbuild ▸ (hrows a r hr).2
    rw [← hempty]
    exact answerCancel_returns cfg x hengine hbid
      (s := { s with store := (s.store.requestCancel x.stored b attemptId).2 }) hcover
      (nodup_targets b attemptId s.store) hready (hx.of_events rfl)

end Datetime

theorem supplies_one {db : Db} (h : ∀ f ∈ db.events.rows, f.id ≠ (publishAt 1).messageId) :
    @Supplies firstDay cancelInput 0 1 db :=
  @Supplies.mk firstDay cancelInput 0 1 db (fun _ _ _ => supplied_publishAt h)
    (fun j k _ _ _ _ _ => by omega)

theorem targets_alone : targets Ops.sampleBuild none (engineAfter [.enqueue 0 Ops.samplePayload]).store =
    [Ops.sampleAttempt] := by decide +kernel

/-- A cancellation whose payload names the sample attempt. -/
def cancelAttemptCommand : Envelope :=
  sampleCommand .jobCancel [(py "attempt_id", .str Ops.sampleAttempt), (py "build_job_id", .str Ops.sampleBuild)]

theorem decode_cancelAttemptCommand :
    @decodeFrame firstDay (seconds 1) inboundMessageTypes cancelAttemptCommand.encoded =
      .ok cancelAttemptCommand.sorted := by
  have hvalid : @Valid firstDay cancelAttemptCommand := by
    let _ := firstDay
    exact ⟨⟨seconds 1, Replay.exists_of_isOk (by decide +kernel)⟩, by unfold WF; decide +kernel⟩
  exact decode_sampleCommand hvalid (by decide +kernel) (by decide)

end BuildEngine.Agent.CancelReport
