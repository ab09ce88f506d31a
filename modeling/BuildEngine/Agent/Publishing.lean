import BuildEngine.Base.JsonSize
import BuildEngine.Agent.Commands
import BuildEngine.Queue.Events

/-! # When a publish succeeds

`publish_attempt_event` takes its number from the row of the attempt, makes an envelope and appends it. With
a row, a number SQLite can hold, and an identifier and a clock reading that the environment supplies
(`Supplied`), a short status event of a valid attempt is appended (`publishAttemptEvent_status`). Whatever the
inputs are, a publish raises and changes nothing, or moves the cursor of the row by one
(`publishAttemptEvent_cases`). -/

namespace BuildEngine.Agent.Publishing

open BuildEngine.Base BuildEngine.Base.Json BuildEngine.Agent.Protocol BuildEngine.Agent.JobLoop
open BuildEngine.Queue.Schema BuildEngine.Queue BuildEngine.Queue.Outbox BuildEngine.Queue.Events

/-! ### Lengths -/

theorem length_of_matchesMask : ∀ {mask : List Bool} {s : PyStr}, matchesMask mask s = true →
    s.length = mask.length
  | [], [], _ => rfl
  | [], _ :: _, h => by simp [matchesMask] at h
  | _ :: _, [], h => by simp [matchesMask] at h
  | _ :: mask, _ :: s, h => by
    rw [matchesMask, Bool.and_eq_true] at h
    rw [List.length_cons, List.length_cons, length_of_matchesMask h.2]

theorem length_of_isUuid {s : PyStr} (h : isUuid s = true) : s.length = 36 := by
  rw [length_of_matchesMask h]
  simp

theorem length_intText {n : ℕ} (h : n < maxSqliteInt) : (intText n).length ≤ 20 := by
  have hn : n < 10 ^ (19 + 1) := h.trans (by unfold maxSqliteInt; norm_num)
  have hlen := length_digitsAux 19 (n + 1) n [] hn
  have htext : intText (n : ℤ) = natText n := by
    unfold intText
    rw [if_neg (by omega)]
    rfl
  rw [htext]
  exact hlen

theorem length_text (t : MessageType) : t.text.length ≤ 14 := by
  cases t <;> decide

/-! ### Decoded frames -/

section Datetime
variable [PyDatetime]

/-- The identifiers of a decoded envelope are UUIDs. -/
theorem uuids_of_decodeFrame {now : Instant} {allowed : List MessageType} {frame : PyStr} {e : Envelope}
    (h : decodeFrame now allowed frame = .ok e) : isUuid e.engineId = true ∧
      e.buildJobId.all isUuid = true ∧ e.attemptId.all isUuid = true := by
  have hrequire : ∀ {v : Json} {label s : PyStr}, requireUuid v label = .ok s → isUuid s = true := by
    intro v label s h
    unfold requireUuid at h
    split at h
    · split_ifs at h with hs
      cases h
      exact hs
    · cases h
  have hpresent : ∀ {v : Option Json} {label : PyStr} {s : Option PyStr},
      requireUuidIfPresent v label = .ok s → s.all isUuid = true := by
    intro v label s h
    unfold requireUuidIfPresent at h
    split at h
    · cases h
      rfl
    · next v =>
      rcases hv : requireUuid v label with err | t
      · rw [hv] at h; cases h
      · rw [hv] at h
        cases h
        exact hrequire hv
  unfold decodeFrame at h
  split at h
  · cases h
  · split_ifs at h
    split at h
    · cases h
    · cases h
    · unfold validateEnvelope at h
      split at h
      · dsimp only at h
        obtain ⟨_, -, h⟩ := bind_ok h
        obtain ⟨_, -, h⟩ := bind_ok h
        obtain ⟨_, -, h⟩ := bind_ok h
        obtain ⟨_, -, h⟩ := bind_ok h
        obtain ⟨_, -, h⟩ := bind_ok h
        obtain ⟨_, -, h⟩ := bind_ok h
        obtain ⟨_, hengine, h⟩ := bind_ok h
        split at h
        · obtain ⟨_, -, h⟩ := bind_ok h
          obtain ⟨_, hbuild, h⟩ := bind_ok h
          obtain ⟨_, hattempt, h⟩ := bind_ok h
          obtain ⟨_, -, h⟩ := bind_ok h
          obtain ⟨_, -, h⟩ := bind_ok h
          cases h
          exact ⟨hrequire hengine, hpresent hbuild, hpresent hattempt⟩
        · cases h
      · cases h

/-! ### The event -/

/-- What a publish gets from outside: an identifier drawn by `uuid4`, which no stored event has, and a clock
reading whose text is short and is read back within the skew. -/
structure Supplied (x : PublishInput) (db : Db) : Prop where
  uuid : isUuid x.messageId = true
  unused : ∀ f ∈ db.events.rows, f.id ≠ x.messageId
  fresh : ∃ t, parseTimestamp (formatTimestamp x.timestamp) = .ok t ∧ withinSkew x.now t = true
  short : (formatTimestamp x.timestamp).length ≤ 64

variable (cfg : LoopConfig)

/-- The status event of a publish. -/
def statusEvent (x : PublishInput) (payload : List (PyStr × Json)) (b a : PyStr) (seq : ℕ) : Envelope :=
  ⟨.int protocolVersion, x.messageId, .attemptStatus, formatTimestamp x.timestamp, payload,
    cfg.uplink.engineId, some b, some a, some seq⟩

variable {x : PublishInput} {payload : List (PyStr × Json)} {b a : PyStr}

theorem newEnvelope_status {db : Db} (hx : Supplied x db) (hengine : isUuid cfg.uplink.engineId = true)
    (hb : isUuid b = true) (ha : isUuid a = true) (seq : ℕ) :
    newEnvelope x.now x.timestamp x.messageId .attemptStatus payload cfg.uplink.engineId (some b) (some a)
      (some seq) = .ok (statusEvent cfg x payload b a seq) := by
  obtain ⟨t, ht, hskew⟩ := hx.fresh
  have hshape : Shape (statusEvent cfg x payload b a seq) :=
    ⟨rfl, hx.uuid, ⟨t, ht⟩, hengine, hb, ha, rfl, rfl⟩
  have htype : (statusEvent cfg x payload b a seq).type ∈ allMessageTypes := by
    show MessageType.attemptStatus ∈ allMessageTypes
    decide
  have hcheck := (checkFields_of_shape hshape x.now allMessageTypes).1 ⟨htype, t, ht, hskew⟩
  show (do
    let _ ← validateEnvelope x.now [] (.obj (statusEvent cfg x payload b a seq).toDict)
    return statusEvent cfg x payload b a seq) = _
  rw [validateEnvelope_of_represents (represents_toDict _), if_pos rfl, hcheck]
  rfl

/-- A status event with a short payload fits a frame. -/
theorem toJson_status {db : Db} (hx : Supplied x db) (hengine : isUuid cfg.uplink.engineId = true)
    (hb : isUuid b = true) (ha : isUuid a = true) {seq : ℕ} (hseq : seq < maxSqliteInt)
    (hpayload : membersSize payload ≤ 10000) :
    (statusEvent cfg x payload b a seq).toJson = .ok (statusEvent cfg x payload b a seq).encoded := by
  obtain ⟨n, hn, hle⟩ := encodedLength_dumpsSorted (.obj (statusEvent cfg x payload b a seq).toDict)
  have hsize : textSize (.obj (statusEvent cfg x payload b a seq).toDict) ≤ maxFrameBytes := by
    have hid := length_of_isUuid hx.uuid
    have hengine := length_of_isUuid hengine
    have hb := length_of_isUuid hb
    have ha := length_of_isUuid ha
    have hseq := length_intText hseq
    have hshort := hx.short
    have hversion : (intText protocolVersion).length = 1 := by decide
    have htype := length_text .attemptStatus
    have hkeys : (py "v").length = 1 ∧ (py "id").length = 2 ∧ (py "type").length = 4 ∧
        (py "ts").length = 2 ∧ (py "engine_id").length = 9 ∧ (py "payload").length = 7 ∧
        (py "build_job_id").length = 12 ∧ (py "attempt_id").length = 10 ∧ (py "seq").length = 3 := by
      decide
    simp only [statusEvent, Envelope.toDict, optionalMember, Option.map_some, List.cons_append,
      List.nil_append, textSize, membersSize]
    unfold maxFrameBytes
    omega
  unfold Envelope.toJson Envelope.encoded
  rw [hn]
  dsimp only
  rw [if_neg (by omega)]

/-! ### The publish -/

/-- A publish raises and changes nothing, or moves the cursor of the row of its attempt to its number. -/
theorem publishAttemptEvent_cases {s : Store} (hcover : CursorCovers s.db) (x : PublishInput)
    (type : MessageType) (payload : List (PyStr × Json)) (b a : PyStr) :
    (∃ err, publishAttemptEvent cfg x type payload b a s = (.error err, s)) ∨
    ∃ e db' r, publishAttemptEvent cfg x type payload b a s = (.ok e, { s with db := db' }) ∧
      s.db.job? a = some r ∧
      db'.job? a = some (cursorRow (r.sequenceCursor + 1) (formatDatetime x.clock.updated) r) ∧
      r.sequenceCursor + 1 < maxSqliteInt ∧ isUuid b = true ∧ isUuid a = true := by
  unfold publishAttemptEvent
  rcases hseq : nextSeq a s.db with err | seq
  · exact Or.inl ⟨err, rfl⟩
  · dsimp only
    rcases hnew : newEnvelope x.now x.timestamp x.messageId type payload cfg.uplink.engineId (some b)
        (some a) (some seq) with err | e
    · exact Or.inl ⟨_, rfl⟩
    · dsimp only
      obtain ⟨he, e', hvalid⟩ := of_newEnvelope hnew
      have hshape := shape_of_validate hvalid
      have ha : e.attemptId = some a := by rw [he]
      have hn : e.seq = some seq := by rw [he]
      rcases append_of_free ha hn (hcover.next_unused hseq) cfg.uplink.outbox x.clock with
        ⟨err, happend, -⟩ | ⟨db', r, happend, hr, hrow, -⟩
      · rw [happend]
        exact Or.inl ⟨err, rfl⟩
      · have hcursor : seq = r.sequenceCursor + 1 := by
          unfold nextSeq at hseq
          rw [hr] at hseq
          exact (Except.ok.inj hseq).symm
        have hlimit : seq < maxSqliteInt := by
          by_contra hfull
          unfold append appendStates at happend
          rw [ha, hn] at happend
          dsimp only at happend
          rw [if_pos (by omega)] at happend
          cases happend
        have hb := hshape.buildJobId
        have ha := hshape.attemptId
        rw [he] at hb ha
        rw [happend]
        rw [hcursor] at hrow hlimit
        exact Or.inr ⟨e, db', r, rfl, hr, hrow, hlimit, hb, ha⟩

/-- A publish for an attempt without a further number raises. -/
theorem publishAttemptEvent_overflow (b : PyStr) (payload : List (PyStr × Json)) {s : Store} {r : JobRow}
    (hcover : CursorCovers s.db)
    (hr : s.db.job? a = some r) (hfull : maxSqliteInt ≤ r.sequenceCursor + 1) (x : PublishInput)
    (type : MessageType) : ∃ err, publishAttemptEvent cfg x type payload b a s = (.error err, s) := by
  rcases publishAttemptEvent_cases cfg hcover x type payload b a with hraised |
    ⟨_, _, r', _, hr', _, hfree, _, _⟩
  · exact hraised
  · rw [Option.some.inj (hr'.symm.trans hr)] at hfree
    omega

/-- **A publish succeeds**, for a valid attempt that has a row and a further number: it appends the status
event under that number, and moves the cursor of the row to it. -/
theorem publishAttemptEvent_status {s : Store} {r : JobRow} (hcover : CursorCovers s.db)
    (hx : Supplied x s.db) (hengine : isUuid cfg.uplink.engineId = true) (hb : isUuid b = true)
    (ha : isUuid a = true) (hpayload : membersSize payload ≤ 10000) (hr : s.db.job? a = some r)
    (hfree : r.sequenceCursor + 1 < maxSqliteInt) :
    ∃ db', publishAttemptEvent cfg x .attemptStatus payload b a s =
        (.ok (statusEvent cfg x payload b a (r.sequenceCursor + 1)), { s with db := db' }) ∧
      db'.job? a = some (cursorRow (r.sequenceCursor + 1) (formatDatetime x.clock.updated) r) := by
  let e := statusEvent cfg x payload b a (r.sequenceCursor + 1)
  have hseq : nextSeq a s.db = .ok (r.sequenceCursor + 1) := by
    unfold nextSeq
    rw [hr]
  have hunused : s.db.event? a (r.sequenceCursor + 1) = none := hcover.next_unused hseq
  have hok : (append cfg.uplink.outbox x.clock e s.db).1 = .ok () := by
    obtain ⟨db', hinsert⟩ : ∃ db', s.db.insertEvent (eventRow e.id a (r.sequenceCursor + 1) e.type e.encoded
        x.clock.created) = some db' := by
      unfold Db.insertEvent
      rw [dif_pos]
      · exact ⟨_, rfl⟩
      · unfold Db.canInsertEvent
        have hid : s.db.events.find? e.id = none := Table.find?_eq_none.mpr hx.unused
        simp only [eventRow, hid, hunused, hr, Option.isNone_none, Option.isSome_some, Bool.and_self]
    have htext : e.toJson = .ok e.encoded := toJson_status cfg hx hengine hb ha hfree hpayload
    have hstates : appendStates cfg.uplink.outbox x.clock e a (r.sequenceCursor + 1) s.db =
        .ok (insertStates cfg.uplink.outbox x.clock (eventRow e.id a (r.sequenceCursor + 1) e.type e.encoded
          x.clock.created) db') := by
      unfold appendStates
      rw [if_neg (by omega), hunused, htext]
      simp only [hinsert]
    unfold append
    rw [show e.attemptId = some a from rfl, show e.seq = some (r.sequenceCursor + 1) from rfl]
    simp only [hstates]
  have ha' : e.attemptId = some a := rfl
  have hn' : e.seq = some (r.sequenceCursor + 1) := rfl
  rcases append_of_free ha' hn' hunused cfg.uplink.outbox x.clock with
    ⟨err, happend, -⟩ | ⟨db', r', happend, hr', hrow, -⟩
  · rw [happend] at hok
    cases hok
  · refine ⟨db', ?_, ?_⟩
    · unfold publishAttemptEvent
      rw [hseq]
      dsimp only
      rw [newEnvelope_status cfg hx hengine hb ha]
      dsimp only
      rw [show append cfg.uplink.outbox x.clock _ s.db = _ from happend]
    · rw [hrow, Option.some.inj (hr'.symm.trans hr)]

end Datetime

/-! ### Commands to run examples on -/

/-- A command for the sample attempt, one second after the epoch. -/
def sampleCommand (type : MessageType) (payload : List (PyStr × Json)) : Envelope where
  v := .int 2
  id := py "00000000-0000-4000-8000-0000000000ff"
  type := type
  ts := py "1970-01-01T00:00:01.000Z"
  payload := payload
  engineId := zeroEngineId
  buildJobId := some Ops.sampleBuild
  attemptId := some Ops.sampleAttempt
  seq := none

theorem parse_sampleTime : @parseTimestamp firstDay (py "1970-01-01T00:00:01.000Z") = .ok (seconds 1) := rfl

theorem format_sampleTime : @formatTimestamp firstDay (seconds 1) = py "1970-01-01T00:00:01.000Z" := by
  decide +kernel

theorem supplied_publishAt {db : Db} (h : ∀ f ∈ db.events.rows, f.id ≠ (publishAt 1).messageId) :
    @Supplied firstDay (publishAt 1) db := by
  let _ := firstDay
  have hparse : parseTimestamp (formatTimestamp (seconds 1)) = .ok (seconds 1) := by
    rw [format_sampleTime]
    exact parse_sampleTime
  have hlength : (formatTimestamp (seconds 1)).length ≤ 64 := by
    rw [format_sampleTime]
    decide
  exact ⟨by decide, h, ⟨seconds 1, hparse, by decide⟩, hlength⟩

theorem decode_sampleCommand {type : MessageType} {payload : List (PyStr × Json)}
    (hv : @Valid firstDay (sampleCommand type payload))
    (htext : (sampleCommand type payload).toJson.toOption = some (sampleCommand type payload).encoded)
    (htype : type ∈ inboundMessageTypes) :
    @decodeFrame firstDay (seconds 1) inboundMessageTypes (sampleCommand type payload).encoded =
      .ok (sampleCommand type payload).sorted := by
  let _ := firstDay
  have htext : (sampleCommand type payload).toJson = .ok (sampleCommand type payload).encoded := by
    rcases h : (sampleCommand type payload).toJson with err | text
    · rw [h] at htext; cases htext
    · rw [h] at htext
      rw [Option.some.inj htext]
  exact (decodeFrame_toJson hv htext (seconds 1) (by decide)).1 ⟨htype, seconds 1, parse_sampleTime, by decide⟩

end BuildEngine.Agent.Publishing
