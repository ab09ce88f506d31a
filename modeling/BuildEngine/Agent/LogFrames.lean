import BuildEngine.Agent.Publishing
import BuildEngine.Executor.Stream

/-! # Log frames

`_log` publishes each frame of a stream as an `attempt.log` event and suppresses whatever is raised, so a frame that
made `new_envelope` or `to_json` raise would be lost without a trace. None does (`log_frames_fit`): a frame has at most
`MAX_LOG_DATA_BYTES` bytes, JSON writes at most six characters for a byte, and six times the limit is less than
`MAX_FRAME_BYTES`. -/

namespace BuildEngine.Agent.LogFrames

open BuildEngine.Base BuildEngine.Base.Json BuildEngine.Agent.Protocol BuildEngine.Agent.JobLoop
open BuildEngine.Agent.Publishing BuildEngine.Executor.Stream BuildEngine.Queue.Schema BuildEngine.Queue.Ops

/-- The streams of a container, as `pump_stream` is told them. -/
inductive LogStream where
  | stdout | stderr
  deriving DecidableEq

/-- The name of a stream. -/
def LogStream.text : LogStream → PyStr
  | stdout => py "stdout"
  | stderr => py "stderr"

/-- The payload of `_log`. -/
def logPayload (stream : LogStream) (data : PyStr) : List (PyStr × Json) := (Progress.log stream.text data).payload

section Datetime
variable [PyDatetime]

/-- What `new_envelope` gets for a log event: canonical identifiers, a number that has a decimal text, and readings of
the clock, the text of the first of which is short and is read back within the skew of the second. -/
structure Canonical (now timestamp : Instant) (messageId engineId b a : PyStr) (seq : ℕ) : Prop where
  messageId : isUuid messageId = true
  engineId : isUuid engineId = true
  buildJobId : isUuid b = true
  attemptId : isUuid a = true
  seq : (intText seq).length ≤ maxDigits
  fresh : ∃ t, parseTimestamp (formatTimestamp timestamp) = .ok t ∧ withinSkew now t = true
  short : (formatTimestamp timestamp).length ≤ 64

/-- The envelope of a log event. -/
def logEnvelope (timestamp : Instant) (messageId engineId b a : PyStr) (seq : ℕ) (stream : LogStream) (data : PyStr) :
    Envelope :=
  ⟨.int protocolVersion, messageId, .attemptLog, formatTimestamp timestamp, logPayload stream data, engineId, some b,
    some a, some seq⟩

variable {now timestamp : Instant} {messageId engineId b a : PyStr} {seq : ℕ} {stream : LogStream} {data : PyStr}

omit [PyDatetime] in
theorem checkLog_logPayload (h : Fits data) : checkLog .attemptLog (logPayload stream data) = .ok () := by
  obtain ⟨n, hn, hle⟩ := h
  have hdata : get? (logPayload stream data) (py "data") = some (.str data) := by
    cases stream <;> rfl
  unfold checkLog
  rw [if_pos rfl, hdata]
  dsimp only
  rw [hn]
  dsimp only
  rw [check, if_pos (by simpa using hle)]

/-- `new_envelope` accepts the event. -/
theorem newEnvelope_log (h : Canonical now timestamp messageId engineId b a seq) (hfits : Fits data) :
    newEnvelope now timestamp messageId .attemptLog (logPayload stream data) engineId (some b) (some a) (some seq) =
      .ok (logEnvelope timestamp messageId engineId b a seq stream data) := by
  obtain ⟨t, ht, hskew⟩ := h.fresh
  have hshape : Shape (logEnvelope timestamp messageId engineId b a seq stream data) :=
    ⟨rfl, h.messageId, ⟨t, ht⟩, h.engineId, h.buildJobId, h.attemptId, rfl, checkLog_logPayload hfits⟩
  have htype : (logEnvelope timestamp messageId engineId b a seq stream data).type ∈ allMessageTypes := by
    show MessageType.attemptLog ∈ allMessageTypes
    decide
  have hcheck := (checkFields_of_shape hshape now allMessageTypes).1 ⟨htype, t, ht, hskew⟩
  show (do
    let _ ← validateEnvelope now [] (.obj (logEnvelope timestamp messageId engineId b a seq stream data).toDict)
    return logEnvelope timestamp messageId engineId b a seq stream data) = _
  rw [validateEnvelope_of_represents (represents_toDict _), if_pos rfl, hcheck]
  rfl

/-- The length of the text of the event. -/
theorem length_log (stream : LogStream) (h : Canonical now timestamp messageId engineId b a seq) {n : ℕ}
    (hn : encodedLength data = some n) :
    (dumps (.obj (logEnvelope timestamp messageId engineId b a seq stream data).toDict)).length ≤ 6 * n + 10000 := by
  have hstr : ∀ s : PyStr, dumps (.str s) = strText s := fun s => by rw [dumps]
  have hint : ∀ n : ℤ, dumps (.int n) = intText n := fun n => by rw [dumps]
  have hkeys : (strText (py "v")).length = 3 ∧ (strText (py "id")).length = 4 ∧ (strText (py "type")).length = 6 ∧
      (strText (py "ts")).length = 4 ∧ (strText (py "engine_id")).length = 11 ∧
      (strText (py "payload")).length = 9 ∧ (strText (py "build_job_id")).length = 14 ∧
      (strText (py "attempt_id")).length = 12 ∧ (strText (py "seq")).length = 5 ∧
      (strText (py "stream")).length = 8 ∧ (strText (py "data")).length = 6 := by decide
  have htype : (strText MessageType.attemptLog.text).length = 13 := by decide
  have hstream : (strText stream.text).length = 8 := by cases stream <;> decide
  have hversion : (intText protocolVersion).length = 1 := by decide
  have hid := length_strText messageId
  have hengine := length_strText engineId
  have hb := length_strText b
  have ha := length_strText a
  have hts := length_strText (formatTimestamp timestamp)
  have hidlen := length_of_isUuid h.messageId
  have henginelen := length_of_isUuid h.engineId
  have hblen := length_of_isUuid h.buildJobId
  have halen := length_of_isUuid h.attemptId
  have hshort := h.short
  have hseq := h.seq
  have hdigits : maxDigits = 4300 := rfl
  have hdata := length_strText_le hn
  have hpayload : (dumps (.obj (logPayload stream data))).length = 27 + (strText data).length := by
    have hne : logPayload stream data ≠ [] := List.cons_ne_nil _ _
    rw [length_dumps_obj hne]
    simp only [logPayload, Progress.payload, List.map_cons, List.map_nil, List.sum_cons, List.sum_nil, memberLength,
      hstr]
    omega
  have hne : (logEnvelope timestamp messageId engineId b a seq stream data).toDict ≠ [] := List.cons_ne_nil _ _
  rw [length_dumps_obj hne]
  simp only [logEnvelope, Envelope.toDict, optionalMember, Option.map_some, List.cons_append, List.nil_append,
    List.map_cons, List.map_nil, List.sum_cons, List.sum_nil, memberLength, hstr, hint, hpayload]
  omega

/-- `to_json` accepts the event, and its text fits a frame. -/
theorem toJson_log (stream : LogStream) (h : Canonical now timestamp messageId engineId b a seq) (hfits : Fits data) :
    ∃ text n, (logEnvelope timestamp messageId engineId b a seq stream data).toJson = .ok text ∧
      encodedLength text = some n ∧ n ≤ maxFrameBytes := by
  obtain ⟨n, hn, hle⟩ := hfits
  have hlength := length_log stream h hn
  have hencoded := encodedLength_dumpsSorted_eq
    (.obj (logEnvelope timestamp messageId engineId b a seq stream data).toDict)
  have hmax : (dumps (.obj (logEnvelope timestamp messageId engineId b a seq stream data).toDict)).length ≤
      maxFrameBytes := by
    unfold maxLogDataBytes at hle
    unfold maxFrameBytes
    omega
  refine ⟨_, _, ?_, hencoded, hmax⟩
  unfold Envelope.toJson Envelope.encoded
  rw [hencoded]
  exact if_neg (Nat.not_lt.mpr hmax)

/-- **Log frames lose nothing and always fit**: a text of scalar values is cut into pieces that fit the limit and are
the text together; and whatever a stream publishes is accepted as a log event whose text fits a frame. -/
theorem log_frames_fit (values : List PyStr) (r : SecretRedactor values) (chunks : List Chunk) (stream : LogStream) :
    (∀ value : PyStr, (∀ c ∈ value, Scalar c) → ∃ frames, frameChunks value = some frames ∧
      frames.flatten = value ∧ ∀ frame ∈ frames, ∃ n, encodedLength frame = some n ∧ n ≤ maxLogDataBytes) ∧
    ∃ frames, pumpStream r chunks = some frames ∧ ∀ data ∈ frames, ∀ now timestamp messageId engineId b a seq,
      Canonical now timestamp messageId engineId b a seq → ∃ e text n,
        newEnvelope now timestamp messageId .attemptLog (logPayload stream data) engineId (some b) (some a)
          (some seq) = .ok e ∧
        e.toJson = .ok text ∧ encodedLength text = some n ∧ n ≤ maxFrameBytes := by
  constructor
  · intro value hscalar
    obtain ⟨frames, hframes, hflat⟩ := frameChunks_returns hscalar
    exact ⟨frames, hframes, hflat, fits_of_frameChunks hframes⟩
  · obtain ⟨frames, hframes, -⟩ := pumpStream_returns r chunks
    refine ⟨frames, hframes, fun data hdata now timestamp messageId engineId b a seq hcanonical => ?_⟩
    have hfits := fits_of_pumpStream r hframes data hdata
    obtain ⟨text, n, htext, hn, hle⟩ := toJson_log stream hcanonical hfits
    exact ⟨_, text, n, newEnvelope_log hcanonical hfits, htext, hn, hle⟩

end Datetime

theorem canonical_sample : @Canonical firstDay (publishAt 1).now (publishAt 1).timestamp (publishAt 1).messageId
    zeroEngineId sampleBuild sampleAttempt 1 := by
  let _ := firstDay
  have hsupplied : Supplied (publishAt 1) State.init.store.db :=
    supplied_publishAt fun f hf => absurd hf List.not_mem_nil
  exact ⟨hsupplied.uuid, by decide +kernel, by decide +kernel, by decide +kernel, by decide +kernel, hsupplied.fresh,
    hsupplied.short⟩

/-- A frame with a redacted secret is published. -/
theorem log_frames_whole : ∃ e text n,
    @newEnvelope firstDay (publishAt 1).now (publishAt 1).timestamp (publishAt 1).messageId .attemptLog
      (logPayload .stdout (py "key=[REDACTED]")) zeroEngineId (some sampleBuild) (some sampleAttempt) (some 1) = .ok e ∧
    e.toJson = .ok text ∧ encodedLength text = some n ∧ n ≤ maxFrameBytes := by
  obtain ⟨frames, hframes, hall⟩ :=
    (@log_frames_fit firstDay [py "abc"] (SecretRedactor.init [py "abc"]) [wholeChunk] .stdout).2
  have hpump : pumpStream (SecretRedactor.init [py "abc"]) [wholeChunk] = some [py "key=[REDACTED]"] := by
    decide +kernel
  obtain rfl := Option.some.inj (hpump.symm.trans hframes)
  exact hall _ List.mem_cons_self _ _ _ _ _ _ _ canonical_sample

end BuildEngine.Agent.LogFrames
