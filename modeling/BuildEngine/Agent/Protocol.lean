import BuildEngine.Base.Json
import BuildEngine.Base.Replace

/-! # The envelope of protocol v2

`Envelope`, `newEnvelope`, `decodeFrame` and `validateEnvelope` of `agent/protocol.py`. A validated mapping
is returned as the envelope it describes: unknown fields are refused, so the two hold the same data.
Instants are microseconds; the clock is an argument of every function that reads it. The two functions
of `datetime` that turn instants into texts and back are kept abstract (`PyDatetime`): nothing here
depends on how a timestamp is spelled. -/

namespace BuildEngine.Agent.Protocol

open BuildEngine.Base BuildEngine.Base.Json

/-- A point in time, in microseconds. -/
abbrev Instant := ℤ

/-- The parts of `datetime` the protocol uses. -/
class PyDatetime where
  /-- `t.astimezone(UTC).isoformat(timespec="milliseconds")` -/
  isoformat : Instant → PyStr
  /-- An ISO text is written in ASCII characters. -/
  isoformat_ascii : ∀ t, Ascii (isoformat t)
  /-- `datetime.fromisoformat(text)`: `none` where it raises `ValueError`, `some none` for a datetime
  without a time zone. -/
  fromisoformat : PyStr → Option (Option Instant)

/-- `PROTOCOL_VERSION` -/
def protocolVersion : ℤ := 2

/-- `MAX_FRAME_BYTES` -/
def maxFrameBytes : ℕ := 1048576

/-- `MAX_LOG_DATA_BYTES` -/
def maxLogDataBytes : ℕ := 65536

/-- `MAX_TIMESTAMP_SKEW`, five minutes. -/
def maxTimestampSkew : Instant := 300000000

/-- `ZERO_ENGINE_ID` -/
def zeroEngineId : PyStr := py "00000000-0000-0000-0000-000000000000"

/-! ### Message types -/

/-- The message types of both directions. -/
inductive MessageType where
  | welcome | jobAssign | jobCancel | cacheReset | drain | ping | eventAck
  | hello | attemptStatus | attemptLog | artifactReady | error | heartbeat | pong
  deriving DecidableEq

namespace MessageType

/-- The spelling on the wire. -/
def text : MessageType → PyStr
  | welcome => py "welcome"
  | jobAssign => py "job.assign"
  | jobCancel => py "job.cancel"
  | cacheReset => py "cache.reset"
  | drain => py "drain"
  | ping => py "ping"
  | eventAck => py "event.ack"
  | hello => py "hello"
  | attemptStatus => py "attempt.status"
  | attemptLog => py "attempt.log"
  | artifactReady => py "artifact.ready"
  | error => py "error"
  | heartbeat => py "heartbeat"
  | pong => py "pong"

end MessageType

open MessageType

/-- `INBOUND_MESSAGE_TYPES` -/
def inboundMessageTypes : List MessageType :=
  [welcome, jobAssign, jobCancel, cacheReset, drain, ping, eventAck]

/-- `OUTBOUND_MESSAGE_TYPES` -/
def outboundMessageTypes : List MessageType :=
  [hello, attemptStatus, attemptLog, artifactReady, error, heartbeat, pong]

/-- `ALL_MESSAGE_TYPES` -/
def allMessageTypes : List MessageType := inboundMessageTypes ++ outboundMessageTypes

/-- The type a text spells. -/
def MessageType.ofText? (s : PyStr) : Option MessageType := allMessageTypes.find? fun t => t.text = s

theorem MessageType.ofText?_text (t : MessageType) : ofText? t.text = some t := by
  cases t <;> decide

/-! ### Exceptions -/

/-- `ProtocolError`, one constructor for each check. -/
inductive ProtocolError where
  | frameTooLarge
  | notUtf8
  | notJson
  | notObject
  | unknownFields (names : List PyStr)
  | missingFields (names : List PyStr)
  | unsupportedVersion (v : Json)
  | notUuid (label : PyStr)
  | typeNotString
  | unknownType (type : PyStr)
  | tsNotString
  | tsNotIso
  | tsNaive
  | clockSkew
  | payloadNotObject
  | badSeq
  | seqWithoutAttempt
  | logTooLarge
  | missingAttemptFields
  | payloadNotUuid (key : PyStr)
  | lastSeqNotObject
  | badLastSeq
  | outboxFields

/-- What a call may raise. `valueError` is the `ValueError` of `int` in `json.loads`, `typeError` what
reading a member of a text that holds no envelope raises. -/
inductive Exc where
  | protocol (e : ProtocolError)
  | unicodeEncode
  | valueError
  | typeError

/-! ### Envelopes -/

/-- `Envelope` -/
structure Envelope where
  v : Json
  id : PyStr
  type : MessageType
  ts : PyStr
  payload : List (PyStr × Json)
  engineId : PyStr
  buildJobId : Option PyStr
  attemptId : Option PyStr
  seq : Option ℕ

/-- The member `key` of an optional field. -/
def optionalMember (key : PyStr) (value : Option Json) : List (PyStr × Json) :=
  match value with
  | some v => [(key, v)]
  | none => []

namespace Envelope

/-- `Envelope.to_dict` -/
def toDict (e : Envelope) : List (PyStr × Json) :=
  [(py "v", e.v), (py "id", .str e.id), (py "type", .str e.type.text), (py "ts", .str e.ts),
    (py "engine_id", .str e.engineId), (py "payload", .obj e.payload)] ++
  optionalMember (py "build_job_id") (e.buildJobId.map .str) ++
  optionalMember (py "attempt_id") (e.attemptId.map .str) ++
  optionalMember (py "seq") (e.seq.map fun n : ℕ => .int n)

/-- The compact JSON text of the envelope, members in the order of their names. -/
def encoded (e : Envelope) : PyStr := dumpsSorted (.obj e.toDict)

/-- `Envelope.to_json` -/
def toJson (e : Envelope) : Except Exc PyStr :=
  match encodedLength e.encoded with
  | none => .error .unicodeEncode
  | some n => if n > maxFrameBytes then .error (.protocol .frameTooLarge) else .ok e.encoded

end Envelope

/-! ### Validation -/

/-- The fields an envelope may have. -/
def envelopeFields : List PyStr :=
  [py "v", py "id", py "type", py "ts", py "engine_id", py "build_job_id", py "attempt_id", py "seq",
    py "payload"]

/-- The fields an envelope must have. -/
def requiredFields : List PyStr :=
  [py "v", py "id", py "type", py "ts", py "engine_id", py "payload"]

/-- Raise `e` unless the check holds. -/
def check (p : Bool) (e : ProtocolError) : Except Exc Unit :=
  if p then .ok () else .error (.protocol e)

/-- `_require_uuid`, and the text it accepted. -/
def requireUuid (value : Json) (label : PyStr) : Except Exc PyStr :=
  match value with
  | .str s => if isUuid s then .ok s else .error (.protocol (.notUuid label))
  | _ => .error (.protocol (.notUuid label))

/-- `_require_uuid` on an optional field. -/
def requireUuidIfPresent (value : Option Json) (label : PyStr) : Except Exc (Option PyStr) :=
  match value with
  | none => .ok none
  | some v => (requireUuid v label).map some

section Datetime
variable [PyDatetime]

/-- `_format_timestamp` -/
def formatTimestamp (t : Instant) : PyStr := replace (py "+00:00") (py "Z") (PyDatetime.isoformat t)

/-- `_parse_timestamp` -/
def parseTimestamp (s : PyStr) : Except Exc Instant :=
  match PyDatetime.fromisoformat (replace (py "Z") (py "+00:00") s) with
  | none => .error (.protocol .tsNotIso)
  | some none => .error (.protocol .tsNaive)
  | some (some t) => .ok t

/-- The timestamp is within the skew of the clock. -/
def withinSkew (now t : Instant) : Bool :=
  !(t < now - maxTimestampSkew || t > now + maxTimestampSkew)

/-- The `ts` field: a string that parses, within the skew. -/
def checkTs (now : Instant) (value : Json) : Except Exc PyStr :=
  match value with
  | .str s => do
    let t ← parseTimestamp s
    check (withinSkew now t) .clockSkew
    return s
  | _ => .error (.protocol .tsNotString)

/-- The `type` field: a known and allowed type. -/
def checkType (allowed : List MessageType) (value : Json) : Except Exc MessageType :=
  match value with
  | .str s =>
    match MessageType.ofText? s with
    | some t => if t ∈ allowed then .ok t else .error (.protocol (.unknownType s))
    | none => .error (.protocol (.unknownType s))
  | _ => .error (.protocol .typeNotString)

/-- The `seq` field: a non-negative integer (no boolean), only beside an attempt. -/
def checkSeq (value : Option Json) (attemptId : Option PyStr) : Except Exc (Option ℕ) :=
  match value with
  | none => .ok none
  | some (.int n) => do
    check (0 ≤ n) .badSeq
    check attemptId.isSome .seqWithoutAttempt
    return some n.toNat
  | some _ => .error (.protocol .badSeq)

/-- The log limit. -/
def checkLog (type : MessageType) (payload : List (PyStr × Json)) : Except Exc Unit :=
  if type = attemptLog then
    match get? payload (py "data") with
    | some (.str s) =>
      match encodedLength s with
      | none => .error .unicodeEncode
      | some n => check (n ≤ maxLogDataBytes) .logTooLarge
    | _ => .ok ()
  else .ok ()

/-- `validate_envelope`; an empty set of allowed types stands for all of them. -/
def validateEnvelope (now : Instant) (allowedTypes : List MessageType) (raw : Json) :
    Except Exc Envelope :=
  match raw with
  | .obj data => do
    let field := fun key => (get? data key).getD .null
    let unknown := (data.map Prod.fst).filter (· ∉ envelopeFields)
    check (unknown = []) (.unknownFields unknown)
    let missing := requiredFields.filter fun key => (get? data key).isNone
    check (missing = []) (.missingFields missing)
    check ((field (py "v")).eqInt protocolVersion) (.unsupportedVersion (field (py "v")))
    let id ← requireUuid (field (py "id")) (py "Envelope id")
    let type ← checkType (if allowedTypes = [] then allMessageTypes else allowedTypes)
      (field (py "type"))
    let ts ← checkTs now (field (py "ts"))
    let engineId ← requireUuid (field (py "engine_id")) (py "Envelope engine_id")
    let payload ← match field (py "payload") with
      | .obj kvs => .ok kvs
      | _ => .error (.protocol .payloadNotObject)
    let buildJobId ← requireUuidIfPresent (get? data (py "build_job_id")) (py "Envelope build_job_id")
    let attemptId ← requireUuidIfPresent (get? data (py "attempt_id")) (py "Envelope attempt_id")
    let seq ← checkSeq (get? data (py "seq")) attemptId
    checkLog type payload
    return ⟨field (py "v"), id, type, ts, payload, engineId, buildJobId, attemptId, seq⟩
  | _ => .error (.protocol .notObject)

/-- `new_envelope`: `messageId` is the identifier given or drawn, `timestamp` the reading stamped on
the envelope and `now` the one it is validated with. -/
def newEnvelope (now timestamp : Instant) (messageId : PyStr) (type : MessageType)
    (payload : List (PyStr × Json)) (engineId : PyStr) (buildJobId attemptId : Option PyStr)
    (seq : Option ℕ) : Except Exc Envelope := do
  let envelope : Envelope := ⟨.int protocolVersion, messageId, type, formatTimestamp timestamp, payload,
    engineId, buildJobId, attemptId, seq⟩
  let _ ← validateEnvelope now [] (.obj envelope.toDict)
  return envelope

/-- `decode_frame` on a text frame. -/
def decodeFrame (now : Instant) (allowedTypes : List MessageType) (frame : PyStr) :
    Except Exc Envelope :=
  match encodedLength frame with
  | none => .error .unicodeEncode
  | some n =>
    if n > maxFrameBytes then .error (.protocol .frameTooLarge)
    else match loads frame with
      | .error .decode => .error (.protocol .notJson)
      | .error .tooManyDigits => .error .valueError
      | .ok raw => validateEnvelope now allowedTypes raw

end Datetime

/-! ### Attempts and cursors -/

/-- `_string_payload` -/
def stringPayload (payload : List (PyStr × Json)) (key : PyStr) : Except Exc (Option PyStr) :=
  match get? payload key with
  | none => .ok none
  | some .null => .ok none
  | some (.str s) => if isUuid s then .ok (some s) else .error (.protocol (.payloadNotUuid key))
  | some _ => .error (.protocol (.payloadNotUuid key))

/-- A top-level field, or else its mirror in the payload. An empty text counts as absent. -/
def fieldOrPayload (field : Option PyStr) (payload : List (PyStr × Json)) (key : PyStr) :
    Except Exc (Option PyStr) :=
  match field with
  | some s => if s = [] then stringPayload payload key else .ok (some s)
  | none => stringPayload payload key

/-- `attempt_fields` -/
def attemptFields (e : Envelope) : Except Exc (PyStr × PyStr) := do
  let buildJobId ← fieldOrPayload e.buildJobId e.payload (py "build_job_id")
  let attemptId ← fieldOrPayload e.attemptId e.payload (py "attempt_id")
  match buildJobId, attemptId with
  | some b, some a => .ok (b, a)
  | _, _ => .error (.protocol .missingAttemptFields)

/-- The cursors of a welcome payload's object. -/
def cursorsOf : List (PyStr × Json) → Except Exc (List (PyStr × ℕ))
  | [] => .ok []
  | (attemptId, seq) :: rest =>
    match seq with
    | .int n =>
      if isUuid attemptId && decide (0 ≤ n) then
        (cursorsOf rest).map fun cs => (attemptId, n.toNat) :: cs
      else .error (.protocol .badLastSeq)
    | _ => .error (.protocol .badLastSeq)

/-- `last_sequences` -/
def lastSequences (payload : List (PyStr × Json)) : Except Exc (List (PyStr × ℕ)) :=
  match (get? payload (py "last_seq")).getD
      ((get? payload (py "last_sequences")).getD (.obj [])) with
  | .null => .ok []
  | .obj kvs => cursorsOf kvs
  | _ => .error (.protocol .lastSeqNotObject)

/-- `cursors.get(attempt_id, 0)` -/
def cursor (cursors : List (PyStr × ℕ)) (attemptId : PyStr) : ℕ :=
  ((cursors.find? fun c => c.1 = attemptId).map Prod.snd).getD 0

end BuildEngine.Agent.Protocol
