import BuildEngine.Agent.RoundTrip
import BuildEngine.Queue.Ops

/-! # `BuildEngineUplink`

The part of `agent/uplink.py` that writes to the socket: `connect_once` with its handshake and replay, and
`publish_attempt_event`. Tasks of one event loop interleave at their `await`s, so the uplink is a machine
whose actions are the stretches of code between two of them. One connection is open at a time; publishes
run one at a time under the publish lock, and the calls of the store that other tasks make come in between.
An action that is not enabled leaves the state as it is. -/

namespace BuildEngine.Agent.Uplink

open BuildEngine.Base BuildEngine.Base.Json BuildEngine.Agent.Protocol BuildEngine.Queue.Schema
open BuildEngine.Queue BuildEngine.Queue.Outbox BuildEngine.Queue.Ops

/-! ### State -/

/-- The arguments of `publish_attempt_event`. The payload is an object `json` can write and read back. -/
structure PublishCall where
  type : MessageType
  payload : List (PyStr × Json)
  buildJobId : PyStr
  attemptId : PyStr
  wf : WF (.obj payload)

/-- A publish that holds the lock: the number it was given and, once it is appended, its envelope. -/
structure Publish where
  call : PublishCall
  seq : ℕ
  envelope : Option Envelope

/-- A frame on the wire. -/
inductive Frame where
  | hello
  | heartbeat
  | pong
  | event (e : Envelope)

/-- How far `connect_once` has come on a connection. -/
inductive Phase where
  | opened
  | welcomed (cursors : List (PyStr × ℕ))
  | greeted (cursors : List (PyStr × ℕ))
  | replaying (rest : List Envelope)
  | live

/-- A connection and the frames the engine has sent on it, in order. -/
structure Connection where
  phase : Phase
  sent : List Frame

/-- The uplink and the store. `attached` says that `self._ws` is the socket of the open connection. -/
structure State where
  store : Store
  publishing : Option Publish
  published : List Envelope
  raised : List OutboxError
  attached : Bool
  connection : Option Connection
  closed : List Connection

/-- A process just started. -/
def State.init : State := ⟨.empty, none, [], [], false, none, []⟩

/-- Every connection of the process, the open one first. -/
def State.connections (s : State) : List Connection := s.connection.toList ++ s.closed

/-- The settings of the uplink: its engine identifier and the limits of its outbox. -/
structure UplinkConfig where
  engineId : PyStr
  outbox : OutboxConfig

/-! ### Actions -/

/-- A stretch of code between two `await`s. -/
inductive Action where
  /-- A store call of another task, or the handling of `event.ack`. -/
  | store (op : Op)
  /-- `connector(url, headers)` returns and `self._ws` is set. -/
  | connect
  /-- `_receive_welcome` returns. -/
  | welcome (cursors : List (PyStr × ℕ))
  /-- `_send_hello` -/
  | hello
  /-- `replay_after`, with the clock readings of its decoding. -/
  | queryReplay (clock : EventRow → Instant)
  /-- The next turn of the loop of `_replay_spool`. -/
  | replayNext
  /-- A turn of `_heartbeat_loop`. -/
  | heartbeat
  /-- The answer to a `ping`. -/
  | pong
  /-- The connection ends, or an exception ends `connect_once`. -/
  | disconnect
  /-- `publish_attempt_event` gets the lock and its number. -/
  | publishBegin (call : PublishCall)
  /-- It makes the envelope and appends it. -/
  | publishAppend (now timestamp : Instant) (messageId : PyStr) (clock : AppendClock)
  /-- It sends the envelope if there is a socket, and returns; `delivered` is `false` when `send` raises. -/
  | publishFinish (delivered : Bool)

/-- The calls other tasks make: events are appended by `publish_attempt_event` only, and the process is
not started again. -/
def ofOthers : Op → Bool
  | .append _ _ _ | .restart => false
  | _ => true

/-- Send a frame on the open connection. -/
def Connection.send (c : Connection) (f : Frame) : Connection := { c with sent := c.sent ++ [f] }

/-- The current socket, if it is set. -/
def State.socket (s : State) : Option Connection := if s.attached then s.connection else none

/-- `publish_attempt_event` up to its number. -/
def publishBegin (call : PublishCall) (s : State) : State :=
  match s.publishing with
  | some _ => s
  | none =>
    match nextSeq call.attemptId s.store.db with
    | .error x => { s with raised := s.raised ++ [x] }
    | .ok seq => { s with publishing := some ⟨call, seq, none⟩ }

/-- `publish_attempt_event` after its envelope is appended. -/
def publishFinish (delivered : Bool) (s : State) : State :=
  match s.publishing with
  | some ⟨_, _, some e⟩ =>
    let s' : State := { s with publishing := none, published := s.published ++ [e] }
    match s.socket with
    | none => s'
    | some c =>
      if delivered then { s' with connection := some (c.send (.event e)) }
      else { s' with attached := false }
  | _ => s

section Datetime
variable [PyDatetime]

/-- `new_envelope` and `append` of a publish. An exception ends it and frees the lock. -/
def publishAppend (cfg : UplinkConfig) (now timestamp : Instant) (messageId : PyStr)
    (clock : AppendClock) (s : State) : State :=
  match s.publishing with
  | some ⟨call, seq, none⟩ =>
    match newEnvelope now timestamp messageId call.type call.payload cfg.engineId
        (some call.buildJobId) (some call.attemptId) (some seq) with
    | .error x => { s with publishing := none, raised := s.raised ++ [.exc x] }
    | .ok e =>
      match append cfg.outbox clock e s.store.db with
      | (.error x, db) =>
        { s with store := { s.store with db := db }, publishing := none, raised := s.raised ++ [x] }
      | (.ok _, db) =>
        { s with store := { s.store with db := db }, publishing := some ⟨call, seq, some e⟩ }
  | _ => s

/-- `connect_once`, `_heartbeat_loop` and the pong of `_handle_frame` on the open connection. -/
def onConnection (s : State) (c : Connection) : Action → State
  | .welcome cursors =>
    match c.phase with
    | .opened => { s with connection := some { c with phase := .welcomed cursors } }
    | _ => s
  | .hello =>
    match c.phase with
    | .welcomed cursors =>
      { s with connection := some { c.send .hello with phase := .greeted cursors } }
    | _ => s
  | .queryReplay clock =>
    match c.phase with
    | .greeted cursors =>
      match replayAfter clock cursors s.store.db with
      | .ok es => { s with connection := some { c with phase := .replaying es } }
      | .error _ => { s with attached := false, connection := none, closed := c :: s.closed }
    | _ => s
  | .replayNext =>
    match c.phase with
    | .replaying (e :: rest) =>
      { s with connection := some { c.send (.event e) with phase := .replaying rest } }
    | .replaying [] => { s with connection := some { c with phase := .live } }
    | _ => s
  | .heartbeat =>
    match c.phase with
    | .greeted _ | .replaying _ | .live => { s with connection := some (c.send .heartbeat) }
    | _ => s
  | .pong =>
    match c.phase with
    | .live => { s with connection := some (c.send .pong) }
    | _ => s
  | .disconnect => { s with attached := false, connection := none, closed := c :: s.closed }
  | _ => s

/-- What an action does. -/
def step (cfg : UplinkConfig) (s : State) : Action → State
  | .store op => if ofOthers op then { s with store := Ops.apply s.store op } else s
  | .connect =>
    match s.connection with
    | none => { s with attached := true, connection := some ⟨.opened, []⟩ }
    | some _ => s
  | .publishBegin call => publishBegin call s
  | .publishAppend now timestamp messageId clock => publishAppend cfg now timestamp messageId clock s
  | .publishFinish delivered => publishFinish delivered s
  | a =>
    match s.connection with
    | some c => onConnection s c a
    | none => s

end Datetime

end BuildEngine.Agent.Uplink
