import BuildEngine.Queue.Store

/-! # `SQLiteEventOutbox`

The event spool of `queue/store.py`. The connection is opened with `isolation_level=None`, so every
statement of `_append_sync` and `_prune_sync` is durable by itself: `appendStates` and `pruneStates` list
the durable states a call goes through, in order, and a call ends in the last of them. -/

namespace BuildEngine.Queue.Outbox

open BuildEngine.Base BuildEngine.Base.Json BuildEngine.Agent.Protocol BuildEngine.Queue.Schema
open BuildEngine.Queue

/-- `max_bytes` and `retention_days` of the outbox. -/
structure OutboxConfig where
  maxBytes : ℤ
  retentionDays : ℤ
  deriving DecidableEq

/-- What an outbox call may raise: `integrity` is a failed constraint of SQLite, `overflow` an integer
SQLite cannot hold. -/
inductive OutboxError where
  | queue (e : QueueError)
  | exc (e : Exc)
  | integrity
  | overflow

/-- The integers of a SQLite column are below `2 ^ 63`. -/
def maxSqliteInt : ℕ := 2 ^ 63

/-! ### Pruning -/

/-- `ORDER BY created_at, attempt_id, seq` -/
def eventOrder (a b : EventRow) : Prop :=
  a.createdAt < b.createdAt ∨ (a.createdAt = b.createdAt ∧
    (a.attemptId < b.attemptId ∨ (a.attemptId = b.attemptId ∧ a.seq ≤ b.seq)))

instance : DecidableRel eventOrder := fun _ _ => inferInstanceAs (Decidable (_ ∨ _))

instance eventOrder_total : Std.Total eventOrder where
  total a b := by
    unfold eventOrder
    rcases lt_trichotomy a.createdAt b.createdAt with h | h | h
    · exact Or.inl (Or.inl h)
    · rcases lt_trichotomy a.attemptId b.attemptId with h' | h' | h'
      · exact Or.inl (Or.inr ⟨h, Or.inl h'⟩)
      · rcases le_total a.seq b.seq with h'' | h''
        · exact Or.inl (Or.inr ⟨h, Or.inr ⟨h', h''⟩⟩)
        · exact Or.inr (Or.inr ⟨h.symm, Or.inr ⟨h'.symm, h''⟩⟩)
      · exact Or.inr (Or.inr ⟨h.symm, Or.inl h'⟩)
    · exact Or.inr (Or.inl h)

instance eventOrder_trans : IsTrans EventRow eventOrder where
  trans a b c := by
    rintro (h | ⟨h, h' | ⟨h', h''⟩⟩) (k | ⟨k, k' | ⟨k', k''⟩⟩)
    · exact Or.inl (h.trans k)
    · exact Or.inl (k ▸ h)
    · exact Or.inl (k ▸ h)
    · exact Or.inl (h ▸ k)
    · exact Or.inr ⟨h.trans k, Or.inl (h'.trans k')⟩
    · exact Or.inr ⟨h.trans k, Or.inl (k' ▸ h')⟩
    · exact Or.inl (h ▸ k)
    · exact Or.inr ⟨h.trans k, Or.inl (h' ▸ k')⟩
    · exact Or.inr ⟨h.trans k, Or.inr ⟨h'.trans k', h''.trans k''⟩⟩

/-- `_event_bytes`: the total length of the stored envelopes. -/
def eventBytes (db : Db) : ℤ := ((db.events.rows.map fun e => e.envelopeJson.length).sum : ℕ)

/-- The row the next removal by size takes: the oldest log event, or else the oldest event. -/
def oldest? (db : Db) : Option EventRow :=
  match db.events.selectFirst (fun e => e.type = .attemptLog) eventOrder with
  | some e => some e
  | none => db.events.selectFirst (fun _ => true) eventOrder

/-- The removal by age: events of terminal attempts older than the cutoff. -/
def pruneByAge (cutoff : Stamp) (db : Db) : Db :=
  db.deleteEvents fun e => e.createdAt < cutoff && (db.job? e.attemptId).any (·.state.isTerminal)

/-- The states after each turn of the loop that removes by size. A turn deletes a row, so a table of
`n` rows needs at most `n` turns. -/
def pruneBySizeStates (maxBytes : ℤ) : ℕ → Db → List Db
  | 0, _ => []
  | fuel + 1, db =>
    if eventBytes db > maxBytes then
      match oldest? db with
      | none => []
      | some e =>
        let db' := db.deleteEvents fun f => f.id = e.id
        db' :: pruneBySizeStates maxBytes fuel db'
    else []

/-- The durable states `_prune_sync` goes through. -/
def pruneStates (cfg : OutboxConfig) (now : Instant) (db : Db) : List Db :=
  let db' := pruneByAge (formatDatetime (now - days cfg.retentionDays)) db
  db' :: pruneBySizeStates cfg.maxBytes db'.events.rows.length db'

/-- `_prune_sync`, and the number of rows it removes. -/
def pruneSync (cfg : OutboxConfig) (now : Instant) (db : Db) : ℕ × Db :=
  let db' := (pruneStates cfg now db).getLastD db
  (db.events.rows.length - db'.events.rows.length, db')

/-! ### Append -/

/-- The clock readings of one append: for `created_at`, for `updated_at`, and of `_prune_sync`. -/
structure AppendClock where
  created : Instant
  updated : Instant
  pruned : Instant
  deriving DecidableEq

/-- The `SET` list `sequence_cursor = MAX(sequence_cursor, seq)`. -/
def cursorRow (seq : ℕ) (now : Stamp) (r : JobRow) : JobRow :=
  { r with sequenceCursor := max r.sequenceCursor seq, updatedAt := now }

theorem attemptId_cursorRow (seq : ℕ) (now : Stamp) (r : JobRow) :
    (cursorRow seq now r).attemptId = r.attemptId := rfl

/-- `UPDATE jobs SET sequence_cursor = MAX(sequence_cursor, seq), updated_at = now WHERE attempt_id = …` -/
def raiseCursor (attemptId : PyStr) (seq : ℕ) (now : Stamp) (db : Db) : Db :=
  db.updateJobs (fun r => r.attemptId = attemptId) (cursorRow seq now) (attemptId_cursorRow seq now)

/-- The row of an event. -/
def eventRow (id attemptId : PyStr) (seq : ℕ) (type : MessageType) (text : PyStr) (created : Instant) :
    EventRow :=
  ⟨id, attemptId, seq, type, text, formatDatetime created⟩

/-- The durable states of an append that inserts the row `e`, with the database `db'` the insertion
gives: the insertion, the cursor, and those of the pruning. -/
def insertStates (cfg : OutboxConfig) (clock : AppendClock) (e : EventRow) (db' : Db) : List Db :=
  let raised := raiseCursor e.attemptId e.seq (formatDatetime clock.updated) db'
  db' :: raised :: pruneStates cfg clock.pruned raised

/-- `append` after the check of its fields: what it raises, or the durable states it goes through. -/
def appendStates (cfg : OutboxConfig) (clock : AppendClock) (e : Envelope) (attemptId : PyStr)
    (seq : ℕ) (db : Db) : Except OutboxError (List Db) :=
  if seq ≥ maxSqliteInt then .error .overflow
  else match db.event? attemptId seq with
    | some existing =>
      match e.toJson with
      | .error x => .error (.exc x)
      | .ok text =>
        if existing.envelopeJson ≠ text then .error (.queue .conflictingEvent) else .ok []
    | none =>
      match e.toJson with
      | .error x => .error (.exc x)
      | .ok text =>
        let row := eventRow e.id attemptId seq e.type text clock.created
        match db.insertEvent row with
        | none => .error .integrity
        | some db' => .ok (insertStates cfg clock row db')

/-- `append` -/
def append (cfg : OutboxConfig) (clock : AppendClock) (e : Envelope) (db : Db) :
    Except OutboxError Unit × Db :=
  match e.attemptId, e.seq with
  | some attemptId, some seq =>
    match appendStates cfg clock e attemptId seq db with
    | .error x => (.error x, db)
    | .ok states => (.ok (), states.getLastD db)
  | _, _ => (.error (.exc (.protocol .outboxFields)), db)

/-! ### Acknowledgement, sequence numbers and replay -/

/-- `ack_through` -/
def ackThrough (attemptId : PyStr) (lastSeq : ℕ) (db : Db) : Except OutboxError Unit × Db :=
  if lastSeq ≥ maxSqliteInt then (.error .overflow, db)
  else (.ok (), db.deleteEvents fun e => e.attemptId = attemptId && e.seq ≤ lastSeq)

/-- `next_seq` -/
def nextSeq (attemptId : PyStr) (db : Db) : Except OutboxError ℕ :=
  match db.job? attemptId with
  | none => .error (.queue .sequenceUnknown)
  | some r => .ok (r.sequenceCursor + 1)

/-- What `_replay_rows_sync` reads in a stored text: the sequence number and the attempt. -/
def replayKey (text : PyStr) : Except Exc (ℤ × PyStr) :=
  match loads text with
  | .ok (.obj raw) =>
    match (get? raw (py "seq")).getD (.int 0), (get? raw (py "attempt_id")).getD (.str []) with
    | .int n, .str a => .ok (n, a)
    | _, _ => .error .typeError
  | .ok _ => .error .typeError
  | .error _ => .error .valueError

/-- `_replay_rows_sync`: the rows above the cursors, in order. -/
def replayRows (cursors : List (PyStr × ℕ)) : List EventRow → Except Exc (List EventRow)
  | [] => .ok []
  | row :: rows =>
    match replayKey row.envelopeJson, replayRows cursors rows with
    | .error x, _ => .error x
    | .ok _, .error x => .error x
    | .ok (n, a), .ok kept => .ok (if n > cursor cursors a then row :: kept else kept)

section Datetime
variable [PyDatetime]

/-- The second decoding of a stored row; `now` is the reading its validation makes. -/
def decodeRow (now : Instant) (row : EventRow) : Except Exc Envelope :=
  match loads row.envelopeJson with
  | .ok (.obj raw) =>
    decodeFrame now outboundMessageTypes
      (dumps (.obj (setDefault raw (py "engine_id") (.str zeroEngineId))))
  | .ok _ => .error .typeError
  | .error _ => .error .valueError

/-- The loop of `replay_after` over the rows: a row that breaks the protocol is skipped. -/
def replayEvents (clock : EventRow → Instant) (cursors : List (PyStr × ℕ)) :
    List EventRow → Except Exc (List Envelope)
  | [] => .ok []
  | row :: rows =>
    match decodeRow (clock row) row, replayEvents clock cursors rows with
    | .error (.protocol _), rest => rest
    | .error x, _ => .error x
    | .ok _, .error x => .error x
    | .ok e, .ok rest =>
      match e.attemptId, e.seq with
      | some a, some n => .ok (if n > cursor cursors a then e :: rest else rest)
      | _, _ => .ok rest

/-- `replay_after`; `clock` gives the reading made when a row is decoded. -/
def replayAfter (clock : EventRow → Instant) (cursors : List (PyStr × ℕ)) (db : Db) :
    Except Exc (List Envelope) :=
  match replayRows cursors (db.events.select (fun _ => true) eventOrder) with
  | .error x => .error x
  | .ok rows => replayEvents clock cursors rows

end Datetime

end BuildEngine.Queue.Outbox
