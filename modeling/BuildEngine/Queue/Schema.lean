import BuildEngine.Base.Table
import BuildEngine.Agent.Protocol

/-! # The schema of `queue.sqlite`

The three tables of `_create_v1_schema` and `_migrate_to_v2`, with their constraints: `attempt_id` is the key
of `jobs` and `dlq`, `id` the key of `events`, `(attempt_id, seq)` is unique among the events, and every
event belongs to a job (`FOREIGN KEY … ON DELETE CASCADE`, enforced by `PRAGMA foreign_keys=ON`). A
database that breaks a constraint cannot be built; the statements of the store are the six functions
below. Timestamp columns hold the millisecond a timestamp text spells. -/

namespace BuildEngine.Queue.Schema

open BuildEngine.Base BuildEngine.Agent.Protocol

/-- A stored timestamp, in milliseconds. -/
abbrev Stamp := ℤ

/-- `_format_datetime`: a timestamp text keeps whole milliseconds. -/
def formatDatetime (t : Instant) : Stamp := t / 1000

/-- A number of seconds. -/
def seconds (n : ℤ) : Instant := n * 1000000

/-- A number of days. -/
def days (n : ℤ) : Instant := seconds (n * 86400)

/-! ### Rows -/

/-- The states of an attempt. -/
inductive JobState where
  | queued | leased | running | succeeded | failed | cancelled | timedOut
  deriving DecidableEq

namespace JobState

/-- The text of the `state` column. -/
def text : JobState → PyStr
  | queued => py "QUEUED"
  | leased => py "LEASED"
  | running => py "RUNNING"
  | succeeded => py "SUCCEEDED"
  | failed => py "FAILED"
  | cancelled => py "CANCELLED"
  | timedOut => py "TIMED_OUT"

/-- `state IN ('SUCCEEDED', 'FAILED', 'CANCELLED', 'TIMED_OUT')` -/
def isTerminal : JobState → Bool
  | succeeded | failed | cancelled | timedOut => true
  | _ => false

/-- `state IN ('LEASED', 'RUNNING')` -/
def isLeased : JobState → Bool
  | leased | running => true
  | _ => false

/-- The state a text names. -/
def ofText? (s : PyStr) : Option JobState :=
  [queued, leased, running, succeeded, failed, cancelled, timedOut].find? fun st => st.text = s

@[simp] theorem ofText?_text (st : JobState) : ofText? st.text = some st := by
  cases st <;> decide

theorem text_of_ofText? {s : PyStr} {st : JobState} (h : ofText? s = some st) : st.text = s := by
  have := List.find?_some h
  simpa using this

theorem text_injective {a b : JobState} (h : a.text = b.text) : a = b := by
  have := ofText?_text a
  rw [h, ofText?_text] at this
  exact (Option.some.inj this).symm

end JobState

/-- A row of `jobs`. -/
structure JobRow where
  rowid : ℕ
  buildJobId : PyStr
  attemptId : PyStr
  payloadJson : PyStr
  state : JobState
  leaseOwner : Option PyStr
  leaseToken : Option PyStr
  leaseExpiresAt : Option Stamp
  attempts : ℕ
  sequenceCursor : ℕ
  createdAt : Stamp
  updatedAt : Stamp
  error : Option PyStr
  cancelRequested : Bool
  deriving DecidableEq

/-- A row of `events`. -/
structure EventRow where
  id : PyStr
  attemptId : PyStr
  seq : ℕ
  type : MessageType
  envelopeJson : PyStr
  createdAt : Stamp
  deriving DecidableEq

/-- A row of `dlq`. -/
structure DlqRow where
  attemptId : PyStr
  buildJobId : PyStr
  payloadJson : PyStr
  error : PyStr
  attempts : ℕ
  createdAt : Stamp
  deriving DecidableEq

/-! ### The database -/

/-- The three tables and the constraints between their rows. -/
@[ext] structure Db where
  jobs : Table JobRow.attemptId
  events : Table EventRow.id
  dlq : Table DlqRow.attemptId
  unique_seq : ∀ e ∈ events.rows, ∀ f ∈ events.rows, e.attemptId = f.attemptId → e.seq = f.seq → e = f
  foreign_key : ∀ e ∈ events.rows, (jobs.find? e.attemptId).isSome

instance : DecidableEq Db := fun a b =>
  decidable_of_iff (a.jobs = b.jobs ∧ a.events = b.events ∧ a.dlq = b.dlq) Db.ext_iff.symm

namespace Db

/-- A fresh database. -/
def empty : Db := ⟨.empty, .empty, .empty, by simp [Table.empty], by simp [Table.empty]⟩

/-- The job of an attempt. -/
def job? (db : Db) (attemptId : PyStr) : Option JobRow := db.jobs.find? attemptId

/-- The event of an attempt with a sequence number. -/
def event? (db : Db) (attemptId : PyStr) (seq : ℕ) : Option EventRow :=
  db.events.rows.find? fun e => e.attemptId = attemptId && e.seq = seq

/-- `UPDATE jobs SET … WHERE …`; the key of a row is never set. -/
def updateJobs (db : Db) (p : JobRow → Bool) (f : JobRow → JobRow)
    (hf : ∀ r, (f r).attemptId = r.attemptId) : Db :=
  { db with
    jobs := db.jobs.update p f hf
    foreign_key := fun e he => by
      rw [Table.find?_update, Option.isSome_map]; exact db.foreign_key e he }

/-- The rowid SQLite gives a new job: one above the largest in use. -/
def nextRowid (db : Db) : ℕ := (db.jobs.rows.map JobRow.rowid).foldl max 0 + 1

/-- `INSERT OR IGNORE INTO jobs`. -/
def insertOrIgnoreJob (db : Db) (r : JobRow) : Db :=
  if h : db.jobs.find? r.attemptId = none then
    { db with
      jobs := db.jobs.insert r h
      foreign_key := fun e he => by
        rw [Table.find?_insert]
        split_ifs
        · rfl
        · exact db.foreign_key e he }
  else db

/-- `DELETE FROM jobs WHERE …`; the events of a deleted job go with it. -/
def deleteJobs (db : Db) (p : JobRow → Bool) : Db where
  jobs := db.jobs.delete p
  events := db.events.delete fun e => ((db.jobs.delete p).find? e.attemptId).isNone
  dlq := db.dlq
  unique_seq := fun e he f hf =>
    db.unique_seq e (Table.mem_delete.mp he).1 f (Table.mem_delete.mp hf).1
  foreign_key := fun e he => by
    have := (Table.mem_delete.mp he).2
    simpa [Option.isSome_iff_ne_none, Option.isNone_iff_eq_none] using this

/-- `DELETE FROM events WHERE …`. -/
def deleteEvents (db : Db) (p : EventRow → Bool) : Db :=
  { db with
    events := db.events.delete p
    unique_seq := fun e he f hf =>
      db.unique_seq e (Table.mem_delete.mp he).1 f (Table.mem_delete.mp hf).1
    foreign_key := fun e he => db.foreign_key e (Table.mem_delete.mp he).1 }

/-- The constraints an inserted event must meet. -/
def canInsertEvent (db : Db) (e : EventRow) : Bool :=
  (db.events.find? e.id).isNone && (db.event? e.attemptId e.seq).isNone && (db.job? e.attemptId).isSome

/-- `INSERT INTO events`; `none` when a constraint fails and the statement raises. -/
def insertEvent (db : Db) (e : EventRow) : Option Db :=
  if h : db.canInsertEvent e = true then
    have h' : (db.events.find? e.id = none ∧ db.event? e.attemptId e.seq = none) ∧
        (db.job? e.attemptId).isSome := by
      simpa [canInsertEvent, Bool.and_eq_true, Option.isNone_iff_eq_none] using h
    have hseq : ∀ f ∈ db.events.rows, f.attemptId = e.attemptId → f.seq ≠ e.seq := by
      intro f hf ha hs
      have := List.find?_eq_none.mp h'.1.2 f hf
      simp [ha, hs] at this
    some { db with
      events := db.events.insert e h'.1.1
      unique_seq := fun a ha b hb hab hs => by
        rcases Table.mem_insert.mp ha with ha' | ha' <;> rcases Table.mem_insert.mp hb with hb' | hb'
        · exact db.unique_seq a ha' b hb' hab hs
        · rw [hb'] at hab hs
          exact absurd hs (hseq a ha' hab)
        · rw [ha'] at hab hs
          exact absurd hs.symm (hseq b hb' hab.symm)
        · rw [ha', hb']
      foreign_key := fun a ha => by
        rcases Table.mem_insert.mp ha with ha | rfl
        · exact db.foreign_key a ha
        · exact h'.2 }
  else none

/-- `INSERT OR IGNORE INTO dlq`. -/
def insertOrIgnoreDlq (db : Db) (r : DlqRow) : Db :=
  if h : db.dlq.find? r.attemptId = none then { db with dlq := db.dlq.insert r h } else db

/-! ### The effect of a statement on a job -/

@[simp] theorem job?_empty (a : PyStr) : empty.job? a = none := rfl

theorem attemptId_of_job? {db : Db} {a : PyStr} {r : JobRow} (h : db.job? a = some r) :
    r.attemptId = a := Table.key_of_find? h

@[simp] theorem job?_updateJobs (db : Db) (p : JobRow → Bool) (f : JobRow → JobRow)
    (hf : ∀ r, (f r).attemptId = r.attemptId) (a : PyStr) :
    (db.updateJobs p f hf).job? a = (db.job? a).map fun r => if p r then f r else r :=
  Table.find?_update db.jobs p f hf a

theorem job?_insertOrIgnoreJob (db : Db) (r : JobRow) (a : PyStr) :
    (db.insertOrIgnoreJob r).job? a =
      if r.attemptId = a ∧ db.job? a = none then some r else db.job? a := by
  unfold insertOrIgnoreJob
  split_ifs with h h' h'
  · show (db.jobs.insert r h).find? a = _
    rw [Table.find?_insert, if_pos h'.1]
  · show (db.jobs.insert r h).find? a = _
    rw [Table.find?_insert, if_neg]
    · rfl
    · rintro rfl
      exact h' ⟨rfl, h⟩
  · exact absurd (h'.1 ▸ h'.2 : db.job? r.attemptId = none) h
  · rfl

@[simp] theorem job?_deleteJobs (db : Db) (p : JobRow → Bool) (a : PyStr) :
    (db.deleteJobs p).job? a = (db.job? a).filter fun r => !p r :=
  Table.find?_delete db.jobs p a

@[simp] theorem job?_deleteEvents (db : Db) (p : EventRow → Bool) (a : PyStr) :
    (db.deleteEvents p).job? a = db.job? a := rfl

theorem jobs_insertEvent {db db' : Db} {e : EventRow} (h : db.insertEvent e = some db') :
    db'.jobs = db.jobs := by
  unfold insertEvent at h
  split_ifs at h
  simp only [Option.some.injEq] at h
  rw [← h]

theorem job?_insertEvent {db db' : Db} {e : EventRow} (h : db.insertEvent e = some db') (a : PyStr) :
    db'.job? a = db.job? a := by
  unfold job?; rw [jobs_insertEvent h]

@[simp] theorem job?_insertOrIgnoreDlq (db : Db) (r : DlqRow) (a : PyStr) :
    (db.insertOrIgnoreDlq r).job? a = db.job? a := by
  unfold insertOrIgnoreDlq; split_ifs <;> rfl

end Db

end BuildEngine.Queue.Schema
