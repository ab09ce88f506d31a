import BuildEngine.Queue.Ops

/-! # The event table along a run

What a call can do to the rows of `events` (`mem_events_apply`): a row that is there afterwards was there
before, or it is the row a successful `append` has inserted. The cursor of a job never goes down
(`RowStep.cursor_le`), and so it stays at least the sequence number of every stored event of the attempt
(`cursorCovers_run`). -/

namespace BuildEngine.Queue.Events

open BuildEngine.Base BuildEngine.Base.Run BuildEngine.Agent.Protocol BuildEngine.Queue.Schema
open BuildEngine.Queue BuildEngine.Queue.Store BuildEngine.Queue.Outbox BuildEngine.Queue.Ops

/-! ### Statements -/

theorem mem_events_insert {db db' : Db} {e f : EventRow} (h : db.insertEvent e = some db') :
    f ∈ db'.events.rows ↔ f ∈ db.events.rows ∨ f = e := by
  unfold Db.insertEvent at h
  split_ifs at h
  simp only [Option.some.injEq] at h
  rw [← h]
  simp

theorem mem_events_deleteEvents {db : Db} {p : EventRow → Bool} {f : EventRow} :
    f ∈ (db.deleteEvents p).events.rows ↔ f ∈ db.events.rows ∧ p f = false := Table.mem_delete

/-- The event of a sequence number. -/
theorem mem_of_event? {db : Db} {a : PyStr} {n : ℕ} {e : EventRow} (h : db.event? a n = some e) :
    e ∈ db.events.rows ∧ e.attemptId = a ∧ e.seq = n := by
  have hp := List.find?_some h
  exact ⟨List.mem_of_find?_eq_some h, by simpa using hp⟩

theorem event?_eq_none {db : Db} {a : PyStr} {n : ℕ} :
    db.event? a n = none ↔ ∀ e ∈ db.events.rows, e.attemptId = a → e.seq ≠ n := by
  simp [Db.event?, List.find?_eq_none]

/-- The event of a sequence number is the row that has it. -/
theorem event?_of_mem {db : Db} {f : EventRow} (hf : f ∈ db.events.rows) :
    db.event? f.attemptId f.seq = some f := by
  rcases h : db.event? f.attemptId f.seq with _ | g
  · exact absurd rfl (event?_eq_none.mp h f hf rfl)
  · obtain ⟨hg, ha, hs⟩ := mem_of_event? h
    rw [db.unique_seq g hg f hf ha hs]

/-- An insertion that succeeds finds its number free. -/
theorem event?_none_of_insert {db db' : Db} {e : EventRow} (h : db.insertEvent e = some db') :
    db.event? e.attemptId e.seq = none := by
  unfold Db.insertEvent at h
  split_ifs at h with hc
  simp only [Db.canInsertEvent, Bool.and_eq_true, Option.isNone_iff_eq_none] at hc
  exact hc.1.2

theorem mem_pruneSync {cfg : OutboxConfig} {now : Instant} {db : Db} {f : EventRow}
    (hf : f ∈ (pruneSync cfg now db).2.events.rows) : f ∈ db.events.rows :=
  (pruned_pruneSync cfg now db).events f hf

/-! ### The calls on jobs leave the events alone -/

theorem events_enqueue (s : Store) (now : Instant) (payload : List (PyStr × Json)) :
    (s.enqueue now payload).2.db.events = s.db.events := by
  rw [db_enqueue]
  split
  · unfold Db.insertOrIgnoreJob
    split_ifs <;> rfl
  · rfl

theorem events_acquireLoop {now : Stamp} : ∀ {fuel : ℕ} {db db' : Db} {found : Option JobRow},
    acquireLoop now fuel db = some (db', found) → db'.events = db.events
  | 0, _, _, _, h => by simp [acquireLoop] at h
  | fuel + 1, db, db', found, h => by
    rw [acquireLoop] at h
    split at h
    · cases h; rfl
    · split_ifs at h
      · exact (events_acquireLoop h).trans rfl
      · cases h; rfl

theorem events_acquireLease (s : Store) (now : Instant) (token owner : PyStr) (timeout : ℤ) :
    (s.acquireLease now token owner timeout).2.db.events = s.db.events := by
  unfold acquireLease
  dsimp only
  split
  · rfl
  · next h => exact events_acquireLoop h
  · next h =>
    have he := events_acquireLoop h
    split <;> exact he

theorem events_refreshLease (s : Store) (now : Instant) (a owner : PyStr) (timeout : ℤ)
    (token : Option PyStr) : (s.refreshLease now a owner timeout token).2.db.events = s.db.events := by
  unfold refreshLease
  dsimp only
  split_ifs
  · split <;> rfl
  · rfl

theorem events_transition (s : Store) (now : Instant) (a state : PyStr)
    (error expected owner token : Option PyStr) :
    (s.transition now a state error expected owner token).2.db.events = s.db.events := by
  unfold transition
  split
  · rfl
  · split
    · rfl
    · split
      · rfl
      · rfl
      · dsimp only
        split_ifs
        · split <;> rfl
        · rfl

theorem events_recordExecutorCrash (s : Store) (now : Instant) (a error : PyStr)
    (owner token : Option PyStr) :
    (s.recordExecutorCrash now a error owner token).2.db.events = s.db.events := by
  unfold recordExecutorCrash
  dsimp only
  split
  · rfl
  · split_ifs
    · unfold Db.insertOrIgnoreDlq
      split_ifs <;> split <;> rfl
    · split <;> rfl

/-! ### One call -/

/-- The row is the one the call has inserted. -/
def Inserts (op : Op) (f : EventRow) : Prop :=
  ∃ cfg clock e text, op = .append cfg clock e ∧ e.attemptId = some f.attemptId ∧
    e.seq = some f.seq ∧ e.toJson = .ok text ∧
    f = eventRow e.id f.attemptId f.seq e.type text clock.created

theorem mem_events_append {cfg : OutboxConfig} {clock : AppendClock} {e : Envelope} {db : Db}
    {f : EventRow} (h : f ∈ (append cfg clock e db).2.events.rows) :
    f ∈ db.events.rows ∨ Inserts (.append cfg clock e) f := by
  have hstep := append_step cfg clock e db
  generalize (append cfg clock e db).1 = result, (append cfg clock e db).2 = db₁ at hstep h
  cases hstep with
  | refused => exact Or.inl h
  | repeated => exact Or.inl h
  | inserted ha hs _ ht hi =>
    have hraised := mem_pruneSync h
    rcases (mem_events_insert hi).mp hraised with h | rfl
    · exact Or.inl h
    · exact Or.inr ⟨_, _, e, _, rfl, ha, hs, ht, rfl⟩

theorem mem_of_events_eq {s s' : Store} {f : EventRow} (h : s'.db.events = s.db.events)
    (hf : f ∈ s'.db.events.rows) : f ∈ s.db.events.rows := h ▸ hf

/-- What a call can do to the events. -/
theorem mem_events_apply {s : Store} {op : Op} {f : EventRow} (h : f ∈ (apply s op).db.events.rows) :
    f ∈ s.db.events.rows ∨ Inserts op f := by
  cases op with
  | enqueue now payload => exact Or.inl (mem_of_events_eq (events_enqueue s now payload) h)
  | acquireLease now token owner timeout =>
    exact Or.inl (mem_of_events_eq (events_acquireLease s now token owner timeout) h)
  | refreshLease now a owner timeout token =>
    exact Or.inl (mem_of_events_eq (events_refreshLease s now a owner timeout token) h)
  | transition now a state error expected owner token =>
    exact Or.inl (mem_of_events_eq (events_transition s now a state error expected owner token) h)
  | requestCancel now b a => exact Or.inl h
  | recordExecutorCrash now a error owner token =>
    exact Or.inl (mem_of_events_eq (events_recordExecutorCrash s now a error owner token) h)
  | pruneTerminal now retention => exact Or.inl (Table.mem_delete.mp h).1
  | append cfg clock e => exact mem_events_append h
  | ackThrough a n =>
    left
    revert h
    show f ∈ (ackThrough a n s.db).2.events.rows → _
    unfold ackThrough
    split_ifs
    · exact id
    · exact fun h => (mem_events_deleteEvents.mp h).1
  | prune cfg now => exact Or.inl (mem_pruneSync h)
  | restart => exact Or.inl h

/-- The cursor of a job never goes down. -/
theorem RowStep.cursor_le {op : Op} {r r' : JobRow} (h : RowStep op (some r) (some r')) :
    r.sequenceCursor ≤ r'.sequenceCursor := by
  cases h with
  | cursor => exact le_max_left _ _
  | _ => exact le_rfl

/-! ### The cursor and the events -/

/-- For every attempt, the cursor is at least the sequence number of each stored event. -/
def CursorCovers (db : Db) : Prop :=
  ∀ f ∈ db.events.rows, ∀ r, db.job? f.attemptId = some r → f.seq ≤ r.sequenceCursor

/-- The row of an attempt that has an event. -/
theorem job?_of_event {db : Db} {f : EventRow} (hf : f ∈ db.events.rows) :
    ∃ r, db.job? f.attemptId = some r := Option.isSome_iff_exists.mp (db.foreign_key f hf)

/-- An insertion that succeeds finds the job of its event. -/
theorem job?_of_insertEvent {db db' : Db} {f : EventRow} (hi : db.insertEvent f = some db') :
    ∃ r, db.job? f.attemptId = some r := by
  obtain ⟨r, hr⟩ := job?_of_event ((mem_events_insert hi).mpr (Or.inr rfl))
  exact ⟨r, (Db.job?_insertEvent hi _).symm.trans hr⟩

/-- The cursor after an insertion covers the inserted event. -/
theorem cursor_raised {cfg : OutboxConfig} {clock : AppendClock} {e : Envelope} {db : Db}
    {f : EventRow} {r : JobRow} (hi : Inserts (.append cfg clock e) f)
    (hnew : f ∉ db.events.rows) (hf : f ∈ (append cfg clock e db).2.events.rows)
    (hr : (append cfg clock e db).2.job? f.attemptId = some r) : f.seq ≤ r.sequenceCursor := by
  obtain ⟨_, _, _, _, ⟨⟩, ha', hs', _⟩ := hi
  have hstep := append_step cfg clock e db
  generalize (append cfg clock e db).1 = result, (append cfg clock e db).2 = db₁ at hstep hf hr
  cases hstep with
  | refused => exact absurd hf hnew
  | repeated => exact absurd hf hnew
  | inserted ha hs _ _ hi =>
    cases ha.symm.trans ha'
    cases hs.symm.trans hs'
    rw [job?_pruneSync, raiseCursor, Db.job?_updateJobs, Db.job?_insertEvent hi,
      Option.map_eq_some_iff] at hr
    obtain ⟨r₀, hr₀, rfl⟩ := hr
    rw [if_pos (by simpa using Db.attemptId_of_job? hr₀)]
    exact le_max_right _ _

/-- Every call keeps the cursors above the events. -/
theorem CursorCovers.apply {s : Store} (h : CursorCovers s.db) (op : Op) :
    CursorCovers (apply s op).db := by
  intro f hf r' hr'
  by_cases hold : f ∈ s.db.events.rows
  · obtain ⟨r, hr⟩ := job?_of_event hold
    have hstep := rowStep s op f.attemptId
    rw [hr, hr'] at hstep
    exact (h f hold r hr).trans (RowStep.cursor_le hstep)
  · rcases mem_events_apply hf with hf' | hi
    · exact absurd hf' hold
    · obtain ⟨cfg, clock, e, _, rfl, _⟩ := id hi
      exact cursor_raised hi hold hf hr'

/-- **The cursors cover the events** in every state of every run. -/
theorem cursorCovers_run (ops : List Op) : CursorCovers (run Ops.apply Store.empty ops).db :=
  run_invariant (I := fun s : Store => CursorCovers s.db) (fun _ op h => h.apply op) ops
    (fun f hf => absurd hf (by simp [Store.empty, Db.empty, Table.empty]))

/-- Where the cursor covers the events, the next sequence number is unused. -/
theorem CursorCovers.next_unused {db : Db} (h : CursorCovers db) {a : PyStr} {n : ℕ}
    (hn : nextSeq a db = .ok n) : db.event? a n = none := by
  rw [event?_eq_none]
  rintro f hf rfl rfl
  unfold nextSeq at hn
  split at hn
  · cases hn
  · next r hr =>
    have := h f hf r hr
    simp only [Except.ok.injEq] at hn
    omega

/-! ### Appending under a free number -/

/-- The conflicting-sequence error names a number in use. -/
theorem append_conflicting {cfg : OutboxConfig} {clock : AppendClock} {e : Envelope} {db : Db} {a : PyStr}
    {n : ℕ} (ha : e.attemptId = some a) (hn : e.seq = some n)
    (h : (append cfg clock e db).1 = .error (.queue .conflictingEvent)) : (db.event? a n).isSome := by
  unfold append at h
  rw [ha, hn] at h
  dsimp only at h
  unfold appendStates at h
  split_ifs at h
  · cases h
  · rcases hx : db.event? a n with _ | row
    · rw [hx] at h
      split at h
      · next hs =>
        simp only at hs
        split at hs
        · cases hs; cases h
        · split at hs
          · cases hs; cases h
          · cases hs
      · cases h
    · rfl

/-- An append under a free number raises something else and changes nothing, or raises the cursor of
the attempt to the number and no other. -/
theorem append_of_free {e : Envelope} {db : Db} {a : PyStr} {n : ℕ} (ha : e.attemptId = some a)
    (hn : e.seq = some n) (hfree : db.event? a n = none) (cfg : OutboxConfig) (clock : AppendClock) :
    (∃ x, append cfg clock e db = (.error x, db) ∧ x ≠ .queue .conflictingEvent) ∨
    ∃ db' r, append cfg clock e db = (.ok (), db') ∧ db.job? a = some r ∧
      db'.job? a = some (cursorRow n (formatDatetime clock.updated) r) ∧
      ∀ b, b ≠ a → db'.job? b = db.job? b := by
  have hconf : (append cfg clock e db).1 ≠ .error (.queue .conflictingEvent) := by
    intro h
    have := append_conflicting ha hn h
    rw [hfree] at this
    cases this
  have hstep := append_step cfg clock e db
  have hpair : append cfg clock e db = ((append cfg clock e db).1, (append cfg clock e db).2) := rfl
  rw [hpair]
  generalize (append cfg clock e db).1 = result, (append cfg clock e db).2 = db₁ at hstep hconf
  cases hstep with
  | refused x => exact Or.inl ⟨x, rfl, fun hx => hconf (by rw [hx])⟩
  | repeated ha' hn' _ hr _ =>
    cases ha.symm.trans ha'
    cases hn.symm.trans hn'
    rw [hfree] at hr; cases hr
  | inserted ha' hn' _ _ hi =>
    cases ha.symm.trans ha'
    cases hn.symm.trans hn'
    obtain ⟨r, hr⟩ := job?_of_insertEvent hi
    refine Or.inr ⟨_, r, rfl, hr, ?_, fun b hb => ?_⟩
    · rw [job?_pruneSync, raiseCursor]
      exact job?_update_of_guard ((Db.job?_insertEvent hi a).trans hr)
        (decide_eq_true (Db.attemptId_of_job? hr))
    · rw [job?_pruneSync, raiseCursor, job?_update_of_ne (fun r hr => by simp [hr, hb]),
        Db.job?_insertEvent hi]

end BuildEngine.Queue.Events
