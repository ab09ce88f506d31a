import BuildEngine.Queue.Events

/-! # An append that is cut short

`_append_sync` runs its statements one by one on a connection in autocommit mode. `appendPath` lists the
durable states of the call, from the one before it: the state at index `k` is what a process that dies, or
an exception, after `k` of the writing statements leaves behind. Between the `INSERT` and the `UPDATE` of
the cursor the new event is above its cursor; at every other point the cursors cover the events, so the next
sequence number of each attempt is free. -/

namespace BuildEngine.Queue.AppendAtomicity

open BuildEngine.Base BuildEngine.Base.Run BuildEngine.Agent.Protocol BuildEngine.Queue.Schema
open BuildEngine.Queue BuildEngine.Queue.Store BuildEngine.Queue.Outbox BuildEngine.Queue.Ops
open BuildEngine.Queue.Events

/-- The durable states an append goes through, from the one before it. -/
def appendPath (cfg : OutboxConfig) (clock : AppendClock) (e : Envelope) (db : Db) : List Db :=
  match e.attemptId, e.seq with
  | some a, some n =>
    match appendStates cfg clock e a n db with
    | .error _ => [db]
    | .ok states => db :: states
  | _, _ => [db]

/-- An append that is not cut short ends in the last of them. -/
theorem getLast?_appendPath (cfg : OutboxConfig) (clock : AppendClock) (e : Envelope) (db : Db) :
    (appendPath cfg clock e db).getLast? = some (append cfg clock e db).2 := by
  unfold appendPath append
  rcases e.attemptId with _ | a <;> rcases e.seq with _ | n
  · rfl
  · rfl
  · rfl
  · rcases h : appendStates cfg clock e a n db with x | states
    · simp only [h]; rfl
    · simp only [h, List.getLast?_cons, List.getLastD_eq_getLast?]

/-- Each attempt's next sequence number is unused, and appending an event under it does not raise the
conflicting-sequence error. -/
def NextPublishes (db : Db) : Prop :=
  ∀ a n, nextSeq a db = .ok n → db.event? a n = none ∧
    ∀ cfg clock (e : Envelope), e.attemptId = some a → e.seq = some n →
      (append cfg clock e db).1 ≠ .error (.queue .conflictingEvent)

/-- The sequence number of the envelope is above the cursor of its attempt. -/
def AboveCursor (e : Envelope) (db : Db) : Prop :=
  ∃ a n r, e.attemptId = some a ∧ e.seq = some n ∧ db.job? a = some r ∧ r.sequenceCursor < n

/-! ### The states of an append -/

/-- Where the cursors cover the events, the next publish is not in conflict. -/
theorem nextPublishes_of_covers {db : Db} (h : CursorCovers db) : NextPublishes db := by
  intro a n hn
  refine ⟨h.next_unused hn, fun cfg clock e ha hs hconf => ?_⟩
  have := append_conflicting ha hs hconf
  rw [h.next_unused hn] at this
  cases this

/-- A state with the same jobs and no more events. -/
theorem covers_of_subset {db db' : Db} (h : CursorCovers db) (hjobs : ∀ a, db'.job? a = db.job? a)
    (hevents : ∀ f ∈ db'.events.rows, f ∈ db.events.rows) : CursorCovers db' := by
  intro f hf r hr
  exact h f (hevents f hf) r ((hjobs f.attemptId).symm.trans hr)

/-- The statement that raises the cursor makes it cover the event just inserted. -/
theorem covers_raised {db db' : Db} {f : EventRow} {now : Stamp} (h : CursorCovers db)
    (hi : db.insertEvent f = some db') : CursorCovers (raiseCursor f.attemptId f.seq now db') := by
  intro g hg r hr
  rw [raiseCursor, Db.job?_updateJobs, Db.job?_insertEvent hi, Option.map_eq_some_iff] at hr
  obtain ⟨r₀, hr₀, rfl⟩ := hr
  rcases (mem_events_insert hi).mp hg with hold | rfl
  · have hle := h g hold r₀ hr₀
    split_ifs
    · exact hle.trans (le_max_left _ _)
    · exact hle
  · rw [if_pos (by simpa using Db.attemptId_of_job? hr₀)]
    exact le_max_right _ _

/-- Right after the insertion, the cursors cover the events unless the new one is above its cursor. -/
theorem covers_inserted {db db' : Db} {f : EventRow} {r : JobRow} (h : CursorCovers db)
    (hi : db.insertEvent f = some db') (hr : db.job? f.attemptId = some r) :
    CursorCovers db' ↔ f.seq ≤ r.sequenceCursor := by
  constructor
  · intro h'
    exact h' f ((mem_events_insert hi).mpr (Or.inr rfl)) r ((Db.job?_insertEvent hi _).trans hr)
  · intro hle g hg r' hr'
    rw [Db.job?_insertEvent hi] at hr'
    rcases (mem_events_insert hi).mp hg with hold | rfl
    · exact h g hold r' hr'
    · cases hr.symm.trans hr'
      exact hle

/-- What an append that inserts an event goes through. -/
theorem appendPath_cases (cfg : OutboxConfig) (clock : AppendClock) (e : Envelope) (db : Db) :
    appendPath cfg clock e db = [db] ∨
    ∃ f db', e.attemptId = some f.attemptId ∧ e.seq = some f.seq ∧ db.insertEvent f = some db' ∧
      appendPath cfg clock e db = db :: insertStates cfg clock f db' := by
  unfold appendPath
  split
  · next a n ha hn =>
    split
    · exact Or.inl rfl
    · next states hst =>
      unfold appendStates at hst
      split_ifs at hst
      split at hst
      · split at hst
        · cases hst
        · split_ifs at hst
          cases hst
          exact Or.inl rfl
      · split at hst
        · cases hst
        · dsimp only at hst
          split at hst
          · cases hst
          · next db' hi =>
            cases hst
            exact Or.inr ⟨_, db', ha, hn, hi, rfl⟩
  · exact Or.inl rfl

/-- **When an append that is cut short leaves the outbox consistent.** From a state whose cursors cover
the events, the state after the first `k` writing statements of an append has its cursors above the events
and every next sequence number free, exactly unless the append was cut right after its `INSERT` and the
event is above the cursor of its attempt. -/
theorem append_interrupted_iff (cfg : OutboxConfig) (clock : AppendClock) (e : Envelope) (db db' : Db)
    (k : ℕ) (hcov : CursorCovers db) (hk : (appendPath cfg clock e db)[k]? = some db') :
    (CursorCovers db' ∧ NextPublishes db') ↔ ¬ (k = 1 ∧ AboveCursor e db) := by
  have hpub : CursorCovers db' ∧ NextPublishes db' ↔ CursorCovers db' :=
    ⟨And.left, fun h => ⟨h, nextPublishes_of_covers h⟩⟩
  rw [hpub]
  rcases appendPath_cases cfg clock e db with hp | ⟨f, db₁, ha, hn, hi, hp⟩
  · rw [hp] at hk
    cases k with
    | zero =>
      cases hk
      exact ⟨fun _ => by simp, fun _ => hcov⟩
    | succ k => simp at hk
  · rw [hp, insertStates] at hk
    obtain ⟨r, hr⟩ := job?_of_insertEvent hi
    match k with
    | 0 =>
      cases hk
      exact ⟨fun _ => by simp, fun _ => hcov⟩
    | 1 =>
      cases hk
      rw [covers_inserted hcov hi hr]
      constructor
      · rintro hle ⟨-, a, n, r', ha', hn', hr', hlt⟩
        cases ha.symm.trans ha'
        cases hn.symm.trans hn'
        cases hr.symm.trans hr'
        omega
      · intro h
        by_contra hlt
        exact h ⟨rfl, _, _, r, ha, hn, hr, Nat.lt_of_not_le hlt⟩
    | 2 =>
      cases hk
      exact ⟨fun _ => by simp, fun _ => covers_raised hcov hi⟩
    | k + 3 =>
      have hm : db' ∈ pruneStates cfg clock.pruned
          (raiseCursor f.attemptId f.seq (formatDatetime clock.updated) db₁) :=
        List.mem_of_getElem? (by simpa using hk)
      refine ⟨fun _ => by simp, fun _ => ?_⟩
      have hpruned := pruned_pruneStates hm
      exact covers_of_subset (covers_raised hcov hi) hpruned.job? hpruned.events

/-! ### An append cut after its `INSERT` -/

/-- The database with the sample attempt enqueued. -/
def sampleDb : Db := (run apply Store.empty [.enqueue 0 samplePayload]).db

/-- The durable states of appending its first event. -/
def samplePath : List Db :=
  appendPath sampleConfig ⟨1000, 2000, 3000⟩
    (sampleEvent (py "00000000-0000-4000-8000-000000000001") 1) sampleDb

set_option maxRecDepth 10000 in
/-- An append of the next event in line that is cut right after its `INSERT` leaves the cursor below
the event: the next number is taken, and publishing the next event raises. -/
theorem append_interrupted_conflicts :
    CursorCovers sampleDb ∧
    ∃ db', samplePath[1]? = some db' ∧ nextSeq sampleAttempt db' = .ok 1 ∧
      (db'.event? sampleAttempt 1).isSome ∧
      (append sampleConfig ⟨4000, 5000, 6000⟩
        (sampleEvent (py "00000000-0000-4000-8000-000000000002") 1) db').1 =
          .error (.queue .conflictingEvent) ∧
      ¬ CursorCovers db' := by
  refine ⟨cursorCovers_run _, _, rfl, rfl, rfl, rfl, fun h => ?_⟩
  exact absurd (h _ (List.mem_singleton_self _) _ rfl) (by decide)

theorem samplePath_two : ∃ db', samplePath[2]? = some db' :=
  Option.isSome_iff_exists.mp (by decide +kernel)

/-- The same append cut after the cursor is raised. -/
theorem append_interrupted_iff_raised :
    CursorCovers sampleDb ∧ ∃ db', samplePath[2]? = some db' ∧ CursorCovers db' ∧ NextPublishes db' := by
  obtain ⟨db', h⟩ := samplePath_two
  exact ⟨cursorCovers_run _, db', h,
    (append_interrupted_iff _ _ _ sampleDb db' 2 (cursorCovers_run _) h).mpr (by simp)⟩

end BuildEngine.Queue.AppendAtomicity
