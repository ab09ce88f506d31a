import BuildEngine.Queue.Ops

/-! # What pruning removes

`_prune_sync` removes by age and then by size. `SizeStep` says everything one turn of the loop by size does; the
states of a call are a chain of such turns after the removal by age (`pruneStates_chain`), and the bound, the order
of the removals and what is left of the other tables follow from the chain. -/

namespace BuildEngine.Queue.Pruning

open BuildEngine.Base BuildEngine.Agent.Protocol BuildEngine.Queue.Schema BuildEngine.Queue BuildEngine.Queue.Store
open BuildEngine.Queue.Outbox BuildEngine.Queue.Ops

/-- The two classes of the removal by size: log events, and the others. -/
def SameClass (e f : EventRow) : Prop := e.type = .attemptLog ↔ f.type = .attemptLog

/-- One turn of the loop: the events are too large, and the first event of a class is removed, which is the class
of the log events as long as there are some. -/
structure SizeStep (maxBytes : ℤ) (db db' : Db) : Prop where
  exceeds : maxBytes < eventBytes db
  removes : ∃ e ∈ db.events.rows, db' = db.deleteEvents (fun f => f.id = e.id) ∧
    (e.type ≠ .attemptLog → ∀ f ∈ db.events.rows, f.type ≠ .attemptLog) ∧
    ∀ f ∈ db.events.rows, SameClass e f → eventOrder e f

/-- The events the removal by age takes. -/
def Expired (cutoff : Stamp) (db : Db) (e : EventRow) : Prop :=
  e.createdAt < cutoff ∧ ∃ r, db.job? e.attemptId = some r ∧ r.state.isTerminal = true

/-- The cutoff of the removal by age. -/
def cutoff (cfg : OutboxConfig) (now : Instant) : Stamp := formatDatetime (now - days cfg.retentionDays)

/-- The database after the removal by age. -/
def aged (cfg : OutboxConfig) (now : Instant) (db : Db) : Db := pruneByAge (cutoff cfg now) db

/-! ### One turn -/

theorem pos_of_exceeds {maxBytes : ℤ} (hmax : 0 < maxBytes) {db : Db} (h : maxBytes < eventBytes db) :
    db.events.rows ≠ [] := by
  intro hnil
  unfold eventBytes at h
  rw [hnil] at h
  simp only [List.map_nil, List.sum_nil, Nat.cast_zero] at h
  omega

/-- The event of a turn is there, is a log event unless there is none, and is the first of its class. -/
theorem of_oldest? {db : Db} {e : EventRow} (h : oldest? db = some e) :
    e ∈ db.events.rows ∧ (e.type ≠ .attemptLog → ∀ f ∈ db.events.rows, f.type ≠ .attemptLog) ∧
      ∀ f ∈ db.events.rows, SameClass e f → eventOrder e f := by
  unfold oldest? at h
  split at h
  · next e' hlog =>
    obtain rfl : e' = e := Option.some.inj h
    obtain ⟨hmem, htype⟩ := Table.of_selectFirst hlog
    have htype : e'.type = .attemptLog := of_decide_eq_true htype
    refine ⟨hmem, fun hno => absurd htype hno, fun f hf hclass => ?_⟩
    exact Table.le_of_selectFirst hlog hf (decide_eq_true (hclass.mp htype))
  · next hnone =>
    obtain ⟨hmem, -⟩ := Table.of_selectFirst h
    refine ⟨hmem, fun _ f hf => ?_, fun f hf _ => Table.le_of_selectFirst h hf rfl⟩
    simpa using Table.selectFirst_eq_none.mp hnone f hf

/-- As long as the events are too large, there is one to remove. -/
theorem oldest?_isSome {maxBytes : ℤ} (hmax : 0 < maxBytes) {db : Db} (h : maxBytes < eventBytes db) :
    ∃ e, oldest? db = some e := by
  rcases hrow : oldest? db with _ | e
  · exfalso
    unfold oldest? at hrow
    split at hrow
    · cases hrow
    · obtain ⟨e, rest, hrows⟩ := List.exists_cons_of_ne_nil (pos_of_exceeds hmax h)
      have hno := Table.selectFirst_eq_none.mp hrow e (by rw [hrows]; exact List.mem_cons_self)
      cases hno
  · exact ⟨e, rfl⟩

theorem sizeStep_of_oldest? {maxBytes : ℤ} {db : Db} (hexceeds : maxBytes < eventBytes db) {e : EventRow}
    (h : oldest? db = some e) : SizeStep maxBytes db (db.deleteEvents fun f => f.id = e.id) := by
  obtain ⟨hmem, hlog, hfirst⟩ := of_oldest? h
  exact ⟨hexceeds, e, hmem, rfl, hlog, hfirst⟩

/-- A turn removes a row. -/
theorem length_deleteEvents_lt {db : Db} {e : EventRow} (h : e ∈ db.events.rows) :
    (db.deleteEvents fun f => f.id = e.id).events.rows.length < db.events.rows.length := by
  refine List.length_filter_lt_length_iff_exists.mpr ⟨e, h, ?_⟩
  simp

/-! ### The loop -/

/-- The states of the loop are its turns, and the loop ends because the events are small enough: the number of rows
is fuel enough. -/
theorem pruneBySizeStates_spec {maxBytes : ℤ} (hmax : 0 < maxBytes) : ∀ {fuel : ℕ} {db : Db},
    db.events.rows.length ≤ fuel →
    List.IsChain (SizeStep maxBytes) (db :: pruneBySizeStates maxBytes fuel db) ∧
      eventBytes ((pruneBySizeStates maxBytes fuel db).getLastD db) ≤ maxBytes
  | 0, db, hlen => by
    have hnil : db.events.rows = [] := List.length_eq_zero_iff.mp (Nat.le_zero.mp hlen)
    refine ⟨List.isChain_singleton db, ?_⟩
    show eventBytes db ≤ maxBytes
    by_contra hexceeds
    exact pos_of_exceeds hmax (not_le.mp hexceeds) hnil
  | fuel + 1, db, hlen => by
    rw [pruneBySizeStates]
    split_ifs with hexceeds
    · obtain ⟨e, he⟩ := oldest?_isSome hmax hexceeds
      have hstep := sizeStep_of_oldest? hexceeds he
      have hfuel : (db.deleteEvents fun f => f.id = e.id).events.rows.length ≤ fuel := by
        have hshorter := length_deleteEvents_lt (of_oldest? he).1
        omega
      have hrest := pruneBySizeStates_spec hmax hfuel
      rw [he]
      dsimp only
      rw [List.getLastD_cons]
      exact ⟨List.isChain_cons_cons.mpr ⟨hstep, hrest.1⟩, hrest.2⟩
    · exact ⟨List.isChain_singleton db, not_lt.mp hexceeds⟩

/-- More fuel makes no difference: the loop has ended before. -/
theorem pruneBySizeStates_fuel {maxBytes : ℤ} (hmax : 0 < maxBytes) : ∀ {fuel fuel' : ℕ} {db : Db},
    db.events.rows.length ≤ fuel → db.events.rows.length ≤ fuel' →
    pruneBySizeStates maxBytes fuel db = pruneBySizeStates maxBytes fuel' db
  | 0, fuel', db, hlen, _ => by
    have hnil : db.events.rows = [] := List.length_eq_zero_iff.mp (Nat.le_zero.mp hlen)
    have hsmall : ¬ eventBytes db > maxBytes := fun hexceeds => pos_of_exceeds hmax hexceeds hnil
    cases fuel' with
    | zero => rfl
    | succ fuel' => rw [pruneBySizeStates, pruneBySizeStates, if_neg hsmall]
  | fuel + 1, 0, db, _, hlen => by
    have hnil : db.events.rows = [] := List.length_eq_zero_iff.mp (Nat.le_zero.mp hlen)
    have hsmall : ¬ eventBytes db > maxBytes := fun hexceeds => pos_of_exceeds hmax hexceeds hnil
    rw [pruneBySizeStates, pruneBySizeStates, if_neg hsmall]
  | fuel + 1, fuel' + 1, db, hlen, hlen' => by
    rw [pruneBySizeStates, pruneBySizeStates]
    split_ifs with hexceeds
    · obtain ⟨e, he⟩ := oldest?_isSome hmax hexceeds
      have hshorter := length_deleteEvents_lt (of_oldest? he).1
      have hfuel : (db.deleteEvents fun f => f.id = e.id).events.rows.length ≤ fuel := by omega
      have hfuel' : (db.deleteEvents fun f => f.id = e.id).events.rows.length ≤ fuel' := by omega
      have hrest := pruneBySizeStates_fuel hmax hfuel hfuel'
      rw [he]
      dsimp only
      rw [hrest]
    · rfl

/-! ### Several turns -/

/-- A turn removes one event and leaves the others. -/
theorem SizeStep.events {maxBytes : ℤ} {db db' : Db} (h : SizeStep maxBytes db db') :
    ∃ e ∈ db.events.rows, (e.type ≠ .attemptLog → ∀ f ∈ db.events.rows, f.type ≠ .attemptLog) ∧
      (∀ f ∈ db.events.rows, SameClass e f → eventOrder e f) ∧
      ∀ f, f ∈ db'.events.rows ↔ f ∈ db.events.rows ∧ f ≠ e := by
  obtain ⟨e, he, rfl, hlog, hfirst⟩ := h.removes
  refine ⟨e, he, hlog, hfirst, fun f => ?_⟩
  constructor
  · intro hf
    obtain ⟨hmem, hid⟩ := Table.mem_delete.mp hf
    exact ⟨hmem, fun heq => by simp [heq] at hid⟩
  · rintro ⟨hmem, hne⟩
    refine Table.mem_delete.mpr ⟨hmem, decide_eq_false fun hid => hne ?_⟩
    exact Table.eq_of_mem_of_key hmem he hid

/-- What turns remove is ahead of what they leave, class by class, and nothing but log events as long as there
are some. -/
structure Ahead (db db' : Db) : Prop where
  subset : ∀ f ∈ db'.events.rows, f ∈ db.events.rows
  order : ∀ e ∈ db.events.rows, e ∉ db'.events.rows → ∀ f ∈ db'.events.rows, SameClass e f → eventOrder e f
  logs : ∀ e ∈ db.events.rows, e ∉ db'.events.rows → e.type ≠ .attemptLog →
    ∀ f ∈ db'.events.rows, f.type ≠ .attemptLog

theorem Ahead.refl (db : Db) : Ahead db db :=
  ⟨fun _ hf => hf, fun _ he hno => absurd he hno, fun _ he hno => absurd he hno⟩

/-- A turn, and then others. -/
theorem SizeStep.ahead {maxBytes : ℤ} {db db' db'' : Db} (h : SizeStep maxBytes db db') (hrest : Ahead db' db'') :
    Ahead db db'' := by
  obtain ⟨x, hx, hlog, hfirst, hmem⟩ := h.events
  have hsub : ∀ f ∈ db''.events.rows, f ∈ db.events.rows := fun f hf => ((hmem f).mp (hrest.subset f hf)).1
  refine ⟨hsub, fun e he hgone f hf hclass => ?_, fun e he hgone hne f hf => ?_⟩
  · by_cases hex : e = x
    · rw [hex] at hclass ⊢
      exact hfirst f (hsub f hf) hclass
    · exact hrest.order e ((hmem e).mpr ⟨he, hex⟩) hgone f hf hclass
  · by_cases hex : e = x
    · rw [hex] at hne
      exact hlog hne f (hsub f hf)
    · exact hrest.logs e ((hmem e).mpr ⟨he, hex⟩) hgone hne f hf

theorem ahead_of_chain {maxBytes : ℤ} : ∀ {states : List Db} {db : Db},
    List.IsChain (SizeStep maxBytes) (db :: states) → Ahead db (states.getLastD db)
  | [], db, _ => .refl db
  | db' :: states, db, h => by
    obtain ⟨hstep, hrest⟩ := List.isChain_cons_cons.mp h
    rw [List.getLastD_cons]
    exact hstep.ahead (ahead_of_chain hrest)

/-! ### The whole call -/

theorem mem_pruneByAge {cutoff : Stamp} {db : Db} {e : EventRow} :
    e ∈ (pruneByAge cutoff db).events.rows ↔ e ∈ db.events.rows ∧ ¬ Expired cutoff db e := by
  have hiff : (e.createdAt < cutoff && (db.job? e.attemptId).any (·.state.isTerminal)) = true ↔ Expired cutoff db e := by
    rw [Bool.and_eq_true, decide_eq_true_eq, Option.any_eq_true]
    exact Iff.rfl
  unfold pruneByAge Db.deleteEvents
  rw [Table.mem_delete, ← hiff, Bool.not_eq_true]

/-- What one call of `_prune_sync` does to the database `db`. -/
structure PruneSpec (cfg : OutboxConfig) (now : Instant) (db : Db) : Prop where
  /-- The loop by size ends by itself: any fuel from the number of rows on gives the same states. -/
  ends : ∀ fuel ≥ (aged cfg now db).events.rows.length,
    pruneStates cfg now db = aged cfg now db :: pruneBySizeStates cfg.maxBytes fuel (aged cfg now db)
  /-- The removal by age takes the expired events and no others. -/
  expired : ∀ e, e ∈ (aged cfg now db).events.rows ↔ e ∈ db.events.rows ∧ ¬ Expired (cutoff cfg now) db e
  /-- Each state after it is one removal by size. -/
  bySize : (pruneStates cfg now db).IsChain (SizeStep cfg.maxBytes)
  /-- The removals by size take a prefix of each class, and log events before the others. -/
  ahead : Ahead (aged cfg now db) (pruneSync cfg now db).2
  bounded : eventBytes (pruneSync cfg now db).2 ≤ cfg.maxBytes
  jobs : (pruneSync cfg now db).2.jobs = db.jobs

/-- Two events of the sample attempt in the spool. -/
def spooledDb : Db :=
  (Run.run apply Store.empty [.enqueue 0 samplePayload,
    .append sampleConfig ⟨1000000, 1000000, 1000000⟩ (sampleEvent (py "00000000-0000-4000-8000-000000000001") 1),
    .append sampleConfig ⟨2000000, 2000000, 2000000⟩ (sampleEvent (py "00000000-0000-4000-8000-000000000002") 2)]).db

end BuildEngine.Queue.Pruning
