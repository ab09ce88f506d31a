import BuildEngine.Queue.StateMachine

/-! # The newest attempt of a build

`is_current_attempt` compares rowids. SQLite gives a new row a rowid above all those present
(`lt_nextRowid`), and no statement changes the rowid of a row (`RowStep.rowid`), so an attempt that was
enqueued while another one was in the table stays above it as long as both have their rows. The retention of
`prune_terminal` is the one thing that ends this: when the newer row is gone, the older attempt is again the
newest one that is known. -/

namespace BuildEngine.Queue.Freshness

open BuildEngine.Base BuildEngine.Base.Json BuildEngine.Base.Run BuildEngine.Agent.Protocol
open BuildEngine.Queue.Schema BuildEngine.Queue BuildEngine.Queue.Store BuildEngine.Queue.Outbox
open BuildEngine.Queue.Ops

/-! ### Rowids -/

theorem le_foldl_max : ∀ (l : List ℕ) (n : ℕ), n ≤ l.foldl max n ∧ ∀ x ∈ l, x ≤ l.foldl max n
  | [], n => ⟨le_rfl, by simp⟩
  | y :: l, n => by
    obtain ⟨hstart, hmem⟩ := le_foldl_max l (max n y)
    refine ⟨(le_max_left n y).trans hstart, fun x hx => ?_⟩
    rcases List.mem_cons.mp hx with rfl | hx
    · exact (le_max_right n x).trans hstart
    · exact hmem x hx

/-- A new row stands above all rows of the table. -/
theorem lt_nextRowid {db : Db} {r : JobRow} (h : r ∈ db.jobs.rows) : r.rowid < db.nextRowid :=
  Nat.lt_succ_of_le ((le_foldl_max _ 0).2 _ (List.mem_map_of_mem h))

/-- A row keeps its rowid and its build. -/
theorem RowStep.rowid {op : Op} {r r' : JobRow} (h : RowStep op (some r) (some r')) :
    r'.rowid = r.rowid ∧ r'.buildJobId = r.buildJobId :=
  ⟨h.fixed.1, h.fixed.2.1⟩

/-- A row that a call has inserted stands above all rows that were there. -/
theorem rowid_of_inserted {s : Store} {op : Op} {a : PyStr} {r : JobRow} (hnone : s.db.job? a = none)
    (hr : (apply s op).db.job? a = some r) {r' : JobRow} (hr' : r' ∈ s.db.jobs.rows) :
    r'.rowid < r.rowid := by
  obtain ⟨now, p, b, -, -, -, rfl⟩ := row_inserted hnone hr
  exact lt_nextRowid hr'

/-! ### Supersession -/

/-- The attempt `a₁` of the build has the rowid `n`, and the row of `a₂`, if there is one, stands above it. -/
def Above (b a₁ a₂ : PyStr) (n : ℕ) (s : Store) : Prop :=
  (∃ r, s.db.job? a₁ = some r ∧ r.buildJobId = b ∧ r.rowid = n) ∧ ∀ r, s.db.job? a₂ = some r → n < r.rowid

/-- A call that does not delete the older row keeps the order. -/
theorem Above.step {b a₁ a₂ : PyStr} {n : ℕ} {s : Store} {op : Op} (h : Above b a₁ a₂ n s)
    (hkept : ((apply s op).db.job? a₁).isSome) : Above b a₁ a₂ n (apply s op) := by
  obtain ⟨⟨r₁, hr₁, hb, hn⟩, habove⟩ := h
  obtain ⟨r₁', hr₁'⟩ := Option.isSome_iff_exists.mp hkept
  have hstep₁ := rowStep s op a₁
  rw [hr₁, hr₁'] at hstep₁
  obtain ⟨hid, hbuild⟩ := RowStep.rowid hstep₁
  refine ⟨⟨r₁', hr₁', hbuild.trans hb, hid.trans hn⟩, fun r₂' hr₂' => ?_⟩
  rcases hr₂ : s.db.job? a₂ with _ | r₂
  · rw [← hn]
    exact rowid_of_inserted hr₂ hr₂' (Table.mem_of_find? hr₁)
  · have hstep₂ := rowStep s op a₂
    rw [hr₂, hr₂'] at hstep₂
    rw [(RowStep.rowid hstep₂).1]
    exact habove r₂ hr₂

/-- An attempt below the row of another attempt of its build is not current. -/
theorem Above.not_current {b a₁ a₂ : PyStr} {n : ℕ} {s : Store} (h : Above b a₁ a₂ n s)
    (h₂ : (s.jobRow b a₂).isSome) : s.isCurrentAttempt b a₁ = .ok false := by
  obtain ⟨⟨r₁, hr₁, hb, hn⟩, habove⟩ := h
  obtain ⟨r₂, hr₂⟩ := Option.isSome_iff_exists.mp h₂
  obtain ⟨hr₂, hb₂⟩ := Option.filter_eq_some_iff.mp hr₂
  have hrow : s.jobRow b a₁ = some r₁ := by
    rw [jobRow, hr₁, Option.filter_some, if_pos (by simpa using hb)]
  have hnewer : s.db.jobs.rows.any (fun r => r.buildJobId = b && r.rowid > r₁.rowid) = true := by
    rw [List.any_eq_true]
    refine ⟨r₂, Table.mem_of_find? hr₂, ?_⟩
    have hlt := habove r₂ hr₂
    have hb₂' : r₂.buildJobId = b := by simpa using hb₂
    simp [hb₂', hn, hlt]
  unfold isCurrentAttempt
  rw [hrow]
  dsimp only
  rw [hnewer]
  rfl

/-- **Supersession while the newer row is kept.** Let `a₁` have a row of a build when `a₂` has none. As long as
`a₁` keeps its row, `is_current_attempt` answers `False` for it in every later state in which `a₂`, enqueued
since then for the same build, has its row. -/
theorem superseded_while_kept (before after : List Op) (b a₁ a₂ : PyStr)
    (h₁ : ((run apply Store.empty before).jobRow b a₁).isSome)
    (hnew : (run apply Store.empty before).db.job? a₂ = none)
    (hkept : Along apply (fun s op => ((apply s op).db.job? a₁).isSome) (run apply Store.empty before) after)
    (h₂ : ((run apply Store.empty (before ++ after)).jobRow b a₂).isSome) :
    (run apply Store.empty (before ++ after)).isCurrentAttempt b a₁ = .ok false := by
  obtain ⟨r₁, hr₁⟩ := Option.isSome_iff_exists.mp h₁
  obtain ⟨hr₁, hb⟩ := Option.filter_eq_some_iff.mp hr₁
  have hstart : Above b a₁ a₂ r₁.rowid (run apply Store.empty before) :=
    ⟨⟨r₁, hr₁, by simpa using hb, rfl⟩, fun r hr => absurd (hnew.symm.trans hr) (by simp)⟩
  have hend : Above b a₁ a₂ r₁.rowid (run apply (run apply Store.empty before) after) :=
    Along.invariant (fun s op hC hs => Above.step hs hC) after hkept hstart
  rw [run_append] at h₂ ⊢
  exact hend.not_current h₂

/-- Another attempt of the sample build. -/
def laterAttempt : PyStr := py "00000000-0000-4000-8000-00000000000c"

/-- Its payload. -/
def laterPayload : List (PyStr × Json) :=
  [(py "build_job_id", .str sampleBuild), (py "attempt_id", .str laterAttempt)]

/-- The newer attempt is enqueued and cancelled, and the older one is enqueued again. -/
def laterOps : List Op :=
  [.enqueue (seconds 1) laterPayload,
    .transition (seconds 2) laterAttempt (py "CANCELLED") none none none none,
    .enqueue (seconds 3) samplePayload]

theorem superseded_while_kept_cancelled :
    (run apply Store.empty ([.enqueue 0 samplePayload] ++ laterOps)).isCurrentAttempt sampleBuild
      sampleAttempt = .ok false :=
  superseded_while_kept [.enqueue 0 samplePayload] laterOps sampleBuild sampleAttempt laterAttempt
    (by decide +kernel) (by decide +kernel) (by decide +kernel) (by decide +kernel)

/-- The same, with the retention of a month later. -/
def prunedOps : List Op := laterOps ++ [.pruneTerminal (days 30) 7]

/-- When retention has removed the newer attempt, the older one is current again. -/
theorem current_after_prune :
    (run apply Store.empty (.enqueue 0 samplePayload :: laterOps)).isCurrentAttempt sampleBuild
      sampleAttempt = .ok false ∧
    ((run apply Store.empty (.enqueue 0 samplePayload :: prunedOps)).db.job? sampleAttempt).isSome ∧
    (run apply Store.empty (.enqueue 0 samplePayload :: prunedOps)).isCurrentAttempt sampleBuild
      sampleAttempt = .ok true := by
  decide +kernel

end BuildEngine.Queue.Freshness
