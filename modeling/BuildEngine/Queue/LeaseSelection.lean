import BuildEngine.Queue.Ops

/-! # Which attempt is leased

`acquire_lease` is a loop of one query and one update: the query's answer changes with every turn. Read as a
whole it does two things to the table as it was. The row it leases is the first one, by creation time and
attempt identifier, that is eligible and has no cancellation request (`Selected`); the eligible rows before it
that have one are cancelled (`swept`). Every other row is as it was. -/

namespace BuildEngine.Queue.LeaseSelection

open BuildEngine.Base BuildEngine.Base.Json BuildEngine.Agent.Protocol BuildEngine.Queue.Schema
open BuildEngine.Queue BuildEngine.Queue.Store BuildEngine.Queue.Ops

/-! ### The order of the query -/

instance leaseOrder_total : Std.Total leaseOrder where
  total a b := by
    unfold leaseOrder
    rcases lt_trichotomy a.createdAt b.createdAt with h | h | h
    · exact Or.inl (Or.inl h)
    · rcases le_total a.attemptId b.attemptId with ha | ha
      · exact Or.inl (Or.inr ⟨h, ha⟩)
      · exact Or.inr (Or.inr ⟨h.symm, ha⟩)
    · exact Or.inr (Or.inl h)

instance leaseOrder_trans : IsTrans JobRow leaseOrder where
  trans a b c hab hbc := by
    unfold leaseOrder at *
    rcases hab with hab | ⟨hab, ha⟩ <;> rcases hbc with hbc | ⟨hbc, hb⟩
    · exact Or.inl (lt_trans hab hbc)
    · exact Or.inl (hbc ▸ hab)
    · exact Or.inl (hab ▸ hbc)
    · exact Or.inr ⟨hab.trans hbc, le_trans ha hb⟩

/-- The row comes strictly before the other one in `ORDER BY created_at, attempt_id`. -/
def leaseBefore (a b : JobRow) : Prop :=
  a.createdAt < b.createdAt ∨ (a.createdAt = b.createdAt ∧ a.attemptId < b.attemptId)

instance : DecidableRel leaseBefore := fun _ _ => inferInstanceAs (Decidable (_ ∨ _))

theorem leaseBefore_of_leaseOrder {a b : JobRow} (h : leaseOrder a b) (hne : a.attemptId ≠ b.attemptId) :
    leaseBefore a b := by
  rcases h with h | ⟨h, hle⟩
  · exact Or.inl h
  · exact Or.inr ⟨h, lt_of_le_of_ne hle hne⟩

theorem not_leaseOrder_of_leaseBefore {a b : JobRow} (h : leaseBefore a b) : ¬ leaseOrder b a := by
  rintro (hlt | ⟨heq, hle⟩)
  · rcases h with h | ⟨h, -⟩
    · exact lt_asymm h hlt
    · exact absurd hlt (by rw [h]; exact lt_irrefl _)
  · rcases h with h | ⟨-, h⟩
    · exact absurd h (by rw [heq]; exact lt_irrefl _)
    · exact absurd hle (not_le.mpr h)

/-! ### The row and the rows before it -/

/-- The row is the first of the eligible rows without a cancellation request. -/
structure Selected (now : Stamp) (db : Db) (r : JobRow) : Prop where
  mem : r ∈ db.jobs.rows
  eligible : eligible now r = true
  uncancelled : r.cancelRequested = false
  least : ∀ r' ∈ db.jobs.rows, Store.eligible now r' = true → r'.cancelRequested = false → leaseOrder r r'

/-- The row is eligible, has a cancellation request, and comes before the row that is leased; with no row
leased, every eligible row with a request. -/
def swept (now : Stamp) (found : Option JobRow) (r : JobRow) : Bool :=
  eligible now r && r.cancelRequested && found.all fun f => leaseBefore r f

theorem swept_iff {now : Stamp} {found : Option JobRow} {r : JobRow} :
    swept now found r = true ↔
      eligible now r = true ∧ r.cancelRequested = true ∧ ∀ f ∈ found, leaseBefore r f := by
  simp [swept, Option.all_eq_true, and_assoc]

/-- What the loop is for: the row it finds is the selected one, it finds none only when there is none, and
it has cancelled the rows before it. -/
structure LoopResult (now : Stamp) (db db' : Db) (found : Option JobRow) : Prop where
  selected : ∀ r ∈ found, Selected now db r
  none_left : found = none → ∀ r ∈ db.jobs.rows, eligible now r = true → r.cancelRequested = true
  jobs : db'.jobs.rows = db.jobs.rows.map fun r => if swept now found r then cancelRow now r else r
  events : db'.events = db.events
  dlq : db'.dlq = db.dlq

/-- The first query finds no row. -/
theorem loopResult_none {now : Stamp} {db : Db}
    (h : db.jobs.selectFirst (eligible now) leaseOrder = none) : LoopResult now db db none := by
  rw [Table.selectFirst_eq_none] at h
  refine ⟨by simp, fun _ r hr he => ?_, ?_, rfl, rfl⟩
  · rw [h r hr] at he; cases he
  · conv_lhs => rw [← List.map_id db.jobs.rows]
    refine List.map_congr_left fun r hr => ?_
    simp [swept, h r hr]

/-- The first query finds a row without a cancellation request. -/
theorem loopResult_found {now : Stamp} {db : Db} {row : JobRow}
    (h : db.jobs.selectFirst (eligible now) leaseOrder = some row) (hc : row.cancelRequested = false) :
    LoopResult now db db (some row) := by
  obtain ⟨hm, he⟩ := Table.of_selectFirst h
  refine ⟨fun r hr => ?_, by simp, ?_, rfl, rfl⟩
  · obtain rfl := Option.some.inj hr
    exact ⟨hm, he, hc, fun r' hr' he' _ => Table.le_of_selectFirst h hr' he'⟩
  · conv_lhs => rw [← List.map_id db.jobs.rows]
    refine List.map_congr_left fun r hr => ?_
    -- no eligible row comes before the first one
    have hns : swept now (some row) r = false := by
      by_contra hs
      obtain ⟨hre, -, hb⟩ := swept_iff.mp (by simpa using hs)
      exact not_leaseOrder_of_leaseBefore (hb row rfl) (Table.le_of_selectFirst h hr hre)
    rw [hns]; rfl

/-- The rows of the table after a turn that cancels one of them. -/
theorem mem_cancelled (now : Stamp) {db : Db} {row : JobRow} (hm : row ∈ db.jobs.rows) (r : JobRow) :
    r ∈ (db.updateJobs (fun r => r.attemptId = row.attemptId) (cancelRow now) (attemptId_cancelRow now)).jobs.rows ↔
      (r ∈ db.jobs.rows ∧ r.attemptId ≠ row.attemptId) ∨ r = cancelRow now row := by
  show r ∈ (db.jobs.update (fun r => r.attemptId = row.attemptId) (cancelRow now)
    (attemptId_cancelRow now)).rows ↔ _
  rw [Table.mem_update]
  constructor
  · rintro ⟨r', hr', hr⟩
    by_cases hk : r'.attemptId = row.attemptId
    · rw [Table.eq_of_mem_of_key hr' hm hk] at hr
      exact Or.inr (by simpa using hr.symm)
    · rw [if_neg (by simpa using hk)] at hr
      exact Or.inl ⟨hr ▸ hr', hr ▸ hk⟩
  · rintro (⟨hr, hk⟩ | rfl)
    · exact ⟨r, hr, by simp [hk]⟩
    · exact ⟨row, hm, by simp⟩

/-- A turn that cancels the first eligible row leaves the loop the same work on the rest of the table. -/
theorem LoopResult.cancelled {now : Stamp} {db db' : Db} {found : Option JobRow} {row : JobRow}
    (hfirst : db.jobs.selectFirst (eligible now) leaseOrder = some row) (hc : row.cancelRequested = true)
    (h : LoopResult now (db.updateJobs (fun r => r.attemptId = row.attemptId) (cancelRow now)
      (attemptId_cancelRow now)) db' found) : LoopResult now db db' found := by
  obtain ⟨hm, he⟩ := Table.of_selectFirst hfirst
  have hkey : ∀ r ∈ db.jobs.rows, r.attemptId = row.attemptId → r = row :=
    fun r hr hk => Table.eq_of_mem_of_key hr hm hk
  have hrows := mem_cancelled now hm
  have hselected : ∀ r ∈ found, Selected now db r := by
    intro r hr
    obtain ⟨hrm, hre, hrc, hleast⟩ := h.selected r hr
    rcases (hrows r).mp hrm with ⟨hrm, -⟩ | rfl
    · refine ⟨hrm, hre, hrc, fun r' hr' he' hc' => hleast r' ((hrows r').mpr (Or.inl ⟨hr', ?_⟩)) he' hc'⟩
      intro hk
      rw [hkey r' hr' hk, hc] at hc'
      cases hc'
    · rw [eligible_cancelRow] at hre; cases hre
  refine ⟨hselected, fun hn r hr hre => ?_, ?_, h.events, h.dlq⟩
  · by_cases hk : r.attemptId = row.attemptId
    · rw [hkey r hr hk]; exact hc
    · exact h.none_left hn r ((hrows r).mpr (Or.inl ⟨hr, hk⟩)) hre
  · rw [h.jobs]
    show (db.jobs.rows.map _).map _ = _
    rw [List.map_map]
    refine List.map_congr_left fun r hr => ?_
    simp only [Function.comp_apply]
    by_cases hk : r.attemptId = row.attemptId
    · obtain rfl := hkey r hr hk
      have hswept : swept now found r = true := by
        refine swept_iff.mpr ⟨he, hc, fun f hf => ?_⟩
        obtain ⟨hfm, hfe, hfc, -⟩ := hselected f hf
        refine leaseBefore_of_leaseOrder (Table.le_of_selectFirst hfirst hfm hfe) fun hk => ?_
        rw [hkey f hfm hk.symm, hc] at hfc
        cases hfc
      have hnot : swept now found (cancelRow now r) = false := by
        rw [swept, eligible_cancelRow]; rfl
      simp [hswept, hnot]
    · simp [hk]

/-- **The loop of `acquire_lease`**, as a function of the table it starts from. -/
theorem acquireLoop_result {now : Stamp} : ∀ {fuel : ℕ} {db db' : Db} {found : Option JobRow},
    acquireLoop now fuel db = some (db', found) → LoopResult now db db' found
  | 0, _, _, _, h => by simp [acquireLoop] at h
  | fuel + 1, db, db', found, h => by
    rw [acquireLoop] at h
    rcases hrow : db.jobs.selectFirst (eligible now) leaseOrder with _ | row
    · rw [hrow] at h
      simp only [Option.some.injEq, Prod.mk.injEq] at h
      obtain ⟨rfl, rfl⟩ := h
      exact loopResult_none hrow
    · rw [hrow] at h
      dsimp only at h
      split_ifs at h with hc
      · exact (acquireLoop_result h).cancelled hrow hc
      · simp only [Option.some.injEq, Prod.mk.injEq] at h
        obtain ⟨rfl, rfl⟩ := h
        exact loopResult_found hrow (by simpa using hc)

/-- More fuel changes nothing once the loop has ended. -/
theorem acquireLoop_mono {now : Stamp} : ∀ {fuel fuel' : ℕ} {db : Db} {result : Db × Option JobRow},
    fuel ≤ fuel' → acquireLoop now fuel db = some result → acquireLoop now fuel' db = some result
  | 0, _, _, _, _, h => by simp [acquireLoop] at h
  | fuel + 1, 0, _, _, hle, _ => by omega
  | fuel + 1, fuel' + 1, db, result, hle, h => by
    rw [acquireLoop] at h ⊢
    rcases hrow : db.jobs.selectFirst (eligible now) leaseOrder with _ | row
    · rw [hrow] at h
      exact h
    · rw [hrow] at h
      dsimp only at h ⊢
      split_ifs at h ⊢ with hc
      · exact acquireLoop_mono (by omega) h
      · exact h

/-- The loop ends within one turn more than there are rows. -/
theorem acquireLoop_ends (now : Stamp) (db : Db) : ∃ db' found,
    ∀ fuel, db.jobs.rows.length < fuel → acquireLoop now fuel db = some (db', found) := by
  have hsome : (acquireLoop now (db.jobs.rows.length + 1) db).isSome :=
    acquireLoop_isSome (Nat.lt_succ_of_le List.countP_le_length)
  obtain ⟨⟨db', found⟩, hloop⟩ := Option.isSome_iff_exists.mp hsome
  exact ⟨db', found, fun fuel hfuel => acquireLoop_mono hfuel hloop⟩

/-! ### The call -/

/-- `acquire_lease` as a function of the table: which row it leases, which rows it cancels, and that nothing
else changes. -/
structure Acquires (now : Instant) (token leaseOwner : PyStr) (timeout : ℤ) (s s' : Store)
    (found : Option JobRow) : Prop where
  selected : ∀ r ∈ found, Selected (formatDatetime now) s.db r
  none_iff : found = none ↔
    ∀ r ∈ s.db.jobs.rows, eligible (formatDatetime now) r = true → r.cancelRequested = true
  rows : s'.db.jobs.rows = s.db.jobs.rows.map fun r =>
    if found = some r then
      leaseRow leaseOwner token (formatDatetime (now + seconds timeout)) (formatDatetime now) r
    else if swept (formatDatetime now) found r then cancelRow (formatDatetime now) r
    else r
  events : s'.db.events = s.db.events
  dlq : s'.db.dlq = s.db.dlq
  transientPayloads : s'.transientPayloads = s.transientPayloads

/-- Neither leased nor swept: the row stays. -/
theorem Acquires.unchanged {now : Instant} {token leaseOwner : PyStr} {timeout : ℤ} {s s' : Store}
    {found : Option JobRow} (h : Acquires now token leaseOwner timeout s s' found) {r : JobRow}
    (hr : r ∈ s.db.jobs.rows) (hne : found ≠ some r) (hs : swept (formatDatetime now) found r = false) :
    r ∈ s'.db.jobs.rows := by
  rw [h.rows]
  refine List.mem_map.mpr ⟨r, hr, ?_⟩
  rw [if_neg hne, if_neg (by simp [hs])]

/-- A row that is not eligible is neither leased nor swept. -/
theorem Acquires.unchanged_of_not_eligible {now : Instant} {token leaseOwner : PyStr} {timeout : ℤ}
    {s s' : Store} {found : Option JobRow} (h : Acquires now token leaseOwner timeout s s' found)
    {r : JobRow} (hr : r ∈ s.db.jobs.rows) (he : eligible (formatDatetime now) r = false) :
    r ∈ s'.db.jobs.rows := by
  refine h.unchanged hr (fun hf => ?_) (by rw [swept, he]; rfl)
  have := (h.selected r (Option.mem_def.mpr hf)).eligible
  rw [he] at this
  cases this

theorem not_eligible_of_unexpired {now : Stamp} {r : JobRow} (hl : r.state.isLeased = true)
    (hx : ∀ x ∈ r.leaseExpiresAt, now < x) : eligible now r = false := by
  have hq : r.state ≠ .queued := fun hq => by rw [hq] at hl; cases hl
  have hany : (r.leaseExpiresAt.any (· ≤ now)) = false := by
    rcases hx' : r.leaseExpiresAt with _ | x
    · rfl
    · simpa using hx x hx'
  simp [eligible, hq, hany]

/-- The rows after the loop and the `UPDATE` that leases the row it found. -/
theorem rows_lease {now expiresAt : Stamp} {owner token : PyStr} {db db' : Db} {row : JobRow}
    (h : LoopResult now db db' (some row)) :
    (db'.updateJobs (fun r => r.attemptId = row.attemptId) (leaseRow owner token expiresAt now)
      (attemptId_leaseRow _ _ _ _)).jobs.rows = db.jobs.rows.map fun r =>
        if some row = some r then leaseRow owner token expiresAt now r
        else if swept now (some row) r then cancelRow now r else r := by
  obtain ⟨hm, -, hc, -⟩ := h.selected row rfl
  show db'.jobs.rows.map _ = _
  rw [h.jobs, List.map_map]
  refine List.map_congr_left fun r hr => ?_
  simp only [Function.comp_apply, Option.some.injEq]
  by_cases hk : row = r
  · subst hk
    have hns : swept now (some row) row = false := by simp [swept, hc]
    simp [hns]
  · have hid : r.attemptId ≠ row.attemptId := fun he => hk (Table.eq_of_mem_of_key hm hr he.symm)
    have hid' : (if swept now (some row) r then cancelRow now r else r).attemptId = r.attemptId := by
      split_ifs <;> rfl
    simp [hid', hid, hk]

/-- The record `acquire_lease` returns for a row it leases. -/
def leasedRecord (now : Instant) (token leaseOwner : PyStr) (timeout : ℤ) (s : Store) (r : JobRow) : JobRecord :=
  s.record (leaseRow leaseOwner token (formatDatetime (now + seconds timeout)) (formatDatetime now) r)

theorem payload_leasedRecord {now : Instant} {token leaseOwner : PyStr} {timeout : ℤ} {s : Store} {r : JobRow}
    (h : (jobFromRow r).payload.isSome = true) :
    (leasedRecord now token leaseOwner timeout s r).payload.isSome = true := by
  unfold leasedRecord record withTransientPayload
  split
  · exact h
  · rfl

/-- The call on a table whose loop ends with `found`. -/
theorem acquireLease_of_loop {now : Instant} (token leaseOwner : PyStr) (timeout : ℤ) {s : Store} {db : Db}
    {found : Option JobRow}
    (hloop : acquireLoop (formatDatetime now) (s.db.jobs.rows.length + 1) s.db = some (db, found)) :
    ∃ s' : Store, s.acquireLease now token leaseOwner timeout =
        (.ok (found.map (leasedRecord now token leaseOwner timeout s')), s') ∧
      Acquires now token leaseOwner timeout s s' found := by
  have hresult := acquireLoop_result hloop
  have hnone : found = none ↔
      ∀ r ∈ s.db.jobs.rows, eligible (formatDatetime now) r = true → r.cancelRequested = true := by
    refine ⟨hresult.none_left, fun h => ?_⟩
    rcases found with _ | row
    · rfl
    · obtain ⟨hm, he, hc, -⟩ := hresult.selected row rfl
      rw [h row hm he] at hc
      cases hc
  unfold acquireLease
  dsimp only
  rw [hloop]
  rcases found with _ | row
  · refine ⟨{ s with db := db }, rfl, hresult.selected, hnone, ?_, hresult.events, hresult.dlq, rfl⟩
    rw [hresult.jobs]
    simp
  · obtain ⟨hj, -, -⟩ := (acquireLoop_spec hloop).found row rfl
    have hrow := job?_update_of_guard (p := fun r => r.attemptId = row.attemptId)
      (h := attemptId_leaseRow leaseOwner token (formatDatetime (now + seconds timeout))
        (formatDatetime now)) hj (by simp)
    refine ⟨⟨db.updateJobs _ _ (attemptId_leaseRow leaseOwner token _ _), s.transientPayloads⟩, ?_,
      hresult.selected, hnone, rows_lease hresult, hresult.events, hresult.dlq, rfl⟩
    dsimp only
    rw [jobRow, hrow, Option.filter_some, if_pos (by simp [leaseRow])]
    rfl

end BuildEngine.Queue.LeaseSelection
