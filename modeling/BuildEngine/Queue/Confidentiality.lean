import BuildEngine.Base.JsonSort
import BuildEngine.Queue.Ops

/-! # What an assignment leaves on disk

`enqueue` holds the whole payload in memory and writes the payload without its secrets. Two runs that make
the same calls on payloads that differ in the secrets only (`SameButSecrets`) therefore have the same
database after every call: the memory of the store differs, but no statement reads it. -/

namespace BuildEngine.Queue.Confidentiality

open BuildEngine.Base BuildEngine.Base.Json BuildEngine.Base.Run BuildEngine.Agent.Protocol
open BuildEngine.Queue.Schema BuildEngine.Queue BuildEngine.Queue.Store BuildEngine.Queue.Outbox
open BuildEngine.Queue.Ops

/-- The top-level keys that are not to reach the disk. -/
def secretKeys : List PyStr := [py "secrets", py "source_download_url", py "secret_env"]

/-- Two payloads, as dictionaries, that differ at most in the presence and the values of the secret keys. -/
structure SameButSecrets (p q : List (PyStr × Json)) : Prop where
  nodup_left : (p.map Prod.fst).Nodup
  nodup_right : (q.map Prod.fst).Nodup
  get?_eq : ∀ key ∉ secretKeys, get? p key = get? q key

/-- The same call, up to the secrets of its payload. -/
inductive SameOp : Op → Op → Prop where
  | enqueue (now : Instant) {p q : List (PyStr × Json)} (h : SameButSecrets p q) :
      SameOp (.enqueue now p) (.enqueue now q)
  | same (op : Op) : SameOp op op

/-! ### The payload that is written -/

theorem mem_durablePayload {p : List (PyStr × Json)} (hn : (p.map Prod.fst).Nodup) {k : PyStr} {v : Json} :
    (k, v) ∈ durablePayload p ↔ get? p k = some v ∧ k ∉ secretKeys := by
  unfold durablePayload
  rw [List.mem_filter, get?_eq_some hn, decide_eq_true_eq]
  rfl

theorem nodup_durablePayload {p : List (PyStr × Json)} (hn : (p.map Prod.fst).Nodup) :
    ((durablePayload p).map Prod.fst).Nodup :=
  hn.sublist (List.filter_sublist.map Prod.fst)

theorem durablePayload_perm {p q : List (PyStr × Json)} (h : SameButSecrets p q) :
    (durablePayload p).Perm (durablePayload q) := by
  rw [List.perm_ext_iff_of_nodup (nodup_durablePayload h.nodup_left).of_map
    (nodup_durablePayload h.nodup_right).of_map]
  rintro ⟨k, v⟩
  rw [mem_durablePayload h.nodup_left, mem_durablePayload h.nodup_right]
  exact and_congr_left fun hk => by rw [h.get?_eq k hk]

/-- The text that is written does not depend on the secrets. -/
theorem dumpsSorted_durablePayload {p q : List (PyStr × Json)} (h : SameButSecrets p q) :
    dumpsSorted (.obj (durablePayload p)) = dumpsSorted (.obj (durablePayload q)) := by
  unfold dumpsSorted
  rw [sortKeys_obj, sortKeys_obj,
    sortedMembers_perm (durablePayload_perm h) (nodup_durablePayload h.nodup_left)]

theorem requiredPayloadUuid_eq {p q : List (PyStr × Json)} (h : SameButSecrets p q) (key : PyStr)
    (hk : key ∉ secretKeys) : requiredPayloadUuid p key = requiredPayloadUuid q key := by
  unfold requiredPayloadUuid requiredPayloadStr
  rw [h.get?_eq key hk]

/-! ### One call -/

theorem db_enqueue_eq {s t : Store} (hdb : s.db = t.db) (now : Instant) {p q : List (PyStr × Json)}
    (h : SameButSecrets p q) : (s.enqueue now p).2.db = (t.enqueue now q).2.db := by
  rw [db_enqueue, db_enqueue, hdb, requiredPayloadUuid_eq h (py "build_job_id") (by decide),
    requiredPayloadUuid_eq h (py "attempt_id") (by decide), dumpsSorted_durablePayload h]

/-- The database after `acquire_lease`. -/
theorem db_acquireLease (s : Store) (now : Instant) (token owner : PyStr) (timeout : ℤ) :
    (s.acquireLease now token owner timeout).2.db =
      match acquireLoop (formatDatetime now) (s.db.jobs.rows.length + 1) s.db with
      | none => s.db
      | some (db, none) => db
      | some (db, some row) => db.updateJobs (fun r => r.attemptId = row.attemptId)
          (leaseRow owner token (formatDatetime (now + seconds timeout)) (formatDatetime now))
          (attemptId_leaseRow _ _ _ _) := by
  unfold acquireLease
  dsimp only
  rcases acquireLoop (formatDatetime now) (s.db.jobs.rows.length + 1) s.db with _ | ⟨db, _ | row⟩
  · rfl
  · rfl
  · dsimp only
    split <;> rfl

/-- No statement reads the payloads in memory: the database after a call depends on the database only. -/
theorem db_apply_eq {s t : Store} (hdb : s.db = t.db) (op : Op) : (apply s op).db = (apply t op).db := by
  cases op with
  | enqueue now p =>
    show (s.enqueue now p).2.db = (t.enqueue now p).2.db
    rw [db_enqueue, db_enqueue, hdb]
  | acquireLease now token owner timeout =>
    show (s.acquireLease now token owner timeout).2.db = (t.acquireLease now token owner timeout).2.db
    rw [db_acquireLease, db_acquireLease, hdb]
  | refreshLease now a owner timeout token =>
    show (s.refreshLease now a owner timeout token).2.db = (t.refreshLease now a owner timeout token).2.db
    by_cases h : ∃ r, s.db.job? a = some r ∧ refreshWhere a owner token r = true
    · obtain ⟨r, hr, hw⟩ := h
      obtain ⟨s', hs', hdb'⟩ := refreshLease_accepts hr hw now timeout
      obtain ⟨t', ht', hdb''⟩ := refreshLease_accepts (hdb ▸ hr : t.db.job? a = some r) hw now timeout
      rw [hs', ht', hdb', hdb'', hdb]
    · have hrefuse : ∀ r, s.db.job? a = some r → refreshWhere a owner token r = false :=
        fun r hr => by simpa using fun hw => h ⟨r, hr, hw⟩
      rw [refreshLease_refuses hrefuse, refreshLease_refuses (hdb ▸ hrefuse)]
      exact hdb
  | transition now a state error expected owner token =>
    show (s.transition now a state error expected owner token).2.db =
      (t.transition now a state error expected owner token).2.db
    by_cases h : ∃ target r, JobState.ofText? state = some target ∧ s.db.job? a = some r ∧
        transitionCheck target expected owner token r = none
    · obtain ⟨target, r, hs, hr, hc⟩ := h
      obtain ⟨s', hs', hdb'⟩ := transition_accepts hs hr hc now error
      obtain ⟨t', ht', hdb''⟩ := transition_accepts hs (hdb ▸ hr : t.db.job? a = some r) hc now error
      rw [hs', ht', hdb', hdb'', hdb]
    · have hrefuse : ∀ target r, JobState.ofText? state = some target → s.db.job? a = some r →
          transitionCheck target expected owner token r ≠ none :=
        fun target r hs hr hc => h ⟨target, r, hs, hr, hc⟩
      rw [transition_unchanged hrefuse, transition_unchanged (hdb ▸ hrefuse)]
      exact hdb
  | requestCancel now b a =>
    show s.db.updateJobs _ _ _ = t.db.updateJobs _ _ _
    rw [hdb]
  | recordExecutorCrash now a error owner token =>
    show (s.recordExecutorCrash now a error owner token).2.db =
      (t.recordExecutorCrash now a error owner token).2.db
    by_cases h : ∃ r, s.db.job? a = some r ∧ crashWhere a owner token r = true
    · obtain ⟨r, hr, hw⟩ := h
      obtain ⟨s', hs', hdb'⟩ := recordExecutorCrash_accepts hr hw now error
      obtain ⟨t', ht', hdb''⟩ := recordExecutorCrash_accepts (hdb ▸ hr : t.db.job? a = some r) hw now error
      rw [hs', ht', hdb', hdb'', hdb]
    · have hrefuse : ∀ r, s.db.job? a = some r → crashWhere a owner token r = false :=
        fun r hr => by simpa using fun hw => h ⟨r, hr, hw⟩
      rw [recordExecutorCrash_refuses hrefuse, recordExecutorCrash_refuses (hdb ▸ hrefuse)]
      exact hdb
  | pruneTerminal now retention =>
    show s.db.deleteJobs _ = t.db.deleteJobs _
    rw [hdb]
  | append cfg clock e =>
    show (append cfg clock e s.db).2 = (append cfg clock e t.db).2
    rw [hdb]
  | ackThrough a n =>
    show (ackThrough a n s.db).2 = (ackThrough a n t.db).2
    rw [hdb]
  | prune cfg now =>
    show (pruneSync cfg now s.db).2 = (pruneSync cfg now t.db).2
    rw [hdb]
  | restart => exact hdb

/-- Two calls that differ in the secrets only have the same effect on the database. -/
theorem db_sameOp {s t : Store} {op op' : Op} (hdb : s.db = t.db) (h : SameOp op op') :
    (apply s op).db = (apply t op').db := by
  rcases h with ⟨now, h⟩ | ⟨op⟩
  · exact db_enqueue_eq hdb now h
  · exact db_apply_eq hdb op

/-! ### Whole runs -/

/-- **Secrets never reach the disk.** Two runs on the same database that make the same calls, up to the secrets
of the payloads, have the same jobs, dead letters and events after every call. -/
theorem secrets_not_on_disk (s t : Store) (hdb : s.db = t.db) (ops ops' : List Op)
    (h : List.Forall₂ SameOp ops ops') (n : ℕ) :
    (run apply s (ops.take n)).db = (run apply t (ops'.take n)).db := by
  have hstep : ∀ (s t : Store) (op op' : Op), s.db = t.db → SameOp op op' →
      (apply s op).db = (apply t op').db := fun _ _ _ _ hst hop => db_sameOp hst hop
  exact run_related hstep (List.forall₂_take n h) hdb

/-- The sample payload with a value under a secret key. -/
def secretPayload (value : PyStr) : List (PyStr × Json) :=
  samplePayload ++ [(py "secrets", .str value), (py "source_download_url", .str value)]

theorem sameButSecrets_secretPayload (v w : PyStr) : SameButSecrets (secretPayload v) (secretPayload w) where
  nodup_left := by
    show (List.map Prod.fst (secretPayload [])).Nodup
    decide
  nodup_right := by
    show (List.map Prod.fst (secretPayload [])).Nodup
    decide
  get?_eq key hk := by
    have hfound : ∀ x : PyStr, get? (secretPayload x) key = get? samplePayload key := by
      intro x
      have hs : py "secrets" ≠ key := fun he => hk (by simp [secretKeys, ← he])
      have hu : py "source_download_url" ≠ key := fun he => hk (by simp [secretKeys, ← he])
      unfold get? secretPayload
      rw [List.find?_append]
      simp [hs, hu]
    rw [hfound, hfound]

/-- An attempt that is enqueued, crashes until it is a dead letter, and meets a restart. -/
def secretOps (value : PyStr) : List Op :=
  .enqueue 0 (secretPayload value) :: .restart :: (List.range 3).flatMap fun n =>
    [.acquireLease (seconds n) (py "token") (py "worker-0") 120,
      .recordExecutorCrash (seconds n) sampleAttempt (py "crash") none none]

theorem secretOps_dead_letter :
    (run apply Store.empty ((secretOps (py "one")).take 8)).db.dlq.rows.length = 1 := by
  decide +kernel

/-- Two attempts that differ in a secret leave the same dead letter and the same file. -/
theorem secrets_not_on_disk_dead_letter :
    (run apply Store.empty ((secretOps (py "one")).take 8)).db.dlq.rows.length = 1 ∧
    (run apply Store.empty ((secretOps (py "one")).take 8)).db =
      (run apply Store.empty ((secretOps (py "two")).take 8)).db := by
  have hsame : List.Forall₂ SameOp (secretOps (py "one")) (secretOps (py "two")) :=
    .cons (.enqueue 0 (sameButSecrets_secretPayload _ _)) (List.forall₂_same.mpr fun op _ => .same op)
  exact ⟨secretOps_dead_letter, secrets_not_on_disk Store.empty Store.empty rfl _ _ hsame 8⟩

end BuildEngine.Queue.Confidentiality
