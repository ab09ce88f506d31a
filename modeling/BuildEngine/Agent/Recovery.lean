import BuildEngine.Agent.JobPayload
import BuildEngine.Queue.Confidentiality

/-! # Attempts recovered after a restart

A row keeps the payload of its attempt without the address of its source, so that no expiring address reaches the
disk; the whole payload is held in memory by the process that enqueued it. The record a worker leases has the
payload from memory if there is one and that of the row otherwise, and the row's never passes the first check of
`execute_job`. An attempt that is leased after a restart therefore runs exactly if it was enqueued again
since (`recovered_runnable_iff`). -/

namespace BuildEngine.Agent.Recovery

open BuildEngine.Base BuildEngine.Base.Json BuildEngine.Base.Run BuildEngine.Agent.Protocol
open BuildEngine.Agent.JobPayload BuildEngine.Queue.Schema BuildEngine.Queue BuildEngine.Queue.Store
open BuildEngine.Queue.Ops BuildEngine.Queue.Confidentiality

/-! ### The payload of a row -/

/-- The payload read from the row is there, and has no source address. -/
def Stripped (r : JobRow) : Prop :=
  ∃ p, (jobFromRow r).payload = some p ∧ get? p (py "source_download_url") = none

/-- Every payload that is enqueued is one `json` can write and read back. -/
def WfPayloads (ops : List Op) : Prop := ∀ now p, .enqueue now p ∈ ops → WF (.obj p)

theorem wf_durablePayload {p : List (PyStr × Json)} (h : WF (.obj p)) : WF (.obj (durablePayload p)) := by
  have hn := nodup_of_wf h
  unfold WF at h ⊢
  rw [wf, Bool.and_eq_true] at h ⊢
  refine ⟨decide_eq_true (nodup_durablePayload hn), wfMembers_iff.mpr fun kv hkv => ?_⟩
  exact wfMembers_iff.mp h.2 kv (List.mem_filter.mp hkv).1

/-- The row of an enqueued payload. -/
theorem stripped_newRow {p : List (PyStr × Json)} (h : WF (.obj p)) (rowid : ℕ) (b a : PyStr) (now : Stamp) :
    Stripped (newRow rowid b a (dumpsSorted (.obj (durablePayload p))) now) := by
  have hn := nodup_durablePayload (nodup_of_wf h)
  refine ⟨sortedMembers (durablePayload p), ?_, ?_⟩
  · unfold jobFromRow newRow
    dsimp only
    rw [loads_dumpsSorted (wf_durablePayload h), sortKeys_obj]
  · rw [get?_sortedMembers hn]
    rcases hget : get? (durablePayload p) (py "source_download_url") with _ | v
    · rfl
    · have hmem := (get?_eq_some hn).mp hget
      have hsecret : py "source_download_url" ∈ [py "secrets", py "source_download_url", py "secret_env"] := by
        decide
      exact absurd hsecret (of_decide_eq_true (List.mem_filter.mp hmem).2)

/-- Every row of a run is stripped. -/
theorem stripped_run (ops : List Op) {s : Store} (hwf : WfPayloads ops)
    (h : ∀ a r, s.db.job? a = some r → Stripped r) : ∀ a r, (run apply s ops).db.job? a = some r → Stripped r := by
  refine rows_run (fun r r' _ hpayload hr => ?_) ops (fun now p hp rowid b a _ => ?_) h
  · unfold Stripped jobFromRow at hr ⊢
    rw [hpayload]
    exact hr
  · exact stripped_newRow (hwf now p hp) rowid b a (formatDatetime now)

/-! ### The payload in memory -/

/-- The payload the call enqueues for the attempt. -/
def enqueuedFor (a : PyStr) : Op → Option (List (PyStr × Json))
  | .enqueue _ p =>
    match requiredPayloadUuid p (py "build_job_id"), requiredPayloadUuid p (py "attempt_id") with
    | .ok _, .ok a' => if a' = a then some p else none
    | _, _ => none
  | _ => none

theorem transient?_holdPayload (s : Store) (a a' : PyStr) (p : List (PyStr × Json)) :
    (s.holdPayload a' p).transient? a = (s.transient? a).or (if a' = a then some p else none) := by
  unfold holdPayload
  split_ifs with hheld hk hk
  · subst hk
    obtain ⟨q, hq⟩ := Option.isSome_iff_exists.mp hheld
    rw [hq]
    rfl
  · rw [Option.or_none]
  · subst hk
    have hnone : s.transient? a' = none := by simpa using hheld
    unfold transient? at hnone ⊢
    rw [Option.map_eq_none_iff] at hnone
    dsimp only
    rw [List.find?_append, hnone]
    simp
  · unfold transient?
    dsimp only
    rw [List.find?_append]
    simp [hk]

/-- An enqueue holds its payload, unless one is held already. -/
theorem transient?_enqueue (s : Store) (now : Instant) (p : List (PyStr × Json)) (a : PyStr) :
    (s.enqueue now p).2.transient? a = (s.transient? a).or (enqueuedFor a (.enqueue now p)) := by
  unfold enqueue
  rcases hb : requiredPayloadUuid p (py "build_job_id") with err | b
  · have hnone : enqueuedFor a (.enqueue now p) = none := by simp only [enqueuedFor, hb]
    rw [hnone, Option.or_none]
  · rcases ha : requiredPayloadUuid p (py "attempt_id") with err | a'
    · have hnone : enqueuedFor a (.enqueue now p) = none := by simp only [enqueuedFor, hb, ha]
      rw [hnone, Option.or_none]
    · have hsome : enqueuedFor a (.enqueue now p) = if a' = a then some p else none := by
        simp only [enqueuedFor, hb, ha]
      rw [hsome, ← transient?_holdPayload]
      dsimp only
      split <;> rfl

theorem transientPayloads_acquireLease (s : Store) (now : Instant) (token owner : PyStr) (timeout : ℤ) :
    (s.acquireLease now token owner timeout).2.transientPayloads = s.transientPayloads := by
  unfold acquireLease
  dsimp only
  split
  · rfl
  · rfl
  · split <;> rfl

/-- The other calls leave the payloads in memory alone. -/
theorem transientPayloads_apply (s : Store) {op : Op} (hq : ∀ now p, op ≠ .enqueue now p) (hr : op ≠ .restart) :
    (apply s op).transientPayloads = s.transientPayloads := by
  cases op with
  | enqueue now p => exact absurd rfl (hq now p)
  | restart => exact absurd rfl hr
  | acquireLease now token owner timeout => exact transientPayloads_acquireLease s now token owner timeout
  | refreshLease now a owner timeout token =>
    show (s.refreshLease now a owner timeout token).2.transientPayloads = _
    unfold refreshLease
    dsimp only
    split_ifs
    · split <;> rfl
    · rfl
  | transition now a state error expected owner token =>
    show (s.transition now a state error expected owner token).2.transientPayloads = _
    unfold transition
    split
    · rfl
    · split
      · rfl
      · split
        · rfl
        · rfl
        · dsimp only
          split_ifs
          · split <;> rfl
          · rfl
  | recordExecutorCrash now a error owner token =>
    show (s.recordExecutorCrash now a error owner token).2.transientPayloads = _
    unfold recordExecutorCrash
    dsimp only
    split
    · rfl
    · split_ifs <;> split <;> rfl
  | _ => rfl

theorem transient?_apply (s : Store) {op : Op} (hr : op ≠ .restart) (a : PyStr) :
    (apply s op).transient? a = (s.transient? a).or (enqueuedFor a op) := by
  by_cases hq : ∃ now p, op = .enqueue now p
  · obtain ⟨now, p, rfl⟩ := hq
    exact transient?_enqueue s now p a
  · have hnone : enqueuedFor a op = none := by
      cases op with
      | enqueue now p => exact absurd ⟨now, p, rfl⟩ hq
      | _ => rfl
    have hsame := transientPayloads_apply s (fun now p h => hq ⟨now, p, h⟩) hr
    rw [hnone, Option.or_none]
    unfold transient?
    rw [hsame]

/-- In a process that goes on, the payload of an attempt in memory is the first one enqueued for it. -/
theorem transient?_run (a : PyStr) : ∀ (ops : List Op) (s : Store), (∀ op ∈ ops, op ≠ .restart) →
    (run apply s ops).transient? a = (s.transient? a).or (ops.findSome? (enqueuedFor a))
  | [], s, _ => by rw [run_nil, List.findSome?_nil, Option.or_none]
  | op :: ops, s, h => by
    have hhead := transient?_apply s (h op List.mem_cons_self) a
    have htail := transient?_run a ops (apply s op) fun op' hop => h op' (List.mem_cons_of_mem _ hop)
    rw [run_cons, htail, hhead, Option.or_assoc, List.findSome?_cons]
    rcases enqueuedFor a op with _ | p <;> rfl

/-! ### The leased record -/

/-- The payload of the record passes the checks of `execute_job`. -/
def Runnable (limits : Limits) (job : JobRecord) : Prop :=
  ∃ p, job.payload = some p ∧ (jobInput limits p).isOk = true

/-- The payload of a record: the one in memory, or else that of its row. -/
theorem payload_record (s : Store) (r : JobRow) :
    (s.record r).payload = (s.transient? r.attemptId).or (jobFromRow r).payload := by
  unfold record withTransientPayload
  have hid : (jobFromRow r).attemptId = r.attemptId := rfl
  rw [hid]
  rcases s.transient? r.attemptId with _ | p <;> rfl

/-- A leased record has the payload in memory, or one that fails the first check. -/
theorem payload_leased {s : Store} (hs : ∀ a r, s.db.job? a = some r → Stripped r) {now : Instant}
    {token owner : PyStr} {timeout : ℤ} {job : JobRecord}
    (h : (s.acquireLease now token owner timeout).1 = .ok (some job)) :
    job.payload = s.transient? job.attemptId ∧ job.payload ≠ none ∨
    s.transient? job.attemptId = none ∧
      ∃ p, job.payload = some p ∧ get? p (py "source_download_url") = none := by
  obtain ⟨r, hr, -, -, -, hjob⟩ := acquireLease_returns h
  have hid : r.attemptId = job.attemptId := Db.attemptId_of_job? hr
  have hmemory : (s.acquireLease now token owner timeout).2.transient? job.attemptId =
      s.transient? job.attemptId := by
    unfold transient?
    rw [transientPayloads_acquireLease]
  have hpayload := payload_record (s.acquireLease now token owner timeout).2
    (leaseRow owner token (formatDatetime (now + seconds timeout)) (formatDatetime now) r)
  rw [← hjob, attemptId_leaseRow, hid, hmemory] at hpayload
  rcases hheld : s.transient? job.attemptId with _ | p
  · obtain ⟨q, hq, hnone⟩ := hs _ r hr
    refine Or.inr ⟨rfl, q, ?_, hnone⟩
    rw [hpayload, hheld]
    exact hq
  · rw [hheld] at hpayload
    exact Or.inl ⟨hpayload, by rw [hpayload]; simp⟩

/-- **Recovered attempts.** In a run with a restart and none after it, the record a worker leases can be run if
and only if the attempt was enqueued again since the restart, the first time with a payload that can be run; and
if it was not enqueued again, the check that fails is that of the source address. -/
theorem recovered_runnable_iff (limits : Limits) (before after : List Op) {now : Instant} {token owner : PyStr}
    {timeout : ℤ} {job : JobRecord} (hwf : WfPayloads (before ++ .restart :: after))
    (hlast : ∀ op ∈ after, op ≠ .restart)
    (hlease : ((run apply Store.empty (before ++ .restart :: after)).acquireLease now token owner timeout).1 =
      .ok (some job)) :
    (Runnable limits job ↔ ∃ p, after.findSome? (enqueuedFor job.attemptId) = some p ∧
      (jobInput limits p).isOk = true) ∧
    (after.findSome? (enqueuedFor job.attemptId) = none → ∃ p, job.payload = some p ∧
      jobInput limits p = .error (.required (py "source_download_url"))) := by
  have hrows := stripped_run (before ++ .restart :: after) hwf (s := Store.empty) (fun a r hr => by cases hr)
  have hmemory : (run apply Store.empty (before ++ .restart :: after)).transient? job.attemptId =
      after.findSome? (enqueuedFor job.attemptId) := by
    rw [run_append, run_cons, transient?_run _ after _ hlast]
    rfl
  have hpayload := payload_leased hrows hlease
  rw [hmemory] at hpayload
  rcases hpayload with ⟨hheld, hsome⟩ | ⟨hnone, p, hp, hsource⟩
  · refine ⟨?_, fun hnone => absurd (hheld.trans hnone) hsome⟩
    unfold Runnable
    rw [hheld]
  · have hfails := jobInput_of_no_source hsource limits
    refine ⟨?_, fun _ => ⟨p, hp, hfails⟩⟩
    unfold Runnable
    rw [hnone, hp]
    constructor
    · rintro ⟨q, hq, hok⟩
      rw [← Option.some.inj hq, hfails] at hok
      cases hok
    · rintro ⟨q, hq, -⟩
      cases hq

/-! ### An attempt that does not survive a restart -/

/-- An assignment with everything a build needs. -/
def fullPayload : List (PyStr × Json) :=
  samplePayload ++ [(py "site_id", .str (py "site")), (py "source_sha256", .str (py "0f")),
    (py "source_download_url", .str (py "https://storage/one-shot"))]

/-- Limits of an hour, with any number of processors. -/
def sampleLimits : Limits := ⟨3600, fun _ => true⟩

/-- The record a worker leases at the end of a run. -/
def leasedAfter (ops : List Op) : Option JobRecord :=
  ((run apply Store.empty ops).acquireLease (seconds 60) (py "token") (py "worker-0") 60).1.toOption.getD none

theorem of_leasedAfter {ops : List Op} {job : JobRecord} (h : leasedAfter ops = some job) :
    ((run apply Store.empty ops).acquireLease (seconds 60) (py "token") (py "worker-0") 60).1 =
      .ok (some job) := by
  unfold leasedAfter at h
  generalize ((run apply Store.empty ops).acquireLease (seconds 60) (py "token") (py "worker-0") 60).1 = result at h ⊢
  rcases result with err | leased
  · cases h
  · rw [show leased = some job from h]

theorem wf_fullPayload {before after : List Op} (h : ∀ op ∈ before ++ .restart :: after,
    op = .restart ∨ ∃ now, op = .enqueue now fullPayload) : WfPayloads (before ++ .restart :: after) := by
  intro now p hp
  rcases h _ hp with hr | ⟨now', hq⟩
  · cases hr
  · cases hq
    unfold WF
    decide +kernel

/-- The attempt is enqueued again after the restart, and can be run. -/
theorem recovered_again : ∃ job, leasedAfter [.enqueue 0 fullPayload, .restart, .enqueue (seconds 30) fullPayload] =
    some job ∧ Runnable sampleLimits job := by
  have hleased : (leasedAfter [.enqueue 0 fullPayload, .restart, .enqueue (seconds 30) fullPayload]).map
      (·.attemptId) = some sampleAttempt := by decide +kernel
  obtain ⟨job, hjob, hid⟩ := Option.map_eq_some_iff.mp hleased
  have hwf : WfPayloads ([.enqueue 0 fullPayload] ++ .restart :: [.enqueue (seconds 30) fullPayload]) :=
    wf_fullPayload (by simp)
  refine ⟨job, hjob, (recovered_runnable_iff sampleLimits [.enqueue 0 fullPayload]
    [.enqueue (seconds 30) fullPayload] hwf (by simp) (of_leasedAfter hjob)).1.mpr ⟨fullPayload, ?_, by decide⟩⟩
  rw [hid]
  rfl

/-- An attempt that could be run is leased by a worker after a restart, and cannot. -/
theorem recovered_not_runnable : (jobInput sampleLimits fullPayload).isOk = true ∧
    (∃ job, leasedAfter [.enqueue 0 fullPayload] = some job ∧ Runnable sampleLimits job) ∧
    ∃ job, leasedAfter [.enqueue 0 fullPayload, .restart] = some job ∧ job.attemptId = sampleAttempt ∧
      ¬ Runnable sampleLimits job := by
  refine ⟨by decide, ?_, ?_⟩
  · have hleased : (leasedAfter [.enqueue 0 fullPayload]).map (fun job => job.payload.any fun p =>
        (jobInput sampleLimits p).isOk) = some true := by decide +kernel
    obtain ⟨job, hjob, hok⟩ := Option.map_eq_some_iff.mp hleased
    obtain ⟨p, hp, hok⟩ := (Option.any_eq_true _ _).mp hok
    exact ⟨job, hjob, p, hp, hok⟩
  · have hleased : (leasedAfter [.enqueue 0 fullPayload, .restart]).map (fun job => (job.attemptId,
        job.payload.any fun p => (jobInput sampleLimits p).isOk)) = some (sampleAttempt, false) := by
      decide +kernel
    obtain ⟨job, hjob, hcols⟩ := Option.map_eq_some_iff.mp hleased
    simp only [Prod.mk.injEq] at hcols
    refine ⟨job, hjob, hcols.1, ?_⟩
    rintro ⟨p, hp, hok⟩
    have hany := hcols.2
    rw [hp, Option.any_some, hok] at hany
    cases hany

end BuildEngine.Agent.Recovery
