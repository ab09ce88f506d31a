import BuildEngine.Agent.Recovery
import BuildEngine.Base.Outcome

/-! # A rejected enqueue

`enqueue` puts its payload into memory under the attempt before the database has accepted the row, and the key of
the table is the attempt alone. Where the attempt belongs to another build, the row is not reloaded and the call
raises; its payload stays in memory, and from then on is the payload of the other build's row, unless one was there
already (`enqueue_sound_iff`). -/

namespace BuildEngine.Agent.Rejection

open BuildEngine.Base BuildEngine.Base.Json BuildEngine.Base.Run BuildEngine.Agent.Protocol
open BuildEngine.Agent.Recovery BuildEngine.Queue.Schema BuildEngine.Queue BuildEngine.Queue.Store
open BuildEngine.Queue.Ops BuildEngine.Queue.Confidentiality

/-- The call has left the tables as they were, and what the store returns. -/
structure Unseen (s t : Store) : Prop where
  db : t.db = s.db
  getJob : ∀ b a, t.getJob b a = s.getJob b a
  jobsForBuild : ∀ b, t.jobsForBuild b = s.jobsForBuild b
  acquireLease : ∀ now token owner timeout,
    (t.acquireLease now token owner timeout).1 = (s.acquireLease now token owner timeout).1 ∧
      (t.acquireLease now token owner timeout).2.db = (s.acquireLease now token owner timeout).2.db

/-- The payload of the first enqueue of the attempt in the process that returned. -/
def firstAccepted (a : PyStr) : Store → List Op → Option (List (PyStr × Json))
  | _, [] => none
  | s, .enqueue now p :: ops =>
    if (s.enqueue now p).1.isOk then (enqueuedFor a (.enqueue now p)).or (firstAccepted a (apply s (.enqueue now p)) ops)
    else firstAccepted a (apply s (.enqueue now p)) ops
  | s, op :: ops => firstAccepted a (apply s op) ops

/-- The store of a process: started on a database, after the calls of the process. -/
def processStore (before process : List Op) : Store := run apply (run apply Store.empty before).restart process

/-- An enqueue that raises changes nothing; one that does not insert leaves the tables as they are and returns the
payload the process has first enqueued. -/
structure EnqueueSound (before process : List Op) (now : Instant) (p : List (PyStr × Json)) : Prop where
  rejected : ∀ e, ((processStore before process).enqueue now p).1 = .error e →
    Unseen (processStore before process) ((processStore before process).enqueue now p).2
  repeated : ∀ result, ((processStore before process).enqueue now p).1 = .ok result → result.inserted = false →
    ((processStore before process).enqueue now p).2.db = (processStore before process).db ∧
      ∀ q, firstAccepted result.job.attemptId (run apply Store.empty before).restart process = some q →
        result.job.payload = some q

/-- If the row of the attempt is of another build, the process has enqueued the attempt before; if it is of this
build, the first payload the process has enqueued for the attempt was accepted. -/
def Guarded (before process : List Op) (p : List (PyStr × Json)) : Prop :=
  ∀ b a r, requiredPayloadUuid p (py "build_job_id") = .ok b → requiredPayloadUuid p (py "attempt_id") = .ok a →
    (processStore before process).db.job? a = some r →
    (r.buildJobId ≠ b → (process.findSome? (enqueuedFor a)).isSome) ∧
    (r.buildJobId = b → ∀ q, firstAccepted a (run apply Store.empty before).restart process = some q →
      process.findSome? (enqueuedFor a) = some q)

/-! ### What `enqueue` does -/

/-- The outcomes of `enqueue`: what it returns or raises, and the store after it. -/
inductive EnqueueView (s : Store) (p : List (PyStr × Json)) : Except QueueError EnqueueResult → Store → Prop where
  | malformed (e : QueueError)
      (h : ∀ b a, requiredPayloadUuid p (py "build_job_id") = .ok b → requiredPayloadUuid p (py "attempt_id") ≠ .ok a) :
      EnqueueView s p (.error e) s
  | foreign {b a : PyStr} {r : JobRow} (hb : requiredPayloadUuid p (py "build_job_id") = .ok b)
      (ha : requiredPayloadUuid p (py "attempt_id") = .ok a) (hr : s.db.job? a = some r) (hne : r.buildJobId ≠ b) :
      EnqueueView s p (.error .enqueuedNotReloaded) (s.holdPayload a p)
  | known {b a : PyStr} {r : JobRow} (hb : requiredPayloadUuid p (py "build_job_id") = .ok b)
      (ha : requiredPayloadUuid p (py "attempt_id") = .ok a) (hr : s.db.job? a = some r) (heq : r.buildJobId = b) :
      EnqueueView s p (.ok ⟨(s.holdPayload a p).record r, false⟩) (s.holdPayload a p)
  | inserted {b a : PyStr} {t : Store} (job : JobRecord) (hb : requiredPayloadUuid p (py "build_job_id") = .ok b)
      (ha : requiredPayloadUuid p (py "attempt_id") = .ok a) (hr : s.db.job? a = none) :
      EnqueueView s p (.ok ⟨job, true⟩) t

theorem db_holdPayload (s : Store) (a : PyStr) (p : List (PyStr × Json)) : (s.holdPayload a p).db = s.db := by
  unfold holdPayload
  split_ifs <;> rfl

theorem enqueueView (s : Store) (now : Instant) (p : List (PyStr × Json)) :
    EnqueueView s p (s.enqueue now p).1 (s.enqueue now p).2 := by
  unfold enqueue
  rcases hb : requiredPayloadUuid p (py "build_job_id") with e | b
  · exact .malformed e fun b a hb' => by rw [hb] at hb'; cases hb'
  · rcases ha : requiredPayloadUuid p (py "attempt_id") with e | a
    · exact .malformed e fun b a hb' ha' => by rw [ha] at ha'; cases ha'
    · dsimp only
      rcases hr : s.db.job? a with _ | r
      · -- the new row is found again
        have hrow : (s.db.insertOrIgnoreJob (newRow s.db.nextRowid b a (dumpsSorted (.obj (durablePayload p)))
            (formatDatetime now))).job? a =
            some (newRow s.db.nextRowid b a (dumpsSorted (.obj (durablePayload p))) (formatDatetime now)) := by
          rw [Db.job?_insertOrIgnoreJob, if_pos ⟨rfl, hr⟩]
        have hfound : (Store.jobRow ⟨s.db.insertOrIgnoreJob (newRow s.db.nextRowid b a
            (dumpsSorted (.obj (durablePayload p))) (formatDatetime now)),
            (s.holdPayload a p).transientPayloads⟩ b a) =
            some (newRow s.db.nextRowid b a (dumpsSorted (.obj (durablePayload p))) (formatDatetime now)) := by
          unfold jobRow
          rw [hrow]
          exact Option.filter_some_pos (decide_eq_true rfl)
        rw [hfound]
        exact .inserted _ hb ha hr
      · -- a row is there: nothing is inserted
        have hdb : s.db.insertOrIgnoreJob (newRow s.db.nextRowid b a (dumpsSorted (.obj (durablePayload p)))
            (formatDatetime now)) = s.db := by
          unfold Db.insertOrIgnoreJob
          rw [dif_neg]
          intro hnone
          cases (show s.db.job? a = none from hnone).symm.trans hr
        have hstore : ({ s.holdPayload a p with db := s.db } : Store) = s.holdPayload a p := by
          rw [← db_holdPayload s a p]
        rw [hdb, hstore]
        have hheld : (s.holdPayload a p).db.job? a = some r := by rw [db_holdPayload, hr]
        by_cases heq : r.buildJobId = b
        · have hfound : (s.holdPayload a p).jobRow b a = some r := by
            unfold jobRow
            rw [hheld]
            exact Option.filter_some_pos (decide_eq_true heq)
          rw [hfound]
          exact .known hb ha hr heq
        · have hmissing : (s.holdPayload a p).jobRow b a = none := by
            unfold jobRow
            rw [hheld]
            exact Option.filter_some_neg (by simpa using heq)
          rw [hmissing]
          exact .foreign hb ha hr heq

/-! ### The payload of a row -/

/-- The payload read from the row names its build. -/
def NamesBuild (r : JobRow) : Prop :=
  ∃ p, (jobFromRow r).payload = some p ∧ get? p (py "build_job_id") = some (.str r.buildJobId)

theorem get?_of_requiredPayloadUuid {p : List (PyStr × Json)} {key b : PyStr}
    (h : requiredPayloadUuid p key = .ok b) : get? p key = some (.str b) := by
  obtain ⟨v, hv, h⟩ := bind_ok h
  unfold requiredPayloadStr at hv
  split at hv
  · next s hget =>
    split_ifs at hv h
    rw [hget, Except.ok.inj hv, Except.ok.inj h]
  · cases hv

theorem namesBuild_newRow {p : List (PyStr × Json)} (h : WF (.obj p)) {b : PyStr}
    (hb : requiredPayloadUuid p (py "build_job_id") = .ok b) (rowid : ℕ) (a : PyStr) (now : Stamp) :
    NamesBuild (newRow rowid b a (dumpsSorted (.obj (durablePayload p))) now) := by
  have hn := nodup_of_wf h
  have hdurable : get? (durablePayload p) (py "build_job_id") = some (.str b) :=
    (get?_eq_some (nodup_durablePayload hn)).mpr
      ((mem_durablePayload hn).mpr ⟨get?_of_requiredPayloadUuid hb, by decide⟩)
  refine ⟨sortedMembers (durablePayload p), ?_, ?_⟩
  · unfold jobFromRow newRow
    dsimp only
    rw [loads_dumpsSorted (wf_durablePayload h), sortKeys_obj]
  · rw [get?_sortedMembers (nodup_durablePayload hn), hdurable]
    rfl

theorem namesBuild_run {ops : List Op} (hwf : WfPayloads ops) :
    ∀ a r, (run apply Store.empty ops).db.job? a = some r → NamesBuild r := by
  refine rows_run (fun r r' hbuild hpayload hr => ?_) ops (fun now p hp rowid b a hb => ?_) fun a r hr => by cases hr
  · unfold NamesBuild jobFromRow at hr ⊢
    rw [hpayload, hbuild]
    exact hr
  · exact namesBuild_newRow (hwf now p hp) hb rowid a (formatDatetime now)

/-! ### The rejection -/

theorem Unseen.refl (s : Store) : Unseen s s :=
  ⟨rfl, fun _ _ => rfl, fun _ => rfl, fun _ _ _ _ => ⟨rfl, rfl⟩⟩

theorem holdPayload_of_held {s : Store} {a : PyStr} (h : (s.transient? a).isSome) (p : List (PyStr × Json)) :
    s.holdPayload a p = s := by
  unfold holdPayload
  rw [if_pos h]

/-- A payload that names another build is not held unseen. -/
theorem not_unseen_holdPayload {s : Store} {a b : PyStr} {r : JobRow} {p : List (PyStr × Json)}
    (hr : s.db.job? a = some r) (hnames : NamesBuild r) (hb : requiredPayloadUuid p (py "build_job_id") = .ok b)
    (hne : r.buildJobId ≠ b) (hnone : s.transient? a = none) : ¬ Unseen s (s.holdPayload a p) := by
  intro h
  have hfound : ∀ t : Store, t.db = s.db → t.getJob r.buildJobId a = some (t.record r) := by
    intro t ht
    unfold getJob jobRow
    rw [ht, hr]
    simp
  have hid : r.attemptId = a := Db.attemptId_of_job? hr
  have hsame := h.getJob r.buildJobId a
  rw [hfound _ h.db, hfound s rfl] at hsame
  have hpayload := congrArg JobRecord.payload (Option.some.inj hsame)
  obtain ⟨q, hq, hbuild⟩ := hnames
  rw [payload_record, payload_record, hid, transient?_holdPayload, hnone, if_pos rfl, hq] at hpayload
  have hpq : p = q := Option.some.inj hpayload
  rw [← hpq, get?_of_requiredPayloadUuid hb] at hbuild
  injection hbuild with hbuild
  injection hbuild with hbuild
  exact hne hbuild.symm

/-- What is in memory is the first payload the process has enqueued. -/
theorem transient?_process (before : List Op) {process : List Op} (hlast : ∀ op ∈ process, op ≠ .restart) (a : PyStr) :
    (processStore before process).transient? a = process.findSome? (enqueuedFor a) := by
  unfold processStore
  rw [transient?_run a process _ hlast]
  rfl

/-- An attempt the process has enqueued is held in memory. -/
theorem findSome?_of_firstAccepted {a : PyStr} {q : List (PyStr × Json)} : ∀ {process : List Op} {s : Store},
    firstAccepted a s process = some q → ∃ q', process.findSome? (enqueuedFor a) = some q'
  | [], _, h => by cases h
  | op :: process, s, h => by
    rw [List.findSome?_cons]
    rcases hop : enqueuedFor a op with _ | q'
    · refine findSome?_of_firstAccepted (q := q) (s := apply s op) ?_
      cases op with
      | enqueue now p =>
        simp only [firstAccepted, hop, Option.none_or, ite_self] at h
        exact h
      | _ => exact h
    · exact ⟨q', rfl⟩

/-- **When a rejected enqueue changes nothing.** In every process on every database of an earlier run, an enqueue
that raises leaves everything as it was, and one that does not insert returns the first payload, exactly if the
attempt of another build was enqueued in this process before, and the attempt of this build not after a rejection. -/
theorem enqueue_sound_iff (before process : List Op) (hwf : WfPayloads (before ++ .restart :: process))
    (hlast : ∀ op ∈ process, op ≠ .restart) (now : Instant) (p : List (PyStr × Json)) :
    EnqueueSound before process now p ↔ Guarded before process p := by
  have hrun : run apply Store.empty (before ++ .restart :: process) = processStore before process := by
    rw [run_append, run_cons]
    rfl
  have hnames := namesBuild_run hwf
  rw [hrun] at hnames
  have hmemory := transient?_process before hlast
  have hview := enqueueView (processStore before process) now p
  have hpair : EnqueueSound before process now p ↔
      (∀ e, ((processStore before process).enqueue now p).1 = .error e →
        Unseen (processStore before process) ((processStore before process).enqueue now p).2) ∧
      ∀ result, ((processStore before process).enqueue now p).1 = .ok result → result.inserted = false →
        ((processStore before process).enqueue now p).2.db = (processStore before process).db ∧
          ∀ q, firstAccepted result.job.attemptId (run apply Store.empty before).restart process = some q →
            result.job.payload = some q := ⟨fun h => ⟨h.rejected, h.repeated⟩, fun h => ⟨h.1, h.2⟩⟩
  rw [hpair]
  unfold Guarded
  generalize ((processStore before process).enqueue now p).1 = result,
    ((processStore before process).enqueue now p).2 = t at hview
  cases hview with
  | malformed e hno =>
    refine iff_of_true ⟨fun _ _ => .refl _, fun _ h => (by cases h)⟩ fun b a r hb ha => absurd ha (hno b a hb)
  | @foreign b a r hb ha hr hne =>
    constructor
    · rintro ⟨hrejected, -⟩ b' a' r' hb' ha' hr'
      cases hb.symm.trans hb'
      cases ha.symm.trans ha'
      cases hr.symm.trans hr'
      refine ⟨fun _ => ?_, fun heq => absurd heq hne⟩
      by_contra hnone
      rw [← hmemory a, Option.not_isSome_iff_eq_none] at hnone
      exact not_unseen_holdPayload hr (hnames a r hr) hb hne hnone (hrejected _ rfl)
    · intro h
      refine ⟨fun _ _ => ?_, fun _ h => (by cases h)⟩
      have hheld := (h b a r hb ha hr).1 hne
      rw [← hmemory a] at hheld
      rw [holdPayload_of_held hheld]
      exact .refl _
  | @known b a r hb ha hr heq =>
    have hid : r.attemptId = a := Db.attemptId_of_job? hr
    have hpayload : ∀ q, firstAccepted a (run apply Store.empty before).restart process = some q →
        (((processStore before process).holdPayload a p).record r).payload = process.findSome? (enqueuedFor a) := by
      intro q hq
      obtain ⟨q', hq'⟩ := findSome?_of_firstAccepted hq
      rw [payload_record, hid, transient?_holdPayload, hmemory a, hq']
      rfl
    have hidRecord : (((processStore before process).holdPayload a p).record r).attemptId = a := by
      rw [attemptId_record, hid]
    constructor
    · rintro ⟨-, hrepeated⟩ b' a' r' hb' ha' hr'
      cases hb.symm.trans hb'
      cases ha.symm.trans ha'
      cases hr.symm.trans hr'
      refine ⟨fun hne => absurd heq hne, fun _ q hq => ?_⟩
      have hfirst := (hrepeated _ rfl rfl).2 q (by rw [hidRecord]; exact hq)
      exact (hpayload q hq).symm.trans hfirst
    · intro h
      refine ⟨fun _ h => (by cases h), ?_⟩
      rintro _ ⟨⟩ -
      refine ⟨db_holdPayload _ a p, fun q hq => ?_⟩
      rw [hidRecord] at hq
      exact (hpayload q hq).trans ((h b a r hb ha hr).2 heq q hq)
  | @inserted b a _ job hb ha hr =>
    refine iff_of_true ⟨fun _ h => (by cases h), ?_⟩ fun b' a' r hb' ha' hr' => ?_
    · rintro _ ⟨⟩ hfalse
      cases hfalse
    · cases ha.symm.trans ha'
      rw [hr] at hr'
      cases hr'

/-! ### A payload that replaces another -/

/-- Another build job. -/
def otherBuild : PyStr := py "00000000-0000-4000-8000-00000000000c"

/-- A payload that names the sample attempt and the other build. -/
def otherPayload : List (PyStr × Json) :=
  [(py "build_job_id", .str otherBuild), (py "attempt_id", .str sampleAttempt)]

/-- The build that the payload of the sample attempt names, as `get_job` returns it. -/
def namedBuild (s : Store) : Option PyStr :=
  ((s.getJob sampleBuild sampleAttempt).bind JobRecord.payload).bind fun p =>
    match get? p (py "build_job_id") with
    | some (.str b) => some b
    | _ => none

/-- After a restart, a rejected enqueue gives the attempt the payload of another build. -/
theorem rejected_replaces :
    ((processStore [.enqueue 0 samplePayload] []).enqueue 1 otherPayload).1.isOk = false ∧
      namedBuild (processStore [.enqueue 0 samplePayload] []) = some sampleBuild ∧
      namedBuild ((processStore [.enqueue 0 samplePayload] []).enqueue 1 otherPayload).2 = some otherBuild ∧
      ¬ EnqueueSound [.enqueue 0 samplePayload] [] 1 otherPayload := by
  have hraises : ((processStore [.enqueue 0 samplePayload] []).enqueue 1 otherPayload).1.isOk = false := by
    decide +kernel
  have hbefore : namedBuild (processStore [.enqueue 0 samplePayload] []) = some sampleBuild := by decide +kernel
  have hafter : namedBuild ((processStore [.enqueue 0 samplePayload] []).enqueue 1 otherPayload).2 = some otherBuild := by
    decide +kernel
  refine ⟨hraises, hbefore, hafter, fun h => ?_⟩
  rcases hresult : ((processStore [.enqueue 0 samplePayload] []).enqueue 1 otherPayload).1 with e | result
  · have hsame := (h.rejected e hresult).getJob sampleBuild sampleAttempt
    unfold namedBuild at hbefore hafter
    rw [hsame, hbefore] at hafter
    exact absurd hafter (by decide)
  · rw [hresult] at hraises
    cases hraises

theorem wfPayloads_sample : WfPayloads ([.enqueue 0 samplePayload] ++ .restart :: [.enqueue 1 samplePayload]) := by
  have hwf : WF (.obj samplePayload) := by
    unfold WF
    decide +kernel
  intro now p hp
  simp only [List.cons_append, List.nil_append, List.mem_cons, Op.enqueue.injEq, reduceCtorEq, List.not_mem_nil,
    or_false, false_or] at hp
  rcases hp with ⟨-, rfl⟩ | ⟨-, rfl⟩
  · exact hwf
  · exact hwf

/-- The condition, where the process has enqueued the attempt before. -/
theorem enqueue_sound_again : EnqueueSound [.enqueue 0 samplePayload] [.enqueue 1 samplePayload] 2 otherPayload ↔
    Guarded [.enqueue 0 samplePayload] [.enqueue 1 samplePayload] otherPayload :=
  enqueue_sound_iff [.enqueue 0 samplePayload] [.enqueue 1 samplePayload] wfPayloads_sample (by simp) 2 otherPayload

end BuildEngine.Agent.Rejection
