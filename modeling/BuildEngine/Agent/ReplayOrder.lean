import BuildEngine.Agent.Delivery
import BuildEngine.Queue.FrameIdentity

/-! # What a replay returns, and in which order

The query of `replay_after` sorts the rows by their millisecond first and by their number only where these agree. In
a run whose clock is not set back, the rows of an attempt were created in the order of their numbers (`OrderInv`), so
the query lists them in that order; and each of them goes back to one append of the run, since which it was neither
acknowledged nor removed (`Kept`). -/

namespace BuildEngine.Agent.ReplayOrder

open BuildEngine.Base BuildEngine.Base.Json BuildEngine.Base.Run BuildEngine.Agent.Protocol
open BuildEngine.Agent.Uplink hiding State State.init Action step publishBegin publishAppend
open BuildEngine.Agent.SequenceNumbers (mem_events_of_others sampleUplink)
open BuildEngine.Agent.Delivery BuildEngine.Agent.WireOrder
open BuildEngine.Queue.Schema BuildEngine.Queue BuildEngine.Queue.Store BuildEngine.Queue.Outbox
open BuildEngine.Queue.Ops BuildEngine.Queue.Events BuildEngine.Queue.Replay BuildEngine.Queue.FrameIdentity

/-- The clock reading an append stores with its row. -/
def created? : Action → Option Instant
  | .publishAppend _ _ _ clock => some clock.created
  | _ => none

/-- The clock is not set back between the appends of the run. -/
def ClockForward (acts : List Action) : Prop := (acts.filterMap created?).Pairwise (· ≤ ·)

/-- The action acknowledges the event `n` of the attempt `a`; of a number SQLite cannot hold the call raises. -/
def Acks (a : PyStr) (n : ℕ) : Action → Prop
  | .store (.ackThrough b m) => b = a ∧ n ≤ m ∧ m < maxSqliteInt
  | _ => False

section Datetime
variable [PyDatetime] (cfg : UplinkConfig)

/-- The event was there before the action, and is not after it: it is acknowledged or pruned. -/
def Removes (a : PyStr) (n : ℕ) (s : State) (act : Action) : Prop :=
  (s.store.db.event? a n).isSome ∧ (step cfg s act).store.db.event? a n = none

/-- The action is the append of the envelope by a publish, with the number `next_seq` gave it, and returns. -/
def Appends (s : State) (act : Action) (e : Envelope) : Prop :=
  ∃ now timestamp id clock call n, act = .publishAppend now timestamp id clock ∧
    s.publishing = some ⟨call, .numbered n⟩ ∧
    newEnvelope now timestamp id call.type call.payload cfg.engineId (some call.buildJobId) (some call.attemptId)
      (some n) = .ok e ∧
    (append cfg.outbox clock e s.store.db).1 = .ok ()

/-- The event `n` of the attempt `a` was appended in the run with the envelope `e`, and neither acknowledged nor
removed since. -/
def Kept (acts : List Action) (e : Envelope) (a : PyStr) (n : ℕ) : Prop :=
  ∃ before act after, acts = before ++ act :: after ∧
    Appends cfg (run (step cfg) State.init before) act e ∧ e.attemptId = some a ∧ e.seq = some n ∧
    ((step cfg (run (step cfg) State.init before) act).store.db.event? a n).isSome ∧
    Along (step cfg) (fun s act => ¬ Acks a n act ∧ ¬ Removes cfg a n s act)
      (step cfg (run (step cfg) State.init before) act) after

/-- What the envelopes of a replay are: events that were kept, above the cursor of their attempt, and as they were
appended; none twice, and those of an attempt in increasing order. -/
structure ReplaySound (acts : List Action) (cursors : List (PyStr × ℕ)) (es : List Envelope) : Prop where
  kept : ∀ x ∈ es, ∃ e a n, Kept cfg acts e a n ∧ SameEnvelope x e ∧ cursor cursors a < n
  distinct : es.Nodup
  increasing : es.Pairwise fun x y => x.attemptId = y.attemptId → ∃ m n, x.seq = some m ∧ y.seq = some n ∧ m < n

/-! ### One action -/

/-- What an action does to the events and to the number a publish holds. -/
inductive EventStep (s : State) : Action → State → Prop where
  | keep {act : Action} {t : State} (hsub : ∀ f ∈ t.store.db.events.rows, f ∈ s.store.db.events.rows)
      (hcov : CursorCovers s.store.db → CursorCovers t.store.db)
      (hp : ∀ call n, t.publishing = some ⟨call, .numbered n⟩ → s.publishing = some ⟨call, .numbered n⟩) :
      EventStep s act t
  | begin {call : EventCall} {n : ℕ} {t : State} (hn : nextSeq call.attemptId s.store.db = .ok n)
      (ht : t = { s with publishing := some ⟨call, .numbered n⟩ }) : EventStep s (.publishBegin call) t
  | append {now timestamp : Instant} {id : PyStr} {clock : AppendClock} {call : EventCall} {n : ℕ} {e : Envelope}
      {t : State} (hp : s.publishing = some ⟨call, .numbered n⟩)
      (he : newEnvelope now timestamp id call.type call.payload cfg.engineId (some call.buildJobId)
        (some call.attemptId) (some n) = .ok e)
      (hdb : t.store.db = (append cfg.outbox clock e s.store.db).2)
      (hp' : ∀ call n, t.publishing ≠ some ⟨call, .numbered n⟩) :
      EventStep s (.publishAppend now timestamp id clock) t

/-- The store and the publish are left alone. -/
theorem EventStep.same {s t : State} {act : Action} (hs : t.store = s.store) (hp : t.publishing = s.publishing) :
    EventStep cfg s act t :=
  .keep (fun f hf => by rwa [hs] at hf) (fun h => by rwa [hs]) fun call n h => by rwa [hp] at h

theorem onLink_same (s : State) (c : Link) (act : Action) :
    (onLink s c act).store = s.store ∧ (onLink s c act).publishing = s.publishing := by
  unfold onLink
  split <;> (try split) <;> (try split) <;> exact ⟨rfl, rfl⟩

theorem eventStep_publishAppend (s : State) (now timestamp : Instant) (id : PyStr) (clock : AppendClock) :
    EventStep cfg s (.publishAppend now timestamp id clock) (publishAppend cfg now timestamp id clock s) := by
  unfold publishAppend
  split
  · next call n hp =>
    split
    · exact .keep (fun _ hf => hf) (fun h => h) fun _ _ h => (by cases h)
    · next e he =>
      split
      · next x db hx =>
        exact .append hp he (congrArg Prod.snd hx).symm fun _ _ h => (by cases h)
      · next u db hx =>
        exact .append hp he (congrArg Prod.snd hx).symm fun _ _ h => (by cases h)
  · exact .same cfg rfl rfl

theorem eventStep (s : State) (act : Action) : EventStep cfg s act (step cfg s act) := by
  cases act with
  | store op =>
    simp only [step]
    split_ifs with hop
    · exact .keep (fun f hf => mem_events_of_others hop hf) (fun h => h.apply op) fun _ _ h => h
    · exact .same cfg rfl rfl
  | connect =>
    simp only [step]
    split
    · exact .same cfg rfl rfl
    · exact .same cfg rfl rfl
  | publishBegin call =>
    show EventStep cfg s _ (publishBegin call s)
    unfold publishBegin
    split
    · exact .same cfg rfl rfl
    · split
      · exact .same cfg rfl rfl
      · next n hn => exact .begin hn rfl
  | publishAppend now timestamp id clock => exact eventStep_publishAppend cfg s now timestamp id clock
  | publishSend =>
    show EventStep cfg s _ (publishSend s)
    unfold publishSend
    split
    · split
      · exact .keep (fun _ hf => hf) (fun h => h) fun _ _ h => (by cases h)
      · exact .keep (fun _ hf => hf) (fun h => h) fun _ _ h => (by cases h)
    · exact .same cfg rfl rfl
  | publishReturn delivered =>
    show EventStep cfg s _ (publishReturn delivered s)
    unfold publishReturn
    split
    · split_ifs
      · exact .keep (fun _ hf => hf) (fun h => h) fun _ _ h => (by cases h)
      · exact .keep (fun _ hf => hf) (fun h => h) fun _ _ h => (by cases h)
    · exact .same cfg rfl rfl
  | restart => exact .keep (fun _ hf => hf) (fun h => h) fun _ _ h => (by cases h)
  | _ =>
    simp only [step]
    split
    · next c _ =>
      obtain ⟨hs, hp⟩ := onLink_same s c _
      exact .same cfg hs hp
    · exact .same cfg rfl rfl

/-! ### The order of creation -/

/-- The events of every attempt were created in the order of their numbers, and the number a publish holds is above
those of its attempt. -/
structure OrderInv (s : State) : Prop where
  covers : CursorCovers s.store.db
  created : CreatedInOrder s.store.db
  above : ∀ call n, s.publishing = some ⟨call, .numbered n⟩ →
    ∀ f ∈ s.store.db.events.rows, f.attemptId = call.attemptId → f.seq < n

/-- No event was created after the reading. -/
def Behind (db : Db) (t : Instant) : Prop := ∀ f ∈ db.events.rows, f.createdAt ≤ formatDatetime t

omit [PyDatetime] in
theorem nextSeq_above {db : Db} (h : CursorCovers db) {a : PyStr} {n : ℕ} (hn : nextSeq a db = .ok n) :
    ∀ f ∈ db.events.rows, f.attemptId = a → f.seq < n := by
  rintro f hf rfl
  unfold nextSeq at hn
  split at hn
  · cases hn
  · next r hr =>
    have hle := h f hf r hr
    have hseq := Except.ok.inj hn
    omega

/-- The invariant is kept by every action, if an append does not find events created after its reading. -/
theorem OrderInv.step {s : State} (h : OrderInv s) (act : Action)
    (hclock : ∀ t ∈ created? act, Behind s.store.db t) : OrderInv (step cfg s act) := by
  have hstep := eventStep cfg s act
  generalize Delivery.step cfg s act = t at hstep
  cases hstep with
  | keep hsub hcov hp =>
    refine ⟨hcov h.covers, createdInOrder_of_subset h.created hsub, fun call n hp' f hf => ?_⟩
    exact h.above call n (hp call n hp') f (hsub f hf)
  | begin hn ht =>
    subst ht
    refine ⟨h.covers, h.created, ?_⟩
    rintro call n ⟨⟩
    exact nextSeq_above h.covers hn
  | @append _ _ _ clock call n e _ hp he hdb hp' =>
    have ha : e.attemptId = some call.attemptId := by rw [(of_newEnvelope he).1]
    have hn : e.seq = some n := by rw [(of_newEnvelope he).1]
    have hbehind : Behind s.store.db clock.created := hclock clock.created rfl
    refine ⟨?_, ?_, fun call n hp => absurd hp (hp' call n)⟩
    · rw [hdb]
      exact h.covers.apply (s := s.store) (.append cfg.outbox clock e)
    · rw [hdb]
      exact createdInOrder_append ha hn h.created (h.above call n hp) fun f hf _ => hbehind f hf

/-- An action creates an event at its own reading at most. -/
theorem Behind.step {s : State} {act : Action} {t : Instant} (h : Behind s.store.db t)
    (hle : ∀ u ∈ created? act, u ≤ t) : Behind (step cfg s act).store.db t := by
  have hstep := eventStep cfg s act
  generalize Delivery.step cfg s act = s' at hstep
  cases hstep with
  | keep hsub => exact fun f hf => h f (hsub f hf)
  | begin hn ht =>
    subst ht
    exact h
  | @append _ _ _ clock call n e _ hp he hdb hp' =>
    intro f hf
    rw [hdb] at hf
    rcases mem_events_append hf with hold | ⟨_, _, _, _, ⟨⟩, -, -, -, hrow⟩
    · exact h f hold
    · have hu : clock.created ≤ t := hle clock.created rfl
      rw [hrow]
      exact Int.ediv_le_ediv (by norm_num) hu

theorem orderInv_run : ∀ (acts : List Action) {s : State}, OrderInv s → ClockForward acts →
    (∀ t ∈ acts.filterMap created?, Behind s.store.db t) → OrderInv (run (step cfg) s acts)
  | [], _, h, _, _ => h
  | act :: acts, s, h, hforward, hbehind => by
    have hhead : ∀ t ∈ created? act, t ∈ (act :: acts).filterMap created? := fun t ht =>
      List.mem_filterMap.mpr ⟨act, List.mem_cons_self, ht⟩
    have htail : ∀ t ∈ acts.filterMap created?, t ∈ (act :: acts).filterMap created? := fun t ht => by
      obtain ⟨b, hb, ht⟩ := List.mem_filterMap.mp ht
      exact List.mem_filterMap.mpr ⟨b, List.mem_cons_of_mem _ hb, ht⟩
    have hsplit : ClockForward acts ∧ ∀ u ∈ created? act, ∀ t ∈ acts.filterMap created?, u ≤ t := by
      unfold ClockForward at hforward ⊢
      rw [List.filterMap_cons] at hforward
      rcases hcreated : created? act with _ | u
      · rw [hcreated] at hforward
        exact ⟨hforward, fun u hu => by cases hu⟩
      · rw [hcreated] at hforward
        obtain ⟨hle, hrest⟩ := List.pairwise_cons.mp hforward
        refine ⟨hrest, fun v hv t ht => ?_⟩
        cases hv
        exact hle t ht
    refine orderInv_run acts (h.step cfg act fun t ht => hbehind t (hhead t ht)) hsplit.1 fun t ht => ?_
    exact (hbehind t (htail t ht)).step cfg fun u hu => hsplit.2 u hu t ht

/-! ### The history of a row -/

/-- The row goes back to an append, and holds its envelope. -/
def FromAppend (acts : List Action) (f : EventRow) : Prop :=
  ∃ e, Kept cfg acts e f.attemptId f.seq ∧ Valid e ∧ Holds f e ∧ SameEnvelope e.sorted e

/-- One more action, after which the row is still there. -/
theorem Kept.concat {acts : List Action} {e : Envelope} {f : EventRow} (h : Kept cfg acts e f.attemptId f.seq)
    {act : Action} (hf : f ∈ (step cfg (run (step cfg) State.init acts) act).store.db.events.rows) :
    Kept cfg (acts ++ [act]) e f.attemptId f.seq := by
  obtain ⟨before, first, after, rfl, happends, ha, hn, hsome, halong⟩ := h
  rw [run_append, run_cons] at hf
  refine ⟨before, first, after ++ [act], by simp, happends, ha, hn, hsome, Along.append.mpr ⟨halong, ⟨?_, ?_⟩, trivial⟩⟩
  · -- an acknowledgement would have deleted the row
    intro hacks
    unfold Acks at hacks
    split at hacks
    · next b m =>
      obtain ⟨rfl, hle, hlt⟩ := hacks
      simp only [step, ofOthers, if_true, Ops.apply, ackThrough, if_neg (not_le.mpr hlt)] at hf
      have hno := (mem_events_deleteEvents.mp hf).2
      simp only [decide_true, Bool.true_and, decide_eq_false_iff_not] at hno
      exact hno hle
    · exact hacks
  · rintro ⟨-, hnone⟩
    rw [event?_of_mem hf] at hnone
    cases hnone

/-- The row an append has inserted. -/
theorem fromAppend_new {before : List Action} {now timestamp : Instant} {id : PyStr} {clock : AppendClock}
    {call : EventCall} {n : ℕ} {e : Envelope} {f : EventRow}
    (hp : (run (step cfg) State.init before).publishing = some ⟨call, .numbered n⟩)
    (he : newEnvelope now timestamp id call.type call.payload cfg.engineId (some call.buildJobId)
      (some call.attemptId) (some n) = .ok e)
    (hf : f ∈ (step cfg (run (step cfg) State.init before) (.publishAppend now timestamp id clock)).store.db.events.rows)
    (hnew : Inserts (.append cfg.outbox clock e) f)
    (hgone : f ∉ (run (step cfg) State.init before).store.db.events.rows)
    (hmem : f ∈ (append cfg.outbox clock e (run (step cfg) State.init before).store.db).2.events.rows) :
    FromAppend cfg (before ++ [.publishAppend now timestamp id clock]) f := by
  obtain ⟨_, _, _, text, ⟨⟩, ha, hn, htext, hrow⟩ := hnew
  have hfields := (of_newEnvelope he).1
  have hlt : n < maxSqliteInt ∧ (append cfg.outbox clock e (run (step cfg) State.init before).store.db).1 = .ok () := by
    have hstep := append_step cfg.outbox clock e (run (step cfg) State.init before).store.db
    generalize (append cfg.outbox clock e (run (step cfg) State.init before).store.db).1 = result,
      (append cfg.outbox clock e (run (step cfg) State.init before).store.db).2 = db' at hstep hmem
    have hseq : e.seq = some n := by rw [hfields]
    cases hstep with
    | refused => exact absurd hmem hgone
    | repeated => exact absurd hmem hgone
    | inserted _ hs hb =>
      cases hseq.symm.trans hs
      exact ⟨hb, rfl⟩
  have hvalid : Valid e := valid_of_newEnvelope he (hlt.1.trans (by unfold maxSqliteInt; norm_num)) call.wf
  have hholds : Holds f e := ⟨ha, hn, by rw [hrow]; exact htext⟩
  refine ⟨e, ⟨before, _, [], rfl, ⟨now, timestamp, id, clock, call, n, rfl, hp, he, hlt.2⟩, ha, hn, ?_, trivial⟩, hvalid,
    hholds, same_sorted (by rw [hfields]) (by rw [hfields]; exact call.wf)⟩
  rw [event?_of_mem hf]
  rfl

/-- Every row of a run goes back to an append. -/
theorem fromAppend_run (acts : List Action) :
    ∀ f ∈ (run (step cfg) State.init acts).store.db.events.rows, FromAppend cfg acts f := by
  induction acts using List.reverseRecOn with
  | nil => exact fun f hf => absurd hf (by simp [State.init, Store.empty, Db.empty, Table.empty])
  | append_singleton acts act ih =>
    intro f hf
    rw [run_concat] at hf
    by_cases hold : f ∈ (run (step cfg) State.init acts).store.db.events.rows
    · obtain ⟨e, hkept, hvalid, hholds, hsame⟩ := ih f hold
      exact ⟨e, hkept.concat cfg hf, hvalid, hholds, hsame⟩
    · have hstep := eventStep cfg (run (step cfg) State.init acts) act
      have hf' := hf
      generalize Delivery.step cfg (run (step cfg) State.init acts) act = t at hstep hf'
      cases hstep with
      | keep hsub => exact absurd (hsub f hf') hold
      | begin hn ht =>
        subst ht
        exact absurd hf' hold
      | @append now timestamp id clock call n e _ hp he hdb hp' =>
        rw [hdb] at hf'
        rcases mem_events_append hf' with hmem | hnew
        · exact absurd hmem hold
        · exact fromAppend_new cfg hp he hf hnew hold hf'

/-! ### The replay -/

omit [PyDatetime] in
theorem distinct_of_increasing {es : List Envelope}
    (h : es.Pairwise fun x y => x.attemptId = y.attemptId → ∃ m n, x.seq = some m ∧ y.seq = some n ∧ m < n) :
    es.Nodup := by
  refine h.imp fun {x y} hlt hxy => ?_
  obtain ⟨m, n, hm, hn, hmn⟩ := hlt (by rw [hxy])
  rw [hxy, hn] at hm
  have := Option.some.inj hm
  omega

/-- **What a replay returns, and in which order.** In every run of the uplink, the store and its restarts whose clock
is not set back between appends, whatever is acknowledged and pruned. -/
theorem replay_sound (acts : List Action) (hforward : ClockForward acts) (clock : EventRow → Instant)
    (cursors : List (PyStr × ℕ)) :
    ∃ es, replayAfter clock cursors (run (step cfg) State.init acts).store.db = .ok es ∧
      ReplaySound cfg acts cursors es := by
  have hempty : ∀ f, f ∉ State.init.store.db.events.rows := by simp [State.init, Store.empty, Db.empty, Table.empty]
  have hinit : OrderInv State.init :=
    ⟨fun f hf => absurd hf (hempty f), fun f hf => absurd hf (hempty f), fun _ _ h => (by cases h)⟩
  have hinv := orderInv_run cfg acts hinit hforward fun _ _ f hf => absurd hf (hempty f)
  have hfrom := fromAppend_run cfg acts
  have hvalid : RowsValid (run (step cfg) State.init acts).store.db := fun f hf => by
    obtain ⟨e, -, hv, hh, -⟩ := hfrom f hf
    exact ⟨e, hv, hh⟩
  have hincreasing : ((rowsAbove cursors (run (step cfg) State.init acts).store.db).filterMap (replayed? clock)).Pairwise
      fun x y => x.attemptId = y.attemptId → ∃ m n, x.seq = some m ∧ y.seq = some n ∧ m < n := by
    rw [List.pairwise_filterMap]
    refine (rowsAbove_pairwise hinv.created cursors).imp_of_mem fun {f g} hf hg hlt x hx y hy hxy => ?_
    obtain ⟨hxa, hxs⟩ := of_replayed? hvalid (mem_rowsAbove.mp hf).1 hx
    obtain ⟨hya, hys⟩ := of_replayed? hvalid (mem_rowsAbove.mp hg).1 hy
    rw [hxa, hya, Option.some.injEq] at hxy
    exact ⟨f.seq, g.seq, hxs, hys, hlt hxy⟩
  refine ⟨_, replayAfter_of_valid hvalid clock cursors, fun x hx => ?_, distinct_of_increasing hincreasing, hincreasing⟩
  obtain ⟨f, hf, hx⟩ := List.mem_filterMap.mp hx
  obtain ⟨hmem, hcursor⟩ := mem_rowsAbove.mp hf
  obtain ⟨e, hkept, hv, hh, hsame⟩ := hfrom f hmem
  obtain ⟨-, rfl⟩ := (replayed?_eq_some hv hh x).mp hx
  exact ⟨e, f.attemptId, f.seq, hkept, hsame, hcursor⟩

end Datetime

theorem clockForward_promptActs : ClockForward promptActs := by
  unfold ClockForward
  decide +kernel

/-- A run of two publishes, with a failed `send` between them. -/
theorem replay_sound_prompt : ∃ es,
    @replayAfter firstDay (fun _ => 5000000) [(sampleAttempt, 1)]
      (run (@step firstDay sampleUplink) State.init promptActs).store.db = .ok es ∧
    @ReplaySound firstDay sampleUplink promptActs [(sampleAttempt, 1)] es :=
  @replay_sound firstDay sampleUplink promptActs clockForward_promptActs (fun _ => 5000000) [(sampleAttempt, 1)]

end BuildEngine.Agent.ReplayOrder
