import BuildEngine.Agent.DeliverySteps
import BuildEngine.Queue.FrameIdentity

/-! # The exchange of events with coreapp

The protocol makes an event idempotent at its sequence number: *repeating the same sequence with the same logical
event is idempotent; a different event at that sequence is a protocol error*. Here the uplink is put together with
the network and with what coreapp has received. Every frame that `send` is called with is on the wire for good:
it may arrive late, many times, in any order or never. coreapp acknowledges a number, by `event.ack` or by a cursor
of `welcome`, only when it has received every number of the attempt up to it. The process may die between any two
statements of `append`.

As long as the row of an attempt is not deleted and the process does not die right after the `INSERT` of one of
its events, all frames sent under one number are the same text, and an event that was appended is stored, received
or pruned (`exchange_consistent`). If only sends of the open connection fail, then a connection whose replay is over
and whose frames have arrived leaves coreapp with exactly the numbers the attempt was given
(`exchange_complete`). -/

namespace BuildEngine.Agent.Exchange

open BuildEngine.Base BuildEngine.Base.Run BuildEngine.Agent.Protocol
open BuildEngine.Agent.Uplink hiding State Action step publishBegin publishAppend
open BuildEngine.Agent.Delivery hiding State Action step Inv
open BuildEngine.Agent.DeliverySteps
open BuildEngine.Agent.SequenceNumbers (sampleUplink)
open BuildEngine.Queue.Schema BuildEngine.Queue BuildEngine.Queue.Store BuildEngine.Queue.Outbox
open BuildEngine.Queue.Ops BuildEngine.Queue.Events BuildEngine.Queue.Replay
open BuildEngine.Queue.FrameIdentity (toJson_sorted)

/-! ### State -/

/-- The attempt and the number of an event. -/
abbrev Key : Type := Option PyStr × Option ℕ

/-- The attempt and the number an envelope carries. -/
def keyOf (e : Envelope) : Key := (e.attemptId, e.seq)

/-- The stored numbers. -/
def keys (db : Db) : List Key := db.events.rows.map fun f => (some f.attemptId, some f.seq)

/-- The uplink and its store, the events that were ever inserted, in order, the numbers that were removed without
an acknowledgement, the event frames that were ever sent, and those that coreapp has received. -/
structure State where
  uplink : Delivery.State
  appended : List Envelope
  pruned : List Key
  wire : List Envelope
  received : List Envelope

/-- A process just started. -/
def State.init : State := ⟨.init, [], [], [], []⟩

inductive Action where
  /-- A stretch of code of the engine. -/
  | engine (act : Delivery.Action)
  /-- The process dies in the `append` of a publish after `k + 1` of its writing statements, and is started again. -/
  | die (k : ℕ) (now timestamp : Instant) (messageId : PyStr) (clock : AppendClock)
  /-- A frame of the wire arrives, for the first time or again. -/
  | receive (k : ℕ)

/-! ### Steps -/

/-- coreapp has received every number of the attempt up to `n`. -/
def confirmed (s : State) (a : PyStr) (n : ℕ) : Bool :=
  (List.range n).all fun k => s.received.any fun x => keyOf x = (some a, some (k + 1))

/-- What coreapp acknowledges it has received. -/
def allowed (s : State) : Delivery.Action → Bool
  | .store (.ackThrough a n) => confirmed s a n
  | .welcome cursors => cursors.all fun c => confirmed s c.1 c.2
  | _ => true

/-- The action handles an `event.ack`. -/
def acks : Delivery.Action → Bool
  | .store (.ackThrough _ _) => true
  | _ => false

/-- What is recorded of a step of the engine: the events it appended and the frames it sent, and the numbers it
removed, if it handles no acknowledgement. -/
def State.after (s : State) (t : Delivery.State) (new sent : List Envelope) (acked : Bool) : State where
  uplink := t
  appended := s.appended ++ new
  pruned := s.pruned ++
    if acked then [] else (keys s.uplink.store.db ++ new.map keyOf).filter fun k => k ∉ keys t.store.db
  wire := s.wire ++ sent
  received := s.received

section Datetime
variable [PyDatetime] (cfg : UplinkConfig)

/-- What an action does. -/
def step (s : State) : Action → State
  | .engine act =>
    if allowed s act then
      let t := Delivery.step cfg s.uplink act
      s.after t (appendedBy s.uplink t) (sends s.uplink act) (acks act)
    else s
  | .die k now timestamp messageId clock =>
    let r := dieAppending cfg k now timestamp messageId clock s.uplink
    s.after r.2 r.1 [] false
  | .receive k =>
    match s.wire[k]? with
    | some e => { s with received := s.received ++ [e] }
    | none => s

/-! ### What is to hold -/

/-- The two frames carry the same event: they are one text. -/
structure Copy (x e : Envelope) : Prop where
  key : keyOf x = keyOf e
  text : x.toJson = e.toJson

/-- **No conflicting event**: the frames of the attempt that were sent under one number are one text. -/
def Consistent (a : PyStr) (s : State) : Prop :=
  ∀ x ∈ s.wire, ∀ y ∈ s.wire, x.attemptId = some a → keyOf x = keyOf y → x.toJson = y.toJson

/-- **No lost event**: an event of the attempt that was appended is stored, coreapp has received it, or it was
removed without an acknowledgement. -/
def NoneLost (a : PyStr) (s : State) : Prop :=
  ∀ e ∈ s.appended, e.attemptId = some a →
    (∃ f ∈ s.uplink.store.db.events.rows, Holds f e) ∨ (∃ x ∈ s.received, Copy x e) ∨ keyOf e ∈ s.pruned

/-- The process dies right after the `INSERT` of an event of the attempt, before the cursor is raised. -/
def Torn (a : PyStr) (s : State) : Action → Prop
  | .die 0 _ _ _ _ => ∃ p, s.uplink.publishing = some p ∧ p.call.attemptId = a
  | _ => False

/-- The action deletes the row of the attempt. -/
def DeletesRow (a : PyStr) (s : State) (act : Action) : Prop :=
  (s.uplink.store.db.job? a).isSome ∧ (step cfg s act).uplink.store.db.job? a = none

/-- Neither happens to the attempt. -/
def Sound (a : PyStr) (s : State) (act : Action) : Prop := ¬ Torn a s act ∧ ¬ DeletesRow cfg a s act

/-! ### The invariants -/

omit [PyDatetime] in
/-- The events of the attempt, in the order of their insertion. -/
def appendedOf (a : PyStr) (s : State) : List Envelope := s.appended.filter fun e => e.attemptId = some a

/-- The cursor of the attempt counts its events, and their numbers count from one. -/
structure NumberInv (a : PyStr) (s : State) : Prop where
  numbered : ∀ k e, (appendedOf a s)[k]? = some e → e.seq = some (k + 1)
  absent : s.uplink.store.db.job? a = none → appendedOf a s = []
  cursor : ∀ r, s.uplink.store.db.job? a = some r → r.sequenceCursor = (appendedOf a s).length
  given : ∀ n, Given s.uplink a n → n = (appendedOf a s).length + 1

/-- The envelope is a copy of an event that was appended. -/
def Known (s : State) (x : Envelope) : Prop := ∃ e ∈ s.appended, Copy x e

/-- What is stored, held, queued, sent or received was appended. -/
structure OriginInv (s : State) : Prop where
  sendable : ∀ e ∈ s.appended, Sendable e
  rows : ∀ f ∈ s.uplink.store.db.events.rows, ∃ e ∈ s.appended, Holds f e
  carried : ∀ e, Carries s.uplink e → e ∈ s.appended
  replay : ∀ c es, s.uplink.link = some c → c.phase = .replaying es → ∀ x ∈ es, Known s x
  wire : ∀ x ∈ s.wire, Known s x
  received : ∀ x ∈ s.received, x ∈ s.wire

/-- The number of an event of the attempt is stored or pruned, or coreapp has received it. -/
def Kept (a : PyStr) (s : State) : Prop :=
  ∀ e ∈ s.appended, e.attemptId = some a →
    keyOf e ∈ keys s.uplink.store.db ∨ (∃ x ∈ s.received, Copy x e) ∨ keyOf e ∈ s.pruned

/-- What holds of the exchange as to the events of an attempt. -/
structure Inv (a : PyStr) (s : State) : Prop where
  number : NumberInv a s
  origin : OriginInv s
  kept : Kept a s

omit [PyDatetime] in
theorem mem_appendedOf {a : PyStr} {s : State} {e : Envelope} :
    e ∈ appendedOf a s ↔ e ∈ s.appended ∧ e.attemptId = some a := by
  unfold appendedOf
  rw [List.mem_filter, decide_eq_true_eq]

omit [PyDatetime] in
theorem appendedOf_after (a : PyStr) (s : State) (t : Delivery.State) (new sent : List Envelope) (acked : Bool) :
    appendedOf a (s.after t new sent acked) = appendedOf a s ++ new.filter fun e => e.attemptId = some a :=
  List.filter_append _ _

omit [PyDatetime] in
/-- The position of an event of the attempt is its number. -/
theorem NumberInv.position {a : PyStr} {s : State} (h : NumberInv a s) {e : Envelope} (he : e ∈ s.appended)
    (ha : e.attemptId = some a) :
    ∃ k, (appendedOf a s)[k]? = some e ∧ k < (appendedOf a s).length ∧ e.seq = some (k + 1) := by
  obtain ⟨k, hk, hget⟩ := List.getElem_of_mem (mem_appendedOf.mpr ⟨he, ha⟩)
  have hk' : (appendedOf a s)[k]? = some e := by rw [List.getElem?_eq_getElem hk, hget]
  exact ⟨k, hk', hk, h.numbered k e hk'⟩

omit [PyDatetime] in
/-- Two events of the attempt with one number are the same. -/
theorem NumberInv.unique {a : PyStr} {s : State} (h : NumberInv a s) {e e' : Envelope} (he : e ∈ s.appended)
    (he' : e' ∈ s.appended) (ha : e.attemptId = some a) (hkey : keyOf e = keyOf e') : e = e' := by
  have ha' : e'.attemptId = some a := (congrArg Prod.fst hkey).symm.trans ha
  obtain ⟨k, hk, -, hn⟩ := h.position he ha
  obtain ⟨k', hk', -, hn'⟩ := h.position he' ha'
  have hseq : e.seq = e'.seq := congrArg Prod.snd hkey
  rw [hn, hn'] at hseq
  have heq : k = k' := by
    have := Option.some.inj hseq
    omega
  rw [heq, hk'] at hk
  exact (Option.some.inj hk).symm

/-! ### The numbers are kept -/

/-- A stored event of the attempt has one of its numbers. -/
theorem NumberInv.row_le {a : PyStr} {s : State} (h : NumberInv a s) (ho : OriginInv s) {f : EventRow}
    (hf : f ∈ s.uplink.store.db.events.rows) (ha : f.attemptId = a) : f.seq ≤ (appendedOf a s).length := by
  obtain ⟨e, he, hh⟩ := ho.rows f hf
  obtain ⟨k, -, hk, hn⟩ := h.position he (hh.attemptId.trans (congrArg some ha))
  have := Option.some.inj (hh.seq.symm.trans hn)
  omega

omit [PyDatetime] in
/-- Nothing of the attempt is appended, and its row is as it was. -/
theorem NumberInv.others {a : PyStr} {s : State} {t : Delivery.State} {new sent : List Envelope} {acked : Bool}
    (h : NumberInv a s) (hnew : ∀ e ∈ new, e.attemptId ≠ some a)
    (hjob : t.store.db.job? a = s.uplink.store.db.job? a ∨
      ∃ r r', s.uplink.store.db.job? a = some r ∧ t.store.db.job? a = some r' ∧
        r'.sequenceCursor = r.sequenceCursor)
    (hgiven : ∀ n, Given t a n → n = (appendedOf a s).length + 1) : NumberInv a (s.after t new sent acked) := by
  have happ : appendedOf a (s.after t new sent acked) = appendedOf a s := by
    have hnil : new.filter (fun e => e.attemptId = some a) = [] :=
      List.filter_eq_nil_iff.mpr fun e he => by simpa using hnew e he
    rw [appendedOf_after, hnil, List.append_nil]
  refine ⟨by rw [happ]; exact h.numbered, fun hnone => ?_, fun r hr => ?_, by rw [happ]; exact hgiven⟩
  · rw [happ]
    change t.store.db.job? a = none at hnone
    rcases hjob with hjob | ⟨_, _, -, hsome, -⟩
    · exact h.absent (hjob.symm.trans hnone)
    · rw [hsome] at hnone
      cases hnone
  · rw [happ]
    change t.store.db.job? a = some r at hr
    rcases hjob with hjob | ⟨r₀, r', hr₀, hr', hcursor⟩
    · exact h.cursor r (hjob.symm.trans hr)
    · cases hr'.symm.trans hr
      exact hcursor.trans (h.cursor r₀ hr₀)

omit [PyDatetime] in
/-- The next event of the attempt is inserted and its cursor raised. -/
theorem NumberInv.inserted {a : PyStr} {s : State} {t : Delivery.State} {sent : List Envelope} {acked : Bool}
    {db : Db} {f : EventRow} {e : Envelope} {now : Stamp} (h : NumberInv a s) (ha : f.attemptId = a)
    (hg : Given s.uplink a f.seq) (hh : Holds f e) (hi : s.uplink.store.db.insertEvent f = some db)
    (hdb : Pruned (raiseCursor f.attemptId f.seq now db) t.store.db) (hgiven : ∀ b m, ¬ Given t b m) :
    NumberInv a (s.after t [e] sent acked) := by
  subst ha
  have hn : f.seq = (appendedOf f.attemptId s).length + 1 := h.given _ hg
  have happ : appendedOf f.attemptId (s.after t [e] sent acked) = appendedOf f.attemptId s ++ [e] := by
    rw [appendedOf_after]
    simp [hh.attemptId]
  obtain ⟨r, hr⟩ := job?_of_insertEvent hi
  have hrow := job?_raised hi hdb f.attemptId
  rw [hr, Option.map_some, if_pos (Db.attemptId_of_job? hr)] at hrow
  refine ⟨fun k e' hk => ?_, fun hnone => ?_, fun r' hr' => ?_, fun n hn' => absurd hn' (hgiven _ _)⟩
  · rw [happ, List.getElem?_append] at hk
    split_ifs at hk with hlt
    · exact h.numbered k e' hk
    · rw [List.getElem?_singleton] at hk
      split_ifs at hk with hzero
      cases hk
      rw [hh.seq, hn]
      congr 1
      omega
  · rw [show t.store.db.job? f.attemptId = none from hnone] at hrow
    cases hrow
  · cases hrow.symm.trans hr'
    rw [happ, List.length_append, List.length_singleton]
    show max r.sequenceCursor f.seq = _
    have hcursor := h.cursor r hr
    omega

/-- The numbers of an attempt whose row is not deleted are kept. -/
theorem NumberInv.step {a : PyStr} {s : State} {t : Delivery.State} {new sent : List Envelope} {acked : Bool}
    (h : NumberInv a s) (ho : OriginInv s) (hview : View a s.uplink new t)
    (hkeep : ¬ ((s.uplink.store.db.job? a).isSome ∧ t.store.db.job? a = none)) :
    NumberInv a (s.after t new sent acked) := by
  have hnil : ∀ e ∈ ([] : List Envelope), e.attemptId ≠ some a := by simp
  cases hview with
  | quiet hdb hgiven =>
    exact h.others hnil (Or.inl (by rw [hdb])) fun n hn => h.given n (hgiven a n hn)
  | @others op _ hop hs hp =>
    have hrow := rowStep s.uplink.store op a
    rw [← hs] at hrow
    have hgiven : ∀ n, Given t a n → n = (appendedOf a s).length + 1 := by
      unfold Given
      rw [hp]
      exact h.given
    rcases hr : s.uplink.store.db.job? a with _ | r
    · have hempty := h.absent hr
      rcases hr' : t.store.db.job? a with _ | r'
      · exact h.others hnil (Or.inl (hr'.trans hr.symm)) hgiven
      · rw [hr, hr'] at hrow
        have happ : appendedOf a (s.after t [] sent acked) = [] := by
          rw [appendedOf_after, hempty]
          rfl
        refine ⟨by rw [happ]; simp, fun _ => happ, fun r₁ hr₁ => ?_, by rw [happ, ← hempty]; exact hgiven⟩
        rw [happ]
        cases hr'.symm.trans hr₁
        -- a new row counts no event
        cases hrow with
        | insert => rfl
    · rcases hr' : t.store.db.job? a with _ | r'
      · exact absurd ⟨by rw [hr]; rfl, hr'⟩ hkeep
      · rw [hr, hr'] at hrow
        exact h.others hnil (Or.inr ⟨r, r', hr, hr', SequenceNumbers.RowStep.cursor_eq hrow hop⟩) hgiven
  | @begin b n _ hn hdb hgiven =>
    refine h.others hnil (Or.inl (by rw [hdb])) fun m hm => ?_
    obtain ⟨rfl, rfl⟩ := hgiven a m hm
    unfold nextSeq at hn
    split at hn
    · cases hn
    · next r hr =>
      cases hn
      rw [h.cursor r hr]
  | @repeated b n f e _ hg hea _ _ hdb hf hgiven =>
    have hne : b ≠ a := by
      -- the number of a publish of the attempt is above those of its stored events
      rintro rfl
      obtain ⟨hm, hfa, hfn⟩ := mem_of_event? hf
      have hle := h.row_le ho hm hfa
      have hnext := h.given n hg
      omega
    refine h.others ?_ (Or.inl (by rw [hdb])) fun m hm => absurd hm (hgiven a m)
    intro x hx
    rw [List.mem_singleton.mp hx, hea]
    exact fun heq => hne (Option.some.inj heq)
  | @inserted f e db now _ hg _ hh hi hdb hgiven =>
    by_cases ha : f.attemptId = a
    · exact h.inserted ha (ha ▸ hg) hh hi hdb hgiven
    · refine h.others ?_ (Or.inl ?_) fun m hm => absurd hm (hgiven a m)
      · intro x hx
        rw [List.mem_singleton.mp hx, hh.attemptId]
        exact fun heq => ha (Option.some.inj heq)
      · rw [job?_raised hi hdb]
        rcases hr : s.uplink.store.db.job? a with _ | r
        · rfl
        · rw [Option.map_some, Db.attemptId_of_job? hr, if_neg (Ne.symm ha)]
  | @torn f e db _ hne hg _ hh hi hdb hgiven =>
    refine h.others ?_ (Or.inl (by rw [hdb]; exact Db.job?_insertEvent hi a)) fun m hm => absurd hm (hgiven a m)
    intro x hx
    rw [List.mem_singleton.mp hx, hh.attemptId]
    exact fun heq => hne (Option.some.inj heq)

/-! ### What is sent was appended -/

omit [PyDatetime] in
theorem Copy.refl (e : Envelope) : Copy e e := ⟨rfl, rfl⟩

omit [PyDatetime] in
/-- What is read back from the outbox is a copy of what was written. -/
theorem copy_sorted (e : Envelope) : Copy e.sorted e := ⟨rfl, toJson_sorted e⟩

omit [PyDatetime] in
theorem Known.after {s : State} {x : Envelope} (h : Known s x) (t : Delivery.State) (new sent : List Envelope)
    (acked : Bool) : Known (s.after t new sent acked) x := by
  obtain ⟨e, he, hcopy⟩ := h
  exact ⟨e, List.mem_append_left _ he, hcopy⟩

/-- The rows hold valid envelopes. -/
theorem OriginInv.valid {s : State} (h : OriginInv s) : RowsValid s.uplink.store.db := by
  intro f hf
  obtain ⟨e, he, hh⟩ := h.rows f hf
  exact ⟨e, (h.sendable e he).1, hh⟩

/-- What is read back from the outbox was appended. -/
theorem OriginInv.known_of_read {s : State} (h : OriginInv s) {x : Envelope} (hx : Read s.uplink.store.db x) :
    Known s x := by
  obtain ⟨clock, cursors, es, hes, hx⟩ := hx
  rw [replayAfter_of_valid h.valid] at hes
  cases hes
  obtain ⟨f, hf, hreplayed⟩ := List.mem_filterMap.mp hx
  obtain ⟨e, he, hh⟩ := h.rows f (mem_rowsAbove.mp hf).1
  have hsorted := ((replayed?_eq_some (h.sendable e he).1 hh x).mp hreplayed).2
  exact ⟨e, he, hsorted ▸ copy_sorted e⟩

theorem OriginInv.known_of_queued {s : State} (h : OriginInv s) {x : Envelope} (hx : Queued s.uplink x) :
    Known s x := by
  obtain ⟨c, es, hc, hphase, hx⟩ := hx
  exact h.replay c es hc hphase x hx

/-- A step of the engine: what is queued and sent afterwards was appended. -/
theorem OriginInv.after {a : PyStr} {s : State} {t : Delivery.State} {new sent : List Envelope} (h : OriginInv s)
    (hview : View a s.uplink new t) (hqueued : ∀ x, Queued t x → Known s x) (hsent : ∀ x ∈ sent, Known s x)
    (acked : Bool) : OriginInv (s.after t new sent acked) where
  sendable e he := by
    rcases List.mem_append.mp he with he | he
    · exact h.sendable e he
    · exact hview.sendable e he
  rows f hf := by
    rcases hview.rows hf with hold | ⟨e, he, hh⟩
    · obtain ⟨e, he, hh⟩ := h.rows f hold
      exact ⟨e, List.mem_append_left _ he, hh⟩
    · exact ⟨e, List.mem_append_right _ he, hh⟩
  carried e he := by
    rcases hview.carried he with he | he
    · exact List.mem_append_left _ (h.carried e he)
    · exact List.mem_append_right _ he
  replay c es hc hphase x hx := (hqueued x ⟨c, es, hc, hphase, hx⟩).after _ _ _ _
  wire x hx := by
    rcases List.mem_append.mp hx with hx | hx
    · exact (h.wire x hx).after _ _ _ _
    · exact (hsent x hx).after _ _ _ _
  received x hx := List.mem_append_left _ (h.received x hx)

/-! ### What is acknowledged was received -/

omit [PyDatetime] in
theorem confirmed_spec {s : State} {a : PyStr} {n : ℕ} (h : confirmed s a n = true) {k : ℕ} (hk : k < n) :
    ∃ x ∈ s.received, keyOf x = (some a, some (k + 1)) := by
  have hall := List.all_eq_true.mp h k (List.mem_range.mpr hk)
  obtain ⟨x, hx, heq⟩ := List.any_eq_true.mp hall
  exact ⟨x, hx, of_decide_eq_true heq⟩

omit [PyDatetime] in
theorem mem_keys {db : Db} {k : Key} :
    k ∈ keys db ↔ ∃ f ∈ db.events.rows, k = (some f.attemptId, some f.seq) := by
  unfold keys
  rw [List.mem_map]
  exact exists_congr fun f => and_congr_right fun _ => eq_comm

/-- What coreapp has received under the number of an event of the attempt is the event. -/
theorem Inv.received_copy {a : PyStr} {s : State} (h : Inv a s) {e x : Envelope} (he : e ∈ s.appended)
    (ha : e.attemptId = some a) (hx : x ∈ s.received) (hkey : keyOf x = keyOf e) : Copy x e := by
  obtain ⟨e', he', hcopy⟩ := h.origin.wire x (h.origin.received x hx)
  have heq : e = e' := h.number.unique he he' ha (hkey.symm.trans hcopy.key)
  rw [heq]
  exact hcopy

/-- The number of an event of the attempt that a confirmed acknowledgement removes was received. -/
theorem Inv.received_of_ack {a b : PyStr} {n : ℕ} {s : State} (h : Inv a s) {e : Envelope} (he : e ∈ s.appended)
    (ha : e.attemptId = some a) (hconf : confirmed s b n = true) (hstored : keyOf e ∈ keys s.uplink.store.db)
    (hgone : keyOf e ∉ keys (ackThrough b n s.uplink.store.db).2) : ∃ x ∈ s.received, Copy x e := by
  obtain ⟨f, hf, hkey⟩ := mem_keys.mp hstored
  have hdeleted : f.attemptId = b ∧ f.seq ≤ n := by
    by_contra hkept
    refine hgone (mem_keys.mpr ⟨f, ?_, hkey⟩)
    unfold ackThrough
    split_ifs
    · exact hf
    · exact mem_events_deleteEvents.mpr ⟨hf, by simpa using hkept⟩
  obtain ⟨k, -, -, hk⟩ := h.number.position he ha
  have hseq : f.seq = k + 1 := Option.some.inj ((congrArg Prod.snd hkey).symm.trans hk)
  obtain ⟨x, hx, hxkey⟩ := confirmed_spec hconf (show k < n by omega)
  refine ⟨x, hx, h.received_copy he ha hx ?_⟩
  rw [hxkey, hkey, hdeleted.1, hseq]

omit [PyDatetime] in
/-- The numbers after a step of the engine that handles no acknowledgement. -/
theorem Kept.after {a : PyStr} {s : State} (h : Kept a s) (t : Delivery.State) (new sent : List Envelope) :
    Kept a (s.after t new sent false) := by
  intro e he ha
  by_cases hstored : keyOf e ∈ keys t.store.db
  · exact Or.inl hstored
  · have hgone : keyOf e ∈ keys s.uplink.store.db ++ new.map keyOf →
        keyOf e ∈ (s.after t new sent false).pruned := fun hm =>
      List.mem_append_right _ (List.mem_filter.mpr ⟨hm, by simpa using hstored⟩)
    right
    rcases List.mem_append.mp he with he | he
    · rcases h e he ha with hkey | hreceived | hpruned
      · exact Or.inr (hgone (List.mem_append_left _ hkey))
      · exact Or.inl hreceived
      · exact Or.inr (List.mem_append_left _ hpruned)
    · exact Or.inr (hgone (List.mem_append_right _ (List.mem_map_of_mem he)))

/-! ### Whole runs -/

/-- What holds as to an attempt is kept by every action that neither tears one of its appends nor deletes its
row. -/
theorem Inv.step {a : PyStr} {s : State} (h : Inv a s) (act : Action) (hsound : Sound cfg a s act) :
    Inv a (step cfg s act) := by
  obtain ⟨htorn, hkeep⟩ := hsound
  unfold DeletesRow at hkeep
  cases act with
  | engine act =>
    simp only [Exchange.step] at hkeep ⊢
    split_ifs at hkeep ⊢ with hallowed
    · have hview := view_engine cfg a s.uplink act
      have hqueued : ∀ x, Queued (Delivery.step cfg s.uplink act) x → Known s x := fun x hx => by
        rcases queued_step cfg hx with hx | hx
        · exact h.origin.known_of_queued hx
        · exact h.origin.known_of_read hx
      have hsent : ∀ x ∈ sends s.uplink act, Known s x := fun x hx => by
        rcases mem_sends hx with hx | hx
        · exact ⟨x, h.origin.carried x hx, .refl x⟩
        · exact h.origin.known_of_queued hx
      refine ⟨h.number.step h.origin hview hkeep, h.origin.after hview hqueued hsent _, ?_⟩
      rcases hacks : acks act with _ | _
      · exact h.kept.after _ _ _
      · unfold acks at hacks
        split at hacks
        · next b n =>
          intro e he ha
          have hnone : appendedBy s.uplink (Delivery.step cfg s.uplink (.store (.ackThrough b n))) = [] :=
            appendedBy_same rfl
          have he : e ∈ s.appended := by
            rcases List.mem_append.mp he with he | he
            · exact he
            · rw [hnone] at he
              cases he
          by_cases hstored : keyOf e ∈ keys (ackThrough b n s.uplink.store.db).2
          · exact Or.inl hstored
          · right
            rcases h.kept e he ha with hkey | hreceived | hpruned
            · exact Or.inl (h.received_of_ack he ha hallowed hkey hstored)
            · exact Or.inl hreceived
            · exact Or.inr (List.mem_append_left _ hpruned)
        · cases hacks
    · exact h
  | die k now ts id clock =>
    have hsafe : k = 0 → ∀ p, s.uplink.publishing = some p → p.call.attemptId ≠ a := by
      rintro rfl p hp ha
      exact htorn ⟨p, hp, ha⟩
    have hview := view_dieAppending cfg now ts id clock hsafe
    have hqueued : ∀ x, Queued (dieAppending cfg k now ts id clock s.uplink).2 x → Known s x := by
      rintro x ⟨c, _, hc, -⟩
      unfold dieAppending at hc
      split at hc
      · split at hc
        · cases hc
        · split at hc <;> cases hc
      · cases hc
    exact ⟨h.number.step h.origin hview hkeep, h.origin.after hview hqueued (by simp) _, h.kept.after _ _ _⟩
  | receive k =>
    simp only [Exchange.step]
    split
    · next e he =>
      have hwire : e ∈ s.wire := List.mem_of_getElem? he
      refine ⟨⟨h.number.numbered, h.number.absent, h.number.cursor, h.number.given⟩,
        ⟨h.origin.sendable, h.origin.rows, h.origin.carried, h.origin.replay, h.origin.wire, ?_⟩, ?_⟩
      · intro x hx
        rcases List.mem_append.mp hx with hx | hx
        · exact h.origin.received x hx
        · rw [List.mem_singleton.mp hx]
          exact hwire
      · intro e' he' ha
        rcases h.kept e' he' ha with hkey | ⟨x, hx, hcopy⟩ | hpruned
        · exact Or.inl hkey
        · exact Or.inr (Or.inl ⟨x, List.mem_append_left _ hx, hcopy⟩)
        · exact Or.inr (Or.inr hpruned)
    · exact h

theorem inv_init (a : PyStr) : Inv a State.init where
  number := ⟨by simp [appendedOf, State.init], fun _ => rfl,
    by simp [State.init, Delivery.State.init, Store.empty], fun n hn => absurd hn (not_given_of_none rfl a n)⟩
  origin := ⟨by simp [State.init], by simp [State.init, Delivery.State.init, Store.empty, Db.empty, Table.empty],
    fun e he => absurd he (not_carries_of_none rfl e), by simp [State.init, Delivery.State.init],
    by simp [State.init], by simp [State.init]⟩
  kept := by simp [Kept, State.init]

/-- What the invariant says of the frames that were sent. -/
theorem Inv.consistent {a : PyStr} {s : State} (h : Inv a s) : Consistent a s := by
  intro x hx y hy ha hkey
  obtain ⟨e, he, hcopy⟩ := h.origin.wire x hx
  obtain ⟨e', he', hcopy'⟩ := h.origin.wire y hy
  have hea : e.attemptId = some a := (congrArg Prod.fst hcopy.key).symm.trans ha
  have heq : e = e' := h.number.unique he he' hea (hcopy.key.symm.trans (hkey.trans hcopy'.key))
  rw [hcopy.text, hcopy'.text, heq]

/-- The row under the number of an event of the attempt holds the event. -/
theorem Inv.noneLost {a : PyStr} {s : State} (h : Inv a s) : NoneLost a s := by
  intro e he ha
  rcases h.kept e he ha with hkey | hrest
  · obtain ⟨f, hf, hkey⟩ := mem_keys.mp hkey
    obtain ⟨e', he', hh⟩ := h.origin.rows f hf
    have hkey' : keyOf e' = (some f.attemptId, some f.seq) := Prod.ext hh.attemptId hh.seq
    have heq : e = e' := h.number.unique he he' ha (hkey.trans hkey'.symm)
    exact Or.inl ⟨f, hf, heq ▸ hh⟩
  · exact Or.inr hrest

/-- **A number names one event.** In every run of the engine, its restarts and its deaths inside `append`, the
network and coreapp in which no append of an attempt is cut right after its `INSERT` and the row of the attempt is
not deleted, all frames of the attempt that were ever sent under one number are one text, and every event of the
attempt that was appended is stored, was received by coreapp, or was removed without an acknowledgement. -/
theorem exchange_consistent (a : PyStr) (acts : List Action)
    (hsound : Along (step cfg) (Sound cfg a) State.init acts) :
    Consistent a (run (step cfg) State.init acts) ∧ NoneLost a (run (step cfg) State.init acts) := by
  have h : Inv a (run (step cfg) State.init acts) :=
    Along.invariant (I := Inv a) (fun s act hC hI => hI.step cfg act hC) acts hsound (inv_init a)
  exact ⟨h.consistent, h.noneLost⟩

/-! ### A connection whose frames have arrived -/

/-- A `send` that fails was started on the connection that is open, if one is. -/
def FailsCurrent (s : State) : Action → Prop
  | .engine act => Delivery.FailsCurrent s.uplink act
  | _ => True

omit [PyDatetime] in
/-- The cursors the phase still has to hand on. -/
def cursorsOf : Phase → List (PyStr × ℕ)
  | .welcomed cursors | .greeted cursors => cursors
  | _ => []

/-- The welcome of the connection named the cursor. -/
def Welcomed (c : Link) (p : PyStr × ℕ) : Prop :=
  p ∈ cursorsOf c.phase ∨ ∃ cursors clock, c.replayed = some (cursors, clock) ∧ p ∈ cursors

/-- What holds of the open connection. -/
structure LinkInv (s : State) : Prop where
  delivery : Delivery.Inv s.uplink
  welcomed : ∀ c, s.uplink.link = some c → ∀ p, Welcomed c p → confirmed s p.1 p.2 = true

omit [PyDatetime] in
/-- What coreapp has received it has received later on too. -/
theorem confirmed_mono {s t : State} (hsub : ∀ x ∈ s.received, x ∈ t.received) {a : PyStr} {n : ℕ}
    (h : confirmed s a n = true) : confirmed t a n = true := by
  refine List.all_eq_true.mpr fun k hk => List.any_eq_true.mpr ?_
  obtain ⟨x, hx, hkey⟩ := confirmed_spec h (List.mem_range.mp hk)
  exact ⟨x, hsub x hx, decide_eq_true hkey⟩

/-- A cursor of the open connection was one before, or its welcome has just arrived. -/
theorem welcomed_step {s : Delivery.State} {act : Delivery.Action} {d : Link} {p : PyStr × ℕ}
    (hd : (Delivery.step cfg s act).link = some d) (h : Welcomed d p) :
    (∃ c, s.link = some c ∧ Welcomed c p) ∨ ∃ cursors, act = .welcome cursors ∧ p ∈ cursors := by
  have hlink := link_step cfg s act
  rw [hd] at hlink
  unfold Welcomed at h
  cases hlink with
  | opened =>
    rcases h with h | ⟨_, _, h, -⟩
    · cases h
    · cases h
  | @kept c _ hc hp hr =>
    rw [hp, hr] at h
    exact Or.inl ⟨c, hc, h⟩
  | @welcomed c _ cursors hc hact hp hr =>
    rw [hp, hr] at h
    rcases h with h | h
    · exact Or.inr ⟨cursors, hact, h⟩
    · exact Or.inl ⟨c, hc, Or.inr h⟩
  | @greeted c _ cursors hc hold hp hr =>
    rw [hp, hr] at h
    refine Or.inl ⟨c, hc, ?_⟩
    unfold Welcomed
    rw [hold]
    exact h
  | @queried c _ cursors clock es hc hold _ hp hr =>
    rw [hp, hr] at h
    refine Or.inl ⟨c, hc, Or.inl ?_⟩
    rw [hold]
    rcases h with h | ⟨_, _, ⟨⟩, h⟩
    · cases h
    · exact h
  | @advanced c _ e rest hc _ hp hr =>
    rw [hp, hr] at h
    rcases h with h | h
    · cases h
    · exact Or.inl ⟨c, hc, Or.inr h⟩
  | @finished c _ hc hp hr =>
    rw [hp, hr] at h
    rcases h with h | h
    · cases h
    · exact Or.inl ⟨c, hc, Or.inr h⟩

theorem LinkInv.step {a : PyStr} {s : State} (h : LinkInv s) (hinv : Inv a s) (act : Action)
    (hsound : Sound cfg a s act) (hcur : FailsCurrent s act) : LinkInv (step cfg s act) := by
  have hnext := hinv.step cfg act hsound
  cases act with
  | engine act =>
    simp only [Exchange.step] at hnext ⊢
    split_ifs with hallowed
    · refine ⟨Delivery.Inv.step cfg h.delivery act hcur, fun d hd p hp => ?_⟩
      have hconf : confirmed s p.1 p.2 = true := by
        rcases welcomed_step cfg hd hp with ⟨c, hc, hp⟩ | ⟨cursors, rfl, hp⟩
        · exact h.welcomed c hc p hp
        · exact List.all_eq_true.mp hallowed p hp
      exact confirmed_mono (fun x hx => hx) hconf
    · exact h
  | die k now ts id clock =>
    have hnone := link_dieAppending cfg k now ts id clock s.uplink
    refine ⟨⟨fun f hf => ?_, fun c hc => ?_⟩, fun c hc => ?_⟩
    · obtain ⟨e, he, hh⟩ := hnext.origin.rows f hf
      obtain ⟨hv, htype⟩ := hnext.origin.sendable e he
      exact ⟨e, hv, hh, htype⟩
    · cases hnone.symm.trans hc
    · cases hnone.symm.trans hc
  | receive k =>
    simp only [Exchange.step]
    split
    · exact ⟨h.delivery, fun c hc p hp =>
        confirmed_mono (fun x hx => List.mem_append_left _ hx) (h.welcomed c hc p hp)⟩
    · exact h

theorem linkInv_init : LinkInv State.init :=
  ⟨Delivery.inv_init, by simp [State.init, Delivery.State.init]⟩

omit [PyDatetime] in
/-- The cursor of an attempt is zero, or the list names it. -/
theorem cursor_cases (cursors : List (PyStr × ℕ)) (a : PyStr) :
    cursor cursors a = 0 ∨ (a, cursor cursors a) ∈ cursors := by
  unfold cursor
  generalize h : cursors.find? (fun c => decide (c.1 = a)) = found
  rcases found with _ | c
  · exact Or.inl rfl
  · have ha : c.1 = a := by simpa using List.find?_some h
    right
    rw [Option.map_some, Option.getD_some, ← ha]
    exact List.mem_of_find?_eq_some h

/-- **The connection has caught up**: no `send` on it has failed, its replay is over and could decode every stored
event of the attempt, no publish is between its append and its `send` on it, and under the number of every event
frame it sent one has arrived. -/
def CaughtUp (a : PyStr) (s : State) : Prop :=
  ∃ c cursors clock, s.uplink.link = some c ∧ c.failed = false ∧ c.phase = .live ∧
    c.replayed = some (cursors, clock) ∧ (∀ p, s.uplink.publishing = some p → ¬ Underway c p) ∧
    (∀ f ∈ s.uplink.store.db.events.rows, f.attemptId = a → ∀ e, Valid e → Holds f e → Fresh (clock f) e) ∧
    ∀ e, .event e ∈ c.sent → ∃ x ∈ s.received, keyOf x = keyOf e

/-- A stored event of the attempt was received by then. -/
theorem LinkInv.received_of_stored {a : PyStr} {s : State} (h : LinkInv s) (hup : CaughtUp a s) {f : EventRow}
    (hf : f ∈ s.uplink.store.db.events.rows) (ha : f.attemptId = a) (hpos : 0 < f.seq) :
    ∃ x ∈ s.received, keyOf x = (some a, some f.seq) := by
  obtain ⟨c, cursors, clock, hc, hfailed, hlive, hr, hidle, hfresh, harrived⟩ := hup
  by_cases hcursor : cursor cursors f.attemptId < f.seq
  · have hdue : Due cursors clock f := ⟨hcursor, hfresh f hf ha⟩
    obtain ⟨e, he, hea, hen⟩ := h.delivery.delivered c hc hfailed hlive hidle cursors clock hr f hf hdue
    obtain ⟨x, hx, hkey⟩ := harrived e he
    exact ⟨x, hx, hkey.trans (Prod.ext (hea.trans (congrArg some ha)) hen)⟩
  · -- the welcome has confirmed the number
    rcases cursor_cases cursors f.attemptId with hzero | hmem
    · omega
    · have hconf := h.welcomed c hc _ (Or.inr ⟨cursors, clock, hr, hmem⟩)
      obtain ⟨x, hx, hkey⟩ := confirmed_spec hconf (show f.seq - 1 < cursor cursors f.attemptId by omega)
      refine ⟨x, hx, hkey.trans ?_⟩
      rw [ha, show f.seq - 1 + 1 = f.seq by omega]

/-- **Exactly the numbers given.** In every run in which no append of an attempt is cut right after its `INSERT`,
its row is not deleted, and a `send` that fails while a connection is open was started on that connection, if a
connection has caught up and no event of the attempt was removed without an acknowledgement, coreapp has received
an event of the attempt under a number exactly if the number counts from one to the cursor of the attempt. -/
theorem exchange_complete (a : PyStr) (acts : List Action) (r : JobRow)
    (hsound : Along (step cfg) (fun s act => Sound cfg a s act ∧ FailsCurrent s act) State.init acts)
    (hup : CaughtUp a (run (step cfg) State.init acts))
    (hpruned : ∀ k ∈ (run (step cfg) State.init acts).pruned, k.1 ≠ some a)
    (hr : (run (step cfg) State.init acts).uplink.store.db.job? a = some r) (n : ℕ) :
    (∃ x ∈ (run (step cfg) State.init acts).received, keyOf x = (some a, some n)) ↔
      1 ≤ n ∧ n ≤ r.sequenceCursor := by
  obtain ⟨h, hlink⟩ : Inv a (run (step cfg) State.init acts) ∧ LinkInv (run (step cfg) State.init acts) :=
    Along.invariant (I := fun s => Inv a s ∧ LinkInv s)
      (fun s act hC hI => ⟨hI.1.step cfg act hC.1, hI.2.step cfg hI.1 act hC.1 hC.2⟩) acts hsound
      ⟨inv_init a, linkInv_init⟩
  generalize run (step cfg) State.init acts = s at h hlink hup hpruned hr ⊢
  have hcursor := h.number.cursor r hr
  constructor
  · rintro ⟨x, hx, hkey⟩
    obtain ⟨e, he, hcopy⟩ := h.origin.wire x (h.origin.received x hx)
    have hkey' := hcopy.key.symm.trans hkey
    obtain ⟨k, -, hk, hn⟩ := h.number.position he (congrArg Prod.fst hkey')
    have hseq := Option.some.inj (hn.symm.trans (congrArg Prod.snd hkey'))
    omega
  · rintro ⟨hpos, hle⟩
    have hlt : n - 1 < (appendedOf a s).length := by omega
    obtain ⟨he, ha⟩ := mem_appendedOf.mp (List.getElem_mem hlt)
    have hn := h.number.numbered (n - 1) _ (List.getElem?_eq_getElem hlt)
    rw [show n - 1 + 1 = n by omega] at hn
    have hkey : keyOf (appendedOf a s)[n - 1] = (some a, some n) := Prod.ext ha hn
    rcases h.kept _ he ha with hstored | ⟨x, hx, hcopy⟩ | hgone
    · obtain ⟨f, hf, hfkey⟩ := mem_keys.mp hstored
      have heq := hkey.symm.trans hfkey
      have hfa : f.attemptId = a := (Option.some.inj (congrArg Prod.fst heq)).symm
      have hfn : f.seq = n := (Option.some.inj (congrArg Prod.snd heq)).symm
      rw [← hfn]
      exact hlink.received_of_stored hup hf hfa (by omega)
    · exact ⟨x, hx, hcopy.key.trans hkey⟩
    · exact absurd ha (hpruned _ hgone)

/-! ### Runs without a deletion -/

/-- The action is no `prune_terminal`, no `send` that fails and no death right after an `INSERT`. -/
def calm : Action → Bool
  | .engine (.store (.pruneTerminal _ _)) => false
  | .engine (.publishReturn false) => false
  | .die 0 _ _ _ _ => false
  | _ => true

/-- Such an action is sound for every attempt. -/
theorem sound_of_calm {a : PyStr} {s : State} {act : Action} (h : calm act = true) : Sound cfg a s act := by
  constructor
  · unfold Torn
    split
    · cases h
    · exact id
  · rintro ⟨hsome, hnone⟩
    cases act with
    | engine act =>
      simp only [Exchange.step] at hnone
      split_ifs at hnone
      · have hkept : ((Delivery.step cfg s.uplink act).store.db.job? a).isSome :=
          isSome_engine cfg hsome (by rintro now days rfl; cases h)
        rw [show (Delivery.step cfg s.uplink act).store.db.job? a = none from hnone] at hkept
        cases hkept
      · rw [hnone] at hsome
        cases hsome
    | die k now ts id clock =>
      have hkept := isSome_dieAppending cfg hsome k now ts id clock
      rw [show (dieAppending cfg k now ts id clock s.uplink).2.store.db.job? a = none from hnone] at hkept
      cases hkept
    | receive k =>
      simp only [Exchange.step] at hnone
      split at hnone <;> · rw [hnone] at hsome; cases hsome

omit [PyDatetime] in
theorem current_of_calm {s : State} {act : Action} (h : calm act = true) : FailsCurrent s act := by
  cases act with
  | engine act =>
    cases act with
    | publishReturn delivered =>
      rcases delivered with _ | _
      · cases h
      · trivial
    | _ => trivial
  | _ => trivial

/-- A run of such actions meets the conditions for every attempt. -/
theorem along_of_calm {a : PyStr} {acts : List Action} (h : acts.all calm = true) (s : State) :
    Along (step cfg) (fun s act => Sound cfg a s act ∧ FailsCurrent s act) s acts := by
  induction acts generalizing s with
  | nil => trivial
  | cons act acts ih =>
    rw [List.all_cons, Bool.and_eq_true] at h
    exact ⟨⟨sound_of_calm cfg h.1, current_of_calm h.1⟩, ih h.2 _⟩

end Datetime

/-! ### A run -/

/-- The first event of the sample attempt is published and received. The process dies in the append of the second,
with the cursor raised, and a connection with the cursors replays what is stored. -/
def exchangeActs (cursors : List (PyStr × ℕ)) : List Action :=
  .engine (.store (.enqueue 0 samplePayload)) :: (connectActs 1000000 ++
    publishActs 2000000 (py "00000000-0000-4000-8000-000000000001") ++
    [Delivery.Action.publishReturn true]).map .engine ++
    [.receive 0, .engine (.publishBegin sampleEventCall),
      .die 1 3000000 3000000 (py "00000000-0000-4000-8000-000000000002") ⟨3000000, 3000000, 3000000⟩,
      .engine .connect, .engine (.welcome cursors), .engine .hello, .engine (.queryReplay fun _ => 4000000),
      .engine .replayNext, .engine .replayNext, .engine .replayNext, .receive 1, .receive 2]

/-- The state after the run. -/
def exchangeState (cursors : List (PyStr × ℕ)) : State :=
  run (@step firstDay sampleUplink) State.init (exchangeActs cursors)

theorem exchangeActs_along (cursors : List (PyStr × ℕ)) :
    Along (@step firstDay sampleUplink)
      (fun s act => @Sound firstDay sampleUplink sampleAttempt s act ∧ FailsCurrent s act) State.init
      (exchangeActs cursors) :=
  @along_of_calm firstDay sampleUplink sampleAttempt _ rfl State.init

/-- Without cursors the first event is sent twice. -/
theorem exchangeState_wire : (exchangeState []).wire.map keyOf =
    [(some sampleAttempt, some 1), (some sampleAttempt, some 1), (some sampleAttempt, some 2)] := by
  decide +kernel

theorem exchange_consistent_replayed :
    (exchangeState []).wire.map keyOf =
      [(some sampleAttempt, some 1), (some sampleAttempt, some 1), (some sampleAttempt, some 2)] ∧
    Consistent sampleAttempt (exchangeState []) ∧ NoneLost sampleAttempt (exchangeState []) :=
  ⟨exchangeState_wire,
    @exchange_consistent firstDay sampleUplink sampleAttempt (exchangeActs [])
      ((exchangeActs_along []).imp fun _ _ h => h.1)⟩

/-- What can be seen of the open connection: whether a `send` on it failed, its replay is over, no publish holds the
lock, the replay could decode every row, and the frames it sent have arrived. -/
def overview (s : State) : Option (Bool × Bool × Bool × Bool × Bool) :=
  s.uplink.link.bind fun c => c.replayed.map fun r =>
    (c.failed, WireOrder.isLive c.phase, s.uplink.publishing.isNone,
      s.uplink.store.db.events.rows.all fun f => (@replayed? firstDay r.2 f).isSome,
      c.sent.all fun x => match x with
        | .event e => s.received.any fun y => keyOf y = keyOf e
        | _ => true)

theorem exchangeState_overview :
    overview (exchangeState [(sampleAttempt, 1)]) = some (false, true, true, true, true) ∧
    (exchangeState [(sampleAttempt, 1)]).pruned = [] ∧
    ((exchangeState [(sampleAttempt, 1)]).uplink.store.db.job? sampleAttempt).map JobRow.sequenceCursor = some 2 := by
  decide +kernel

theorem caughtUp_of_overview {s : State} (h : overview s = some (false, true, true, true, true)) (a : PyStr) :
    @CaughtUp firstDay a s := by
  let _ := firstDay
  obtain ⟨c, hc, h⟩ := Option.bind_eq_some_iff.mp h
  obtain ⟨⟨cursors, clock⟩, hr, heq⟩ := Option.map_eq_some_iff.mp h
  simp only [Prod.mk.injEq] at heq
  obtain ⟨hfailed, hlive, hidle, hrows, hsent⟩ := heq
  have hnone : s.uplink.publishing = none := Option.isNone_iff_eq_none.mp hidle
  refine ⟨c, cursors, clock, hc, hfailed, live_of_isLive hlive, hr, fun p hp => ?_, fun f hf _ e hv hh => ?_,
    fun e he => ?_⟩
  · cases hnone.symm.trans hp
  · obtain ⟨x, hx⟩ := Option.isSome_iff_exists.mp (List.all_eq_true.mp hrows f hf)
    exact ((replayed?_eq_some hv hh x).mp hx).1.2
  · obtain ⟨y, hy, hkey⟩ := List.any_eq_true.mp (List.all_eq_true.mp hsent _ he)
    exact ⟨y, hy, of_decide_eq_true hkey⟩

theorem exchange_complete_caughtUp :
    ((exchangeState [(sampleAttempt, 1)]).uplink.store.db.job? sampleAttempt).map JobRow.sequenceCursor = some 2 ∧
    ∀ n, (∃ x ∈ (exchangeState [(sampleAttempt, 1)]).received, keyOf x = (some sampleAttempt, some n)) ↔
      1 ≤ n ∧ n ≤ 2 := by
  obtain ⟨hover, hpruned, hcursor⟩ := exchangeState_overview
  refine ⟨hcursor, fun n => ?_⟩
  obtain ⟨r, hr, hr2⟩ := Option.map_eq_some_iff.mp hcursor
  have hup := caughtUp_of_overview hover sampleAttempt
  have hcalm := exchangeActs_along [(sampleAttempt, 1)]
  rw [← hr2]
  unfold exchangeState at *
  generalize exchangeActs [(sampleAttempt, 1)] = acts at *
  exact @exchange_complete firstDay sampleUplink sampleAttempt acts r hcalm hup (by rw [hpruned]; simp) hr n

end BuildEngine.Agent.Exchange
