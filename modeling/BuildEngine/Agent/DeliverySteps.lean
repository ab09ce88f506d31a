import BuildEngine.Agent.Delivery

/-! # What the steps of the delivery machine do

What one action of `Delivery` does, said once: to the database and to the publish (`View`, `view_engine`), and to
the open connection (`LinkView`, `link_step`). The process may also die inside the `append` of a publish
(`dieAppending`), which leaves one of the durable states of the call behind. Only `prune_terminal` deletes the row
of a job (`isSome_engine`). -/

namespace BuildEngine.Agent.DeliverySteps

open BuildEngine.Base BuildEngine.Agent.Protocol
open BuildEngine.Agent.Uplink hiding State Action step publishBegin publishAppend
open BuildEngine.Agent.Delivery hiding State Action step Inv
open BuildEngine.Agent.SequenceNumbers (mem_events_of_others)
open BuildEngine.Queue.Schema BuildEngine.Queue BuildEngine.Queue.Store BuildEngine.Queue.Outbox
open BuildEngine.Queue.Ops BuildEngine.Queue.Events BuildEngine.Queue.Replay
open BuildEngine.Queue.AppendAtomicity (appendPath)

/-! ### What a step appends and sends -/

/-- The event an action has appended. -/
def appendedBy (s t : Delivery.State) : List Envelope :=
  match s.publishing, t.publishing with
  | some ⟨_, .numbered _⟩, some ⟨_, .appended e⟩ => [e]
  | _, _ => []

/-- The event frame `send` is called with. -/
def sends (s : Delivery.State) : Delivery.Action → List Envelope
  | .publishSend =>
    match s.publishing, s.ws with
    | some ⟨_, .appended e⟩, some _ => [e]
    | _, _ => []
  | .replayNext =>
    match s.link with
    | none => []
    | some c =>
      match c.phase with
      | .replaying (e :: _) => [e]
      | _ => []
  | _ => []

/-- The process is started again on the database. -/
def restarted (s : Delivery.State) (db : Db) : Delivery.State :=
  { Delivery.State.init with store := { s.store with db := db }.restart, opened := s.opened }

section Datetime
variable [PyDatetime] (cfg : UplinkConfig)

/-- The process dies in an `append`: the event, if its `INSERT` was executed, and the uplink after the start. -/
def dieAppending (k : ℕ) (now timestamp : Instant) (messageId : PyStr) (clock : AppendClock) (s : Delivery.State) :
    List Envelope × Delivery.State :=
  match s.publishing with
  | some ⟨call, .numbered seq⟩ =>
    match newEnvelope now timestamp messageId call.type call.payload cfg.engineId (some call.buildJobId)
        (some call.attemptId) (some seq) with
    | .error _ => ([], restarted s s.store.db)
    | .ok e =>
      match (appendPath cfg.outbox clock e s.store.db)[k + 1]? with
      | none => ([], restarted s s.store.db)
      | some db => ([e], restarted s db)
  | _ => ([], restarted s s.store.db)

/-! ### The database and the publish -/

/-- The publish holds the appended event. -/
def Carries (s : Delivery.State) (e : Envelope) : Prop :=
  ∃ p, s.publishing = some p ∧ (p.stage = .appended e ∨ ∃ k, p.stage = .sending e k)

/-- The publish of the attempt has its number and has not appended yet. -/
def Given (s : Delivery.State) (a : PyStr) (n : ℕ) : Prop :=
  ∃ p, s.publishing = some p ∧ p.stage = .numbered n ∧ p.call.attemptId = a

/-- The envelope can be sent and stored. -/
def Sendable (e : Envelope) : Prop := Valid e ∧ e.type ∈ outboundMessageTypes

/-- What a step does to the database and to the publish, with the events it appends; no event of the attempt `a` is
torn. -/
inductive View (a : PyStr) (s : Delivery.State) : List Envelope → Delivery.State → Prop where
  /-- The database is as it was; no number is given and no event appended. -/
  | quiet {t : Delivery.State} (hdb : t.store.db = s.store.db) (hgiven : ∀ b n, Given t b n → Given s b n)
      (hcarries : ∀ e, Carries t e → Carries s e) : View a s [] t
  /-- A store call of another task. -/
  | others {op : Op} {t : Delivery.State} (hop : ofOthers op = true) (hs : t.store = apply s.store op)
      (hp : t.publishing = s.publishing) : View a s [] t
  /-- A publish gets its number. -/
  | begin {b : PyStr} {n : ℕ} {t : Delivery.State} (hn : nextSeq b s.store.db = .ok n)
      (hdb : t.store.db = s.store.db) (hgiven : ∀ c m, Given t c m → c = b ∧ m = n)
      (hcarries : ∀ e, ¬ Carries t e) : View a s [] t
  /-- The event was there already. -/
  | repeated {b : PyStr} {n : ℕ} {f : EventRow} {e : Envelope} {t : Delivery.State} (hg : Given s b n)
      (ha : e.attemptId = some b) (hn : e.seq = some n) (he : Sendable e) (hdb : t.store.db = s.store.db)
      (hf : s.store.db.event? b n = some f) (hgiven : ∀ c m, ¬ Given t c m)
      (hcarries : ∀ x, Carries t x → x = e) : View a s [e] t
  /-- The event is inserted and the cursor raised. -/
  | inserted {f : EventRow} {e : Envelope} {db : Db} {now : Stamp} {t : Delivery.State}
      (hg : Given s f.attemptId f.seq) (he : Sendable e) (hh : Holds f e) (hi : s.store.db.insertEvent f = some db)
      (hdb : Pruned (raiseCursor f.attemptId f.seq now db) t.store.db) (hgiven : ∀ b m, ¬ Given t b m)
      (hcarries : ∀ x, Carries t x → x = e) : View a s [e] t
  /-- The event is inserted, and the process has died. -/
  | torn {f : EventRow} {e : Envelope} {db : Db} {t : Delivery.State} (hne : f.attemptId ≠ a)
      (hg : Given s f.attemptId f.seq) (he : Sendable e) (hh : Holds f e) (hi : s.store.db.insertEvent f = some db) (hdb : t.store.db = db)
      (hgiven : ∀ b m, ¬ Given t b m) (hcarries : ∀ x, ¬ Carries t x) : View a s [e] t

omit [PyDatetime] in
theorem not_given_of_stage {s : Delivery.State} {p : Publishing} (hp : s.publishing = some p)
    (hstage : ∀ n, p.stage ≠ .numbered n) (a : PyStr) (n : ℕ) : ¬ Given s a n := by
  rintro ⟨q, hq, hn, -⟩
  cases hp.symm.trans hq
  exact hstage n hn

omit [PyDatetime] in
theorem not_given_of_none {s : Delivery.State} (hp : s.publishing = none) (a : PyStr) (n : ℕ) : ¬ Given s a n := by
  rintro ⟨q, hq, -⟩
  cases hp.symm.trans hq

omit [PyDatetime] in
theorem not_carries_of_none {s : Delivery.State} (hp : s.publishing = none) (e : Envelope) : ¬ Carries s e := by
  rintro ⟨q, hq, -⟩
  cases hp.symm.trans hq

/-- A publish that ends, on the same database. -/
theorem View.ended {a : PyStr} {s t : Delivery.State} (hdb : t.store.db = s.store.db) (hp : t.publishing = none) :
    View a s [] t :=
  .quiet hdb (fun _ _ h => absurd h (not_given_of_none hp _ _)) fun _ h => absurd h (not_carries_of_none hp _)

/-- A step that leaves the publish alone. -/
theorem View.same {a : PyStr} {s t : Delivery.State} (hdb : t.store.db = s.store.db) (hp : t.publishing = s.publishing) :
    View a s [] t := by
  refine .quiet hdb (fun b n => ?_) fun e => ?_
  · unfold Given
    rw [hp]
    exact id
  · unfold Carries
    rw [hp]
    exact id

/-- The envelope of a publish can be sent and stored under its number. -/
theorem sendable_of_newEnvelope {now ts : Instant} {id : PyStr} {call : EventCall} {n : ℕ} {e : Envelope}
    (he : newEnvelope now ts id call.type call.payload cfg.engineId (some call.buildJobId) (some call.attemptId)
      (some n) = .ok e) (hn : n < maxSqliteInt) : Sendable e := by
  refine ⟨valid_of_newEnvelope he (hn.trans (by unfold maxSqliteInt; norm_num)) call.wf, ?_⟩
  rw [(of_newEnvelope he).1]
  exact call.outbound

omit [PyDatetime] in
/-- An event is appended by a publish that had its number. -/
theorem appendedBy_eq_nil {s t : Delivery.State} (h : ∀ a n, ¬ Given s a n) : appendedBy s t = [] := by
  unfold appendedBy
  split
  · next call n _ e hs _ => exact absurd ⟨_, hs, rfl, rfl⟩ (h call.attemptId n)
  · rfl

omit [PyDatetime] in
theorem appendedBy_of_none {s t : Delivery.State} (h : t.publishing = none) : appendedBy s t = [] := by
  unfold appendedBy
  rw [h]
  split
  · next ht => cases ht
  · rfl

omit [PyDatetime] in
theorem appendedBy_same {s t : Delivery.State} (h : t.publishing = s.publishing) : appendedBy s t = [] := by
  unfold appendedBy
  rw [h]
  split
  · next hs ht => cases hs.symm.trans ht
  · rfl

/-- A publish that ends before it appends. -/
theorem view_ended {a : PyStr} {s t : Delivery.State} (hdb : t.store.db = s.store.db) (hp : t.publishing = none) :
    View a s (appendedBy s t) t := by
  rw [appendedBy_of_none hp]
  exact .ended hdb hp

/-- A step that leaves the database and the publish alone. -/
theorem view_same {a : PyStr} {s t : Delivery.State} (hdb : t.store.db = s.store.db) (hp : t.publishing = s.publishing) :
    View a s (appendedBy s t) t := by
  rw [appendedBy_same hp]
  exact .same hdb hp

/-! ### Publishing -/

theorem view_publishBegin (a : PyStr) (call : EventCall) (s : Delivery.State) :
    View a s (appendedBy s (publishBegin call s)) (publishBegin call s) := by
  unfold publishBegin
  split
  · exact view_same rfl rfl
  · next hnone =>
    rw [appendedBy_eq_nil (not_given_of_none hnone)]
    split
    · exact .same rfl rfl
    · next n hn =>
      refine .begin hn rfl ?_ ?_
      · rintro b m ⟨_, ⟨⟩, ⟨⟩, rfl⟩
        exact ⟨rfl, rfl⟩
      · rintro e ⟨_, ⟨⟩, h | ⟨k, h⟩⟩ <;> cases h

theorem view_publishAppend (a : PyStr) (now ts : Instant) (id : PyStr) (clock : AppendClock) (s : Delivery.State) :
    View a s (appendedBy s (publishAppend cfg now ts id clock s)) (publishAppend cfg now ts id clock s) := by
  unfold publishAppend
  split
  · next call n hp =>
    have hg : Given s call.attemptId n := ⟨_, hp, rfl, rfl⟩
    split
    · exact view_ended rfl rfl
    · next e he =>
      have hea : e.attemptId = some call.attemptId := by rw [(of_newEnvelope he).1]
      have hen : e.seq = some n := by rw [(of_newEnvelope he).1]
      have hstep := append_step cfg.outbox clock e s.store.db
      split
      · next x db hx =>
        rw [hx] at hstep
        cases hstep
        exact view_ended rfl rfl
      · next u db hx =>
        rw [hx] at hstep
        have hnew : appendedBy s { s with store := { s.store with db := db }, publishing := some ⟨call, .appended e⟩ } =
            [e] := by
          unfold appendedBy
          rw [hp]
        rw [hnew]
        have hgiven : ∀ b m, ¬ Given
            { s with store := { s.store with db := db }, publishing := some ⟨call, .appended e⟩ } b m :=
          not_given_of_stage rfl (by simp)
        have hcarries : ∀ x, Carries
            { s with store := { s.store with db := db }, publishing := some ⟨call, .appended e⟩ } x → x = e := by
          rintro x ⟨_, ⟨⟩, hx | ⟨k, hx⟩⟩
          · cases hx
            rfl
          · cases hx
        cases hstep with
        | repeated ha hs hb hr ht =>
          cases ha.symm.trans hea
          cases hs.symm.trans hen
          exact .repeated hg hea hen (sendable_of_newEnvelope cfg he hb) rfl hr hgiven hcarries
        | @inserted a seq text _ ha hs hb ht hi =>
          cases ha.symm.trans hea
          cases hs.symm.trans hen
          exact .inserted (f := eventRow e.id call.attemptId n e.type text clock.created) hg
            (sendable_of_newEnvelope cfg he hb) ⟨ha, hs, ht⟩ hi (pruned_pruneSync _ _ _) hgiven hcarries
  · next h =>
    exact view_same rfl rfl

theorem view_publishSend (a : PyStr) (s : Delivery.State) :
    View a s (appendedBy s (publishSend s)) (publishSend s) := by
  unfold publishSend
  split
  · next call e hp =>
    rw [appendedBy_eq_nil (not_given_of_stage hp (by simp))]
    split
    · exact .ended rfl rfl
    · next k hk =>
      refine .quiet rfl (fun b n h => absurd h (not_given_of_stage rfl (by simp) b n)) ?_
      rintro x ⟨_, ⟨⟩, hx | ⟨k', hx⟩⟩
      · cases hx
      · cases hx
        exact ⟨_, hp, Or.inl rfl⟩
  · exact view_same rfl rfl

theorem view_publishReturn (a : PyStr) (delivered : Bool) (s : Delivery.State) :
    View a s (appendedBy s (publishReturn delivered s)) (publishReturn delivered s) := by
  unfold publishReturn
  split
  · split_ifs
    · exact view_ended rfl rfl
    · exact view_ended rfl rfl
  · exact view_same rfl rfl

/-- An action of the connection leaves the store and the publish alone. -/
theorem onLink_view (s : Delivery.State) (c : Link) (act : Delivery.Action) :
    (onLink s c act).store = s.store ∧ (onLink s c act).publishing = s.publishing := by
  unfold onLink
  split <;> (try split) <;> (try split) <;> exact ⟨rfl, rfl⟩

/-- **What a stretch of code of the engine does.** -/
theorem view_engine (a : PyStr) (s : Delivery.State) (act : Delivery.Action) :
    View a s (appendedBy s (Delivery.step cfg s act)) (Delivery.step cfg s act) := by
  cases act with
  | store op =>
    simp only [Delivery.step]
    split_ifs with hop
    · have hp : (Delivery.State.mk (apply s.store op) s.publishing s.ws s.link s.opened).publishing = s.publishing :=
        rfl
      rw [appendedBy_same hp]
      exact .others hop rfl rfl
    · exact view_same rfl rfl
  | connect =>
    simp only [Delivery.step]
    split
    · exact view_same rfl rfl
    · exact view_same rfl rfl
  | publishBegin call => exact view_publishBegin a call s
  | publishAppend now ts id clock => exact view_publishAppend cfg a now ts id clock s
  | publishSend => exact view_publishSend a s
  | publishReturn delivered => exact view_publishReturn a delivered s
  | restart =>
    simp only [Delivery.step]
    exact view_ended rfl rfl
  | _ =>
    simp only [Delivery.step]
    split
    · obtain ⟨hs, hp⟩ := onLink_view s _ _
      exact view_same (by rw [hs]) hp
    · exact view_same rfl rfl

/-! ### The death of the process in an append -/

omit [PyDatetime] in
/-- What is on the disk after `k + 1` writing statements of an append. -/
theorem appendPath_succ {ocfg : OutboxConfig} {clock : AppendClock} {e : Envelope} {db db' : Db} {k : ℕ}
    (h : (appendPath ocfg clock e db)[k + 1]? = some db') :
    ∃ f db₁, f.seq < maxSqliteInt ∧ Holds f e ∧ db.insertEvent f = some db₁ ∧
      (k = 0 ∧ db' = db₁ ∨ Pruned (raiseCursor f.attemptId f.seq (formatDatetime clock.updated) db₁) db') := by
  have hone : ∀ {d : Db}, ([d] : List Db)[k + 1]? ≠ some db' := by simp
  unfold appendPath at h
  split at h
  · next a n ha hn =>
    split at h
    · exact absurd h hone
    · next states hst =>
      unfold appendStates at hst
      split_ifs at hst with hb
      split at hst
      · split at hst
        · cases hst
        · split_ifs at hst
          cases hst
          exact absurd h hone
      · split at hst
        · cases hst
        · next text ht =>
          dsimp only at hst
          split at hst
          · cases hst
          · next db₁ hi =>
            cases hst
            refine ⟨_, db₁, Nat.lt_of_not_le hb, ⟨ha, hn, ht⟩, hi, ?_⟩
            rw [List.getElem?_cons_succ, insertStates] at h
            rcases k with _ | _ | k
            · cases h
              exact Or.inl ⟨rfl, rfl⟩
            · cases h
              exact Or.inr (.refl _)
            · rw [List.getElem?_cons_succ, List.getElem?_cons_succ] at h
              exact Or.inr (pruned_pruneStates (List.mem_of_getElem? h))
  · exact absurd h hone

omit [PyDatetime] in
theorem restarted_publishing (s : Delivery.State) (db : Db) : (restarted s db).publishing = none := rfl

/-- **What the death of the process in an append does**: unless it came right after the `INSERT`, the cursor is
raised with it or nothing has happened. -/
theorem view_dieAppending {a : PyStr} {k : ℕ} {s : Delivery.State} (now ts : Instant) (id : PyStr)
    (clock : AppendClock) (hsafe : k = 0 → ∀ p, s.publishing = some p → p.call.attemptId ≠ a) :
    View a s (dieAppending cfg k now ts id clock s).1 (dieAppending cfg k now ts id clock s).2 := by
  unfold dieAppending
  split
  · next call n hp =>
    split
    · exact .ended rfl rfl
    · next e he =>
      split
      · exact .ended rfl rfl
      · next db hk =>
        obtain ⟨f, db₁, hb, hh, hi, hdb⟩ := appendPath_succ hk
        have hfields := (of_newEnvelope he).1
        have ha : f.attemptId = call.attemptId := by
          have h := hh.attemptId
          rw [hfields] at h
          exact (Option.some.inj h).symm
        have hn : f.seq = n := by
          have h := hh.seq
          rw [hfields] at h
          exact (Option.some.inj h).symm
        have hg : Given s f.attemptId f.seq := ⟨_, hp, by rw [hn], ha.symm⟩
        have hsend := sendable_of_newEnvelope cfg he (hn ▸ hb)
        have hnone := restarted_publishing s db
        rcases hdb with ⟨hzero, rfl⟩ | hpruned
        · exact .torn (ha ▸ hsafe hzero _ hp) hg hsend hh hi rfl (not_given_of_none hnone) (not_carries_of_none hnone)
        · exact .inserted hg hsend hh hi hpruned (not_given_of_none hnone)
            fun x hx => absurd hx (not_carries_of_none hnone x)
  · exact .ended rfl rfl

/-- No connection is open after a start. -/
theorem link_dieAppending (k : ℕ) (now ts : Instant) (id : PyStr) (clock : AppendClock) (s : Delivery.State) :
    (dieAppending cfg k now ts id clock s).2.link = none := by
  unfold dieAppending
  split
  · split
    · rfl
    · split <;> rfl
  · rfl

/-! ### What a view says -/

omit [PyDatetime] in
/-- The insertion of an event raises the cursor of its attempt and of no other. -/
theorem job?_raised {db db₁ db' : Db} {f : EventRow} {now : Stamp} (hi : db.insertEvent f = some db₁)
    (hdb : Pruned (raiseCursor f.attemptId f.seq now db₁) db') (a : PyStr) :
    db'.job? a = (db.job? a).map fun r => if r.attemptId = f.attemptId then cursorRow f.seq now r else r := by
  rw [hdb.job?, raiseCursor, Db.job?_updateJobs, Db.job?_insertEvent hi]
  simp only [decide_eq_true_eq]

theorem View.rows {a : PyStr} {s t : Delivery.State} {new : List Envelope} (h : View a s new t) {f : EventRow}
    (hf : f ∈ t.store.db.events.rows) : f ∈ s.store.db.events.rows ∨ ∃ e ∈ new, Holds f e := by
  cases h with
  | quiet hdb => exact Or.inl (hdb ▸ hf)
  | others hop hs =>
    rw [hs] at hf
    exact Or.inl (mem_events_of_others hop hf)
  | begin _ hdb => exact Or.inl (hdb ▸ hf)
  | repeated _ _ _ _ hdb => exact Or.inl (hdb ▸ hf)
  | inserted _ _ hh hi hdb =>
    rcases (mem_events_insert hi).mp (hdb.events f hf) with hold | rfl
    · exact Or.inl hold
    · exact Or.inr ⟨_, List.mem_singleton_self _, hh⟩
  | torn _ _ _ hh hi hdb =>
    rw [hdb] at hf
    rcases (mem_events_insert hi).mp hf with hold | rfl
    · exact Or.inl hold
    · exact Or.inr ⟨_, List.mem_singleton_self _, hh⟩

theorem View.sendable {a : PyStr} {s t : Delivery.State} {new : List Envelope} (h : View a s new t) :
    ∀ e ∈ new, Sendable e := by
  cases h with
  | repeated _ _ _ he => simpa using he
  | inserted _ he => simpa using he
  | torn _ _ he => simpa using he
  | _ => simp

theorem View.carried {a : PyStr} {s t : Delivery.State} {new : List Envelope} (h : View a s new t) {e : Envelope}
    (he : Carries t e) : Carries s e ∨ e ∈ new := by
  cases h with
  | quiet _ _ hcarries => exact Or.inl (hcarries e he)
  | others _ _ hp =>
    left
    unfold Carries at he ⊢
    rwa [hp] at he
  | begin _ _ _ hcarries => exact absurd he (hcarries e)
  | repeated _ _ _ _ _ _ _ hcarries => exact Or.inr (List.mem_singleton.mpr (hcarries e he))
  | inserted _ _ _ _ _ _ hcarries => exact Or.inr (List.mem_singleton.mpr (hcarries e he))
  | torn _ _ _ _ _ _ _ hcarries => exact absurd he (hcarries e)

/-! ### The connection -/

/-- What a step does to the open connection. -/
inductive LinkView (s : Delivery.State) (act : Delivery.Action) : Option Link → Prop where
  | closed : LinkView s act none
  | opened (number : ℕ) : LinkView s act (some ⟨⟨.opened, []⟩, number, false, none⟩)
  | kept {c d : Link} (hc : s.link = some c) (hp : d.phase = c.phase) (hr : d.replayed = c.replayed) :
      LinkView s act (some d)
  | welcomed {c d : Link} {cursors : List (PyStr × ℕ)} (hc : s.link = some c) (hact : act = .welcome cursors)
      (hp : d.phase = .welcomed cursors) (hr : d.replayed = c.replayed) : LinkView s act (some d)
  | greeted {c d : Link} {cursors : List (PyStr × ℕ)} (hc : s.link = some c) (hold : c.phase = .welcomed cursors)
      (hp : d.phase = .greeted cursors) (hr : d.replayed = c.replayed) : LinkView s act (some d)
  | queried {c d : Link} {cursors : List (PyStr × ℕ)} {clock : EventRow → Instant} {es : List Envelope}
      (hc : s.link = some c) (hold : c.phase = .greeted cursors)
      (hes : replayAfter clock cursors s.store.db = .ok es) (hp : d.phase = .replaying es)
      (hr : d.replayed = some (cursors, clock)) : LinkView s act (some d)
  | advanced {c d : Link} {e : Envelope} {rest : List Envelope} (hc : s.link = some c)
      (hold : c.phase = .replaying (e :: rest)) (hp : d.phase = .replaying rest) (hr : d.replayed = c.replayed) :
      LinkView s act (some d)
  | finished {c d : Link} (hc : s.link = some c) (hp : d.phase = .live) (hr : d.replayed = c.replayed) :
      LinkView s act (some d)

omit [PyDatetime] in
theorem replayed_deliver (c : Link) (k : ℕ) (e : Envelope) :
    (c.deliver k e).phase = c.phase ∧ (c.deliver k e).replayed = c.replayed := by
  unfold Link.deliver
  split_ifs <;> exact ⟨rfl, rfl⟩

omit [PyDatetime] in
theorem replayed_fail (c : Link) (k : ℕ) : (c.fail k).phase = c.phase ∧ (c.fail k).replayed = c.replayed := by
  unfold Link.fail
  split_ifs <;> exact ⟨rfl, rfl⟩

/-- A step that leaves the connection as it is, up to its frames and its failures. -/
theorem LinkView.of_map {s : Delivery.State} {act : Delivery.Action} (g : Link → Link)
    (hg : ∀ c, (g c).phase = c.phase ∧ (g c).replayed = c.replayed) : LinkView s act (s.link.map g) := by
  rcases hc : s.link with _ | c
  · exact .closed
  · exact .kept hc (hg c).1 (hg c).2

theorem LinkView.same {s : Delivery.State} {act : Delivery.Action} : LinkView s act s.link := by
  have h : LinkView s act (s.link.map id) := .of_map id fun _ => ⟨rfl, rfl⟩
  rwa [Option.map_id] at h

theorem link_onLink {s : Delivery.State} {c : Link} (hc : s.link = some c) (act : Delivery.Action) :
    LinkView s act (onLink s c act).link := by
  have hframe : ∀ f, LinkView s act (some { c with sent := c.sent ++ [f] }) := fun f => .kept hc rfl rfl
  unfold onLink
  split
  · split
    · exact .welcomed hc rfl rfl rfl
    · exact .same
  · split
    · next hp => exact .greeted hc hp rfl rfl
    · exact .same
  · split
    · next hp =>
      split
      · next hes => exact .queried hc hp hes rfl rfl
      · exact .closed
    · exact .same
  · split
    · next hp => exact .advanced hc hp rfl rfl
    · exact .finished hc rfl rfl
    · exact .same
  · split
    · exact hframe _
    · exact hframe _
    · exact hframe _
    · exact .same
  · split
    · exact hframe _
    · exact .same
  · exact .closed
  · exact .same

/-- **What a stretch of code of the engine does to the connection.** -/
theorem link_step (s : Delivery.State) (act : Delivery.Action) : LinkView s act (Delivery.step cfg s act).link := by
  cases act with
  | store op =>
    simp only [Delivery.step]
    split_ifs <;> exact .same
  | connect =>
    simp only [Delivery.step]
    split
    · exact .opened _
    · exact .same
  | publishBegin call =>
    simp only [Delivery.step, publishBegin]
    split
    · exact .same
    · split <;> exact .same
  | publishAppend now ts id clock =>
    simp only [Delivery.step, publishAppend]
    split
    · split
      · exact .same
      · split <;> exact .same
    · exact .same
  | publishSend =>
    simp only [Delivery.step, publishSend]
    split
    · split <;> exact .same
    · exact .same
  | publishReturn delivered =>
    simp only [Delivery.step, publishReturn]
    split
    · next call e k _ =>
      split_ifs
      · exact .of_map (fun c => c.deliver k e) fun c => replayed_deliver c k e
      · exact .of_map (fun c => c.fail k) fun c => replayed_fail c k
    · exact .same
  | restart => exact .closed
  | _ =>
    simp only [Delivery.step]
    split
    · next c hc => exact link_onLink hc _
    · exact .same

/-- The envelope is one the replay of the open connection has still to send. -/
def Queued (s : Delivery.State) (x : Envelope) : Prop :=
  ∃ c es, s.link = some c ∧ c.phase = .replaying es ∧ x ∈ es

/-- The envelope is one `replay_after` returns. -/
def Read (db : Db) (x : Envelope) : Prop := ∃ clock cursors es, replayAfter clock cursors db = .ok es ∧ x ∈ es

/-- What the replay has still to send was to be sent before, or the outbox was read. -/
theorem queued_step {s : Delivery.State} {act : Delivery.Action} {x : Envelope}
    (h : Queued (Delivery.step cfg s act) x) : Queued s x ∨ Read s.store.db x := by
  obtain ⟨d, es, hd, hphase, hx⟩ := h
  have hlink := link_step cfg s act
  rw [hd] at hlink
  cases hlink with
  | opened => cases hphase
  | kept hc hp => exact Or.inl ⟨_, es, hc, hp.symm.trans hphase, hx⟩
  | welcomed _ _ hp => cases hp.symm.trans hphase
  | greeted _ _ hp => cases hp.symm.trans hphase
  | @queried _ _ cursors clock _ _ _ hes hp =>
    cases hp.symm.trans hphase
    exact Or.inr ⟨clock, cursors, es, hes, hx⟩
  | advanced hc hold hp =>
    cases hp.symm.trans hphase
    exact Or.inl ⟨_, _, hc, hold, List.mem_cons_of_mem _ hx⟩
  | finished _ hp => cases hp.symm.trans hphase

omit [PyDatetime] in
/-- What is sent is held by the publish or queued by the replay. -/
theorem mem_sends {s : Delivery.State} {act : Delivery.Action} {x : Envelope} (h : x ∈ sends s act) :
    Carries s x ∨ Queued s x := by
  unfold sends at h
  split at h
  · split at h
    · next call e _ hp _ =>
      cases List.mem_singleton.mp h
      exact Or.inl ⟨_, hp, Or.inl rfl⟩
    · simp at h
  · split at h
    · simp at h
    · next c hc =>
      split at h
      · next e rest hphase =>
        cases List.mem_singleton.mp h
        exact Or.inr ⟨c, _, hc, hphase, List.mem_cons_self⟩
      · simp at h
  · simp at h

/-! ### What deletes a row -/

omit [PyDatetime] in
theorem store_publishBegin (call : EventCall) (s : Delivery.State) : (publishBegin call s).store = s.store := by
  unfold publishBegin
  split
  · rfl
  · split <;> rfl

omit [PyDatetime] in
theorem store_publishSend (s : Delivery.State) : (publishSend s).store = s.store := by
  unfold publishSend
  split
  · split <;> rfl
  · rfl

omit [PyDatetime] in
theorem store_publishReturn (delivered : Bool) (s : Delivery.State) :
    (publishReturn delivered s).store = s.store := by
  unfold publishReturn
  split
  · split_ifs <;> rfl
  · rfl

/-- A publish changes the database by an append, if it does. -/
theorem db_publishAppend (now ts : Instant) (id : PyStr) (clock : AppendClock) (s : Delivery.State) :
    (publishAppend cfg now ts id clock s).store.db = s.store.db ∨
      ∃ e, (publishAppend cfg now ts id clock s).store.db = (append cfg.outbox clock e s.store.db).2 := by
  unfold publishAppend
  split
  · split
    · exact Or.inl rfl
    · next e _ =>
      refine Or.inr ⟨e, ?_⟩
      split <;> next h => exact (congrArg Prod.snd h).symm
  · exact Or.inl rfl

/-- The death in an append keeps the rows of the jobs. -/
theorem isSome_dieAppending {a : PyStr} {s : Delivery.State} (h : (s.store.db.job? a).isSome) (k : ℕ)
    (now ts : Instant) (id : PyStr) (clock : AppendClock) :
    ((dieAppending cfg k now ts id clock s).2.store.db.job? a).isSome := by
  unfold dieAppending
  split
  · split
    · exact h
    · split
      · exact h
      · next db hk =>
        obtain ⟨f, db₁, -, -, hi, ⟨-, rfl⟩ | hpruned⟩ := appendPath_succ hk
        · show (db.job? a).isSome
          rw [Db.job?_insertEvent hi]
          exact h
        · show (db.job? a).isSome
          rw [job?_raised hi hpruned, Option.isSome_map]
          exact h
  · exact h

/-- Only `prune_terminal` deletes a row. -/
theorem isSome_engine {a : PyStr} {s : Delivery.State} (h : (s.store.db.job? a).isSome) {act : Delivery.Action}
    (hact : ∀ now days, act ≠ .store (.pruneTerminal now days)) :
    ((Delivery.step cfg s act).store.db.job? a).isSome := by
  have hrows : ∀ (st : Store) (op : Op), (st.db.job? a).isSome → (∀ now days, op ≠ .pruneTerminal now days) →
      ((apply st op).db.job? a).isSome := by
    intro st op hsome hop
    obtain ⟨r, hr⟩ := Option.isSome_iff_exists.mp hsome
    have hrow := rowStep st op a
    rcases hr' : (apply st op).db.job? a with _ | r'
    · rw [hr, hr'] at hrow
      cases hrow
      exact absurd rfl (hop _ _)
    · rfl
  cases act with
  | store op =>
    simp only [Delivery.step]
    split_ifs
    · exact hrows s.store op h fun now days hop => hact now days (by rw [hop])
    · exact h
  | publishAppend now ts id clock =>
    show ((publishAppend cfg now ts id clock s).store.db.job? a).isSome
    rcases db_publishAppend cfg now ts id clock s with hdb | ⟨e, hdb⟩
    · rw [hdb]
      exact h
    · rw [hdb]
      exact hrows s.store (.append cfg.outbox clock e) h (by simp)
  | publishBegin call =>
    show ((publishBegin call s).store.db.job? a).isSome
    rw [store_publishBegin]
    exact h
  | publishSend =>
    show ((publishSend s).store.db.job? a).isSome
    rw [store_publishSend]
    exact h
  | publishReturn delivered =>
    show ((publishReturn delivered s).store.db.job? a).isSome
    rw [store_publishReturn]
    exact h
  | connect =>
    simp only [Delivery.step]
    split <;> exact h
  | restart => exact h
  | _ =>
    simp only [Delivery.step]
    split
    · rw [(onLink_view s _ _).1]
      exact h
    · exact h

end Datetime

end BuildEngine.Agent.DeliverySteps
