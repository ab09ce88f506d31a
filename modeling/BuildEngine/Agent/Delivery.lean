import BuildEngine.Agent.WireOrder

/-! # Delivery of the events on a connection

An event reaches a connection by the replay or by the publish that makes it. Here the publish is taken apart at
its `await`s: after its append it reads `self._ws`, and the `send` it starts may return or fail at any later
time, when the connection it was started on is gone and another one is open. A failed `send` sets `self._ws` to
`None` whatever connection it then names, so the publishes that follow on the open connection are not sent. If
only sends of the open connection fail (`FailsCurrent`), then on a connection without a failed send every
stored event above the welcome cursors that the replay can decode is sent, once the replay is over and no
publish is between its append and its send on it (`events_delivered`). -/

namespace BuildEngine.Agent.Delivery

open BuildEngine.Base BuildEngine.Base.Json BuildEngine.Base.Run BuildEngine.Agent.Protocol
open BuildEngine.Agent.Uplink hiding State Action step publishBegin publishAppend
open BuildEngine.Agent.SequenceNumbers (mem_events_of_others sampleUplink)
open BuildEngine.Queue.Schema BuildEngine.Queue BuildEngine.Queue.Store BuildEngine.Queue.Outbox
open BuildEngine.Queue.Ops BuildEngine.Queue.Events BuildEngine.Queue.Replay

/-! ### State -/

/-- The arguments of `publish_attempt_event` as its callers give them: the type is one the engine sends. -/
structure EventCall extends PublishCall where
  outbound : type ∈ outboundMessageTypes

/-- How far a publish has come. -/
inductive Stage where
  | numbered (seq : ℕ)
  | appended (e : Envelope)
  /-- `send` was called on the socket of a connection and has not returned. -/
  | sending (e : Envelope) (number : ℕ)

/-- A publish that holds the lock. -/
structure Publishing where
  call : EventCall
  stage : Stage

/-- The open connection, by its number. `failed` says that a `send` of an event on it has failed; `replayed`
are the cursors and the clock readings of its replay. -/
structure Link extends Connection where
  number : ℕ
  failed : Bool
  replayed : Option (List (PyStr × ℕ) × (EventRow → Instant))

/-- The uplink and the store. `ws` is the number of the connection whose socket `self._ws` is, and `opened`
counts the connections. -/
structure State where
  store : Store
  publishing : Option Publishing
  ws : Option ℕ
  link : Option Link
  opened : ℕ

/-- A process just started. -/
def State.init : State := ⟨.empty, none, none, none, 0⟩

/-- A stretch of code between two `await`s. -/
inductive Action where
  /-- A store call of another task, or the handling of `event.ack`. -/
  | store (op : Op)
  /-- `connector(url, headers)` returns and `self._ws` is set. -/
  | connect
  /-- `_receive_welcome` returns. -/
  | welcome (cursors : List (PyStr × ℕ))
  /-- `_send_hello` -/
  | hello
  /-- `replay_after`, with the clock readings of its decoding. -/
  | queryReplay (clock : EventRow → Instant)
  /-- The next turn of the loop of `_replay_spool`. -/
  | replayNext
  /-- A turn of `_heartbeat_loop`. -/
  | heartbeat
  /-- The answer to a `ping`. -/
  | pong
  /-- The connection ends, or an exception ends `connect_once`: its `finally`. -/
  | disconnect
  /-- `publish_attempt_event` gets the lock and its number. -/
  | publishBegin (call : EventCall)
  /-- It makes the envelope and appends it. -/
  | publishAppend (now timestamp : Instant) (messageId : PyStr) (clock : AppendClock)
  /-- It reads `self._ws`: it calls `send`, or returns if there is no socket. -/
  | publishSend
  /-- `send` returns, or raises. -/
  | publishReturn (delivered : Bool)
  /-- The process is started again. -/
  | restart

/-! ### Steps -/

/-- `publish_attempt_event` up to its number. An exception ends it and frees the lock. -/
def publishBegin (call : EventCall) (s : State) : State :=
  match s.publishing with
  | some _ => s
  | none =>
    match nextSeq call.attemptId s.store.db with
    | .error _ => s
    | .ok seq => { s with publishing := some ⟨call, .numbered seq⟩ }

/-- It reads `self._ws`. -/
def publishSend (s : State) : State :=
  match s.publishing with
  | some ⟨call, .appended e⟩ =>
    match s.ws with
    | none => { s with publishing := none }
    | some k => { s with publishing := some ⟨call, .sending e k⟩ }
  | _ => s

/-- An event is sent on the connection with the number, if it is open. -/
def Link.deliver (c : Link) (k : ℕ) (e : Envelope) : Link :=
  if c.number = k then { c with sent := c.sent ++ [.event e] } else c

/-- A `send` on the connection with the number has failed. -/
def Link.fail (c : Link) (k : ℕ) : Link := if c.number = k then { c with failed := true } else c

/-- `send` returns, or the `except` clause sets `self._ws` to `None`. -/
def publishReturn (delivered : Bool) (s : State) : State :=
  match s.publishing with
  | some ⟨_, .sending e k⟩ =>
    if delivered then { s with publishing := none, link := s.link.map (·.deliver k e) }
    else { s with publishing := none, ws := none, link := s.link.map (·.fail k) }
  | _ => s

/-! ### What is on the connection -/

theorem number_deliver (c : Link) (k : ℕ) (e : Envelope) :
    (c.deliver k e).number = c.number ∧ (c.deliver k e).failed = c.failed := by
  unfold Link.deliver
  split_ifs <;> exact ⟨rfl, rfl⟩

/-- The envelope carries the event of the row. -/
def IsOf (e : Envelope) (f : EventRow) : Prop := e.attemptId = some f.attemptId ∧ e.seq = some f.seq

/-- The event of the row was sent on the connection. -/
def Sent (c : Link) (f : EventRow) : Prop := ∃ e, .event e ∈ c.sent ∧ IsOf e f

theorem Sent.mono {c d : Link} {f : EventRow} (h : Sent c f) (hsub : ∀ x ∈ c.sent, x ∈ d.sent) : Sent d f := by
  obtain ⟨e, he, hf⟩ := h
  exact ⟨e, hsub _ he, hf⟩

section Datetime
variable [PyDatetime]

/-- `new_envelope` and `append` of a publish. -/
def publishAppend (cfg : UplinkConfig) (now timestamp : Instant) (messageId : PyStr) (clock : AppendClock)
    (s : State) : State :=
  match s.publishing with
  | some ⟨call, .numbered seq⟩ =>
    match newEnvelope now timestamp messageId call.type call.payload cfg.engineId (some call.buildJobId)
        (some call.attemptId) (some seq) with
    | .error _ => { s with publishing := none }
    | .ok e =>
      match append cfg.outbox clock e s.store.db with
      | (.error _, db) => { s with store := { s.store with db := db }, publishing := none }
      | (.ok _, db) => { s with store := { s.store with db := db }, publishing := some ⟨call, .appended e⟩ }
  | _ => s

/-- `connect_once`, `_heartbeat_loop` and the pong of `_handle_frame` on the open connection. -/
def onLink (s : State) (c : Link) : Action → State
  | .welcome cursors =>
    match c.phase with
    | .opened => { s with link := some { c with phase := .welcomed cursors } }
    | _ => s
  | .hello =>
    match c.phase with
    | .welcomed cursors =>
      { s with link := some { c with sent := c.sent ++ [.hello], phase := .greeted cursors } }
    | _ => s
  | .queryReplay clock =>
    match c.phase with
    | .greeted cursors =>
      match replayAfter clock cursors s.store.db with
      | .ok es => { s with link := some { c with phase := .replaying es, replayed := some (cursors, clock) } }
      | .error _ => { s with ws := none, link := none }
    | _ => s
  | .replayNext =>
    match c.phase with
    | .replaying (e :: rest) =>
      { s with link := some { c with sent := c.sent ++ [.event e], phase := .replaying rest } }
    | .replaying [] => { s with link := some { c with phase := .live } }
    | _ => s
  | .heartbeat =>
    match c.phase with
    | .greeted _ | .replaying _ | .live => { s with link := some { c with sent := c.sent ++ [.heartbeat] } }
    | _ => s
  | .pong =>
    match c.phase with
    | .live => { s with link := some { c with sent := c.sent ++ [.pong] } }
    | _ => s
  | .disconnect => { s with ws := none, link := none }
  | _ => s

/-- What an action does. -/
def step (cfg : UplinkConfig) (s : State) : Action → State
  | .store op => if ofOthers op then { s with store := Ops.apply s.store op } else s
  | .connect =>
    match s.link with
    | none => { s with
        ws := some s.opened, link := some ⟨⟨.opened, []⟩, s.opened, false, none⟩, opened := s.opened + 1 }
    | some _ => s
  | .publishBegin call => publishBegin call s
  | .publishAppend now timestamp messageId clock => publishAppend cfg now timestamp messageId clock s
  | .publishSend => publishSend s
  | .publishReturn delivered => publishReturn delivered s
  | .restart => { State.init with store := s.store.restart, opened := s.opened }
  | act =>
    match s.link with
    | some c => onLink s c act
    | none => s

/-! ### What is to be delivered -/

/-- The row is above the cursors, and the timestamp of its envelope is within the skew of the replay's clock. -/
def Due (cursors : List (PyStr × ℕ)) (clock : EventRow → Instant) (f : EventRow) : Prop :=
  cursor cursors f.attemptId < f.seq ∧ ∀ e, Valid e → Holds f e → Fresh (clock f) e

/-- The publish is between its append and the end of its `send` on the connection. -/
def Underway (c : Link) (p : Publishing) : Prop :=
  (∃ e, p.stage = .appended e) ∨ ∃ e, p.stage = .sending e c.number

/-- **Delivery.** On the open connection, if no `send` on it has failed, its replay is over and no publish is
between its append and its `send` on it, every stored event that is due was sent. -/
def Delivered (s : State) : Prop :=
  ∀ c, s.link = some c → c.failed = false → c.phase = .live → (∀ p, s.publishing = some p → ¬ Underway c p) →
    ∀ cursors clock, c.replayed = some (cursors, clock) →
      ∀ f ∈ s.store.db.events.rows, Due cursors clock f → Sent c f

/-- A `send` that fails was started on the connection that is open, if one is. -/
def FailsCurrent (s : State) : Action → Prop
  | .publishReturn false => ∀ call e k, s.publishing = some ⟨call, .sending e k⟩ →
      ∀ c, s.link = some c → c.number = k
  | _ => True

/-! ### The stored events -/

/-- Every row holds a valid envelope of a type the engine sends. -/
def RowsOutbound (db : Db) : Prop :=
  ∀ f ∈ db.events.rows, ∃ e, Valid e ∧ Holds f e ∧ e.type ∈ outboundMessageTypes

theorem RowsOutbound.valid {db : Db} (h : RowsOutbound db) : RowsValid db := by
  intro f hf
  obtain ⟨e, hv, hh, -⟩ := h f hf
  exact ⟨e, hv, hh⟩

theorem RowsOutbound.subset {db db' : Db} (h : RowsOutbound db)
    (hsub : ∀ f ∈ db'.events.rows, f ∈ db.events.rows) : RowsOutbound db' :=
  fun f hf => h f (hsub f hf)

/-- An append adds the row of its envelope at most. -/
theorem RowsOutbound.append {db db' : Db} {cfg : OutboxConfig} {clock : AppendClock} {e : Envelope}
    {result : Except OutboxError Unit} (h : RowsOutbound db)
    (he : ∀ n, e.seq = some n → n < maxSqliteInt → Valid e) (htype : e.type ∈ outboundMessageTypes)
    (hstep : AppendStep cfg clock e db result db') : RowsOutbound db' := by
  intro f hf
  rcases mem_of_appendStep hstep hf with hold | ⟨n, hn, hlt, hholds⟩
  · exact h f hold
  · exact ⟨e, he n hn hlt, hholds, htype⟩

/-- A row that is due is in the replay. -/
theorem Due.replayed {db : Db} {cursors : List (PyStr × ℕ)} {clock : EventRow → Instant} {f : EventRow}
    {es : List Envelope} (hrows : RowsOutbound db) (hes : replayAfter clock cursors db = .ok es)
    (hf : f ∈ db.events.rows) (hdue : Due cursors clock f) : ∃ e ∈ es, IsOf e f := by
  obtain ⟨e, hv, hh, htype⟩ := hrows f hf
  rw [replayAfter_of_valid hrows.valid] at hes
  cases hes
  have hreplayed : replayed? clock f = some e.sorted :=
    (replayed?_eq_some hv hh _).mpr ⟨⟨htype, hdue.2 e hv hh⟩, rfl⟩
  exact ⟨e.sorted, List.mem_filterMap.mpr ⟨f, mem_rowsAbove.mpr ⟨hf, hdue.1⟩, hreplayed⟩, hh.attemptId, hh.seq⟩

/-! ### The invariant -/

/-- The event of the row has still to be sent on the connection: by its replay, or by the publish. -/
inductive Pending (p : Option Publishing) (c : Link) (f : EventRow) : Prop where
  | replay {rest : List Envelope} {e : Envelope} (hp : c.phase = .replaying rest) (he : e ∈ rest)
      (hf : IsOf e f)
  | appended {call : EventCall} {e : Envelope} (hp : p = some ⟨call, .appended e⟩) (hf : IsOf e f)
  | sending {call : EventCall} {e : Envelope} (hp : p = some ⟨call, .sending e c.number⟩) (hf : IsOf e f)

/-- Every row that is due on the connection was sent on it, or will be. -/
def Covered (db : Db) (p : Option Publishing) (c : Link) : Prop :=
  ∀ cursors clock, c.replayed = some (cursors, clock) →
    ∀ f ∈ db.events.rows, Due cursors clock f → Sent c f ∨ Pending p c f

/-- What holds of the open connection: as long as no `send` on it has failed, it is the current one, and every
row that is due is covered. -/
structure LinkInv (s : State) (c : Link) : Prop where
  socket : c.failed = false → s.ws = some c.number
  covered : c.failed = false → Covered s.store.db s.publishing c

/-- What holds of the uplink. -/
structure Inv (s : State) : Prop where
  rows : RowsOutbound s.store.db
  link : ∀ c, s.link = some c → LinkInv s c

theorem Covered.subset {db db' : Db} {p : Option Publishing} {c : Link} (h : Covered db p c)
    (hsub : ∀ f ∈ db'.events.rows, f ∈ db.events.rows) : Covered db' p c :=
  fun cursors clock hr f hf => h cursors clock hr f (hsub f hf)

/-- A frame more, or another phase before the replay. -/
theorem Covered.other {db : Db} {p : Option Publishing} {c d : Link} (h : Covered db p c)
    (hnumber : d.number = c.number) (hreplayed : d.replayed = c.replayed) (hsub : ∀ x ∈ c.sent, x ∈ d.sent)
    (hphase : ∀ rest, c.phase = .replaying rest → d.phase = .replaying rest) : Covered db p d := by
  intro cursors clock hr f hf hdue
  rw [hreplayed] at hr
  rcases h cursors clock hr f hf hdue with hsent | hpending
  · exact Or.inl (hsent.mono hsub)
  · right
    cases hpending with
    | replay hp he hf => exact .replay (hphase _ hp) he hf
    | appended hp hf => exact .appended hp hf
    | sending hp hf => exact .sending (by rw [hnumber]; exact hp) hf

/-- The publish has nothing to send on the connection, before or after. -/
theorem Covered.publishing {db : Db} {p q : Option Publishing} {c : Link} (h : Covered db p c)
    (happended : ∀ call e, p ≠ some ⟨call, .appended e⟩)
    (hsending : ∀ call e, p ≠ some ⟨call, .sending e c.number⟩) : Covered db q c := by
  intro cursors clock hr f hf hdue
  rcases h cursors clock hr f hf hdue with hsent | hpending
  · exact Or.inl hsent
  · cases hpending with
    | replay hp he hf => exact Or.inr (.replay hp he hf)
    | appended hp => exact absurd hp (happended _ _)
    | sending hp => exact absurd hp (hsending _ _)

/-! ### The steps of `connect_once` -/

/-- The connection after an action that keeps it current. -/
theorem Inv.of_link {s : State} (h : Inv s) {c d : Link} (hc : s.link = some c) (hnumber : d.number = c.number)
    (hfailed : d.failed = c.failed) (hcov : c.failed = false → Covered s.store.db s.publishing d) :
    Inv { s with link := some d } := by
  refine ⟨h.rows, ?_⟩
  rintro _ ⟨⟩
  refine ⟨fun hf => ?_, fun hf => hcov (hfailed ▸ hf)⟩
  rw [hnumber]
  exact (h.link c hc).socket (hfailed ▸ hf)

/-- No connection is open. -/
theorem Inv.closed {s t : State} (h : Inv s) (hdb : t.store.db = s.store.db) (hlink : t.link = none) : Inv t := by
  refine ⟨by rw [hdb]; exact h.rows, fun c hc => ?_⟩
  rw [hlink] at hc
  cases hc

/-- The outbox is queried: the rows that are due are in the replay. -/
theorem covered_query {db : Db} {p : Option Publishing} {cursors : List (PyStr × ℕ)}
    {clock : EventRow → Instant} {es : List Envelope} (c : Link) (hrows : RowsOutbound db)
    (hes : replayAfter clock cursors db = .ok es) :
    Covered db p { c with phase := .replaying es, replayed := some (cursors, clock) } := by
  rintro _ _ ⟨⟩ f hf hdue
  obtain ⟨e, he, hof⟩ := hdue.replayed hrows hes hf
  exact Or.inr (.replay rfl he hof)

/-- The head of the replay is sent. -/
theorem Covered.replayNext {db : Db} {p : Option Publishing} {c : Link} {e : Envelope} {rest : List Envelope}
    (h : Covered db p c) (hphase : c.phase = .replaying (e :: rest)) :
    Covered db p { c with sent := c.sent ++ [.event e], phase := .replaying rest } := by
  intro cursors clock hr f hf hdue
  rcases h cursors clock hr f hf hdue with hsent | hpending
  · exact Or.inl (hsent.mono fun x hx => List.mem_append_left _ hx)
  · cases hpending with
    | replay hp he hf =>
      cases hphase.symm.trans hp
      rcases List.mem_cons.mp he with rfl | he
      · exact Or.inl ⟨_, List.mem_append_right _ (List.mem_singleton.mpr rfl), hf⟩
      · exact Or.inr (.replay rfl he hf)
    | appended hp hf => exact Or.inr (.appended hp hf)
    | sending hp hf => exact Or.inr (.sending hp hf)

/-- The replay is over. -/
theorem Covered.live {db : Db} {p : Option Publishing} {c : Link} (h : Covered db p c)
    (hphase : c.phase = .replaying []) : Covered db p { c with phase := .live } := by
  intro cursors clock hr f hf hdue
  rcases h cursors clock hr f hf hdue with hsent | hpending
  · exact Or.inl hsent
  · cases hpending with
    | replay hp he =>
      cases hphase.symm.trans hp
      cases he
    | appended hp hf => exact Or.inr (.appended hp hf)
    | sending hp hf => exact Or.inr (.sending hp hf)

/-- An action of `connect_once`, of the heartbeat or of the pong. -/
theorem Inv.onLink {s : State} (h : Inv s) {c : Link} (hc : s.link = some c) (act : Action) :
    Inv (onLink s c act) := by
  have hcov := (h.link c hc).covered
  have hframe : ∀ x, Inv { s with link := some { c with sent := c.sent ++ [x] } } := fun x =>
    h.of_link hc rfl rfl fun hf => (hcov hf).other rfl rfl (fun y hy => List.mem_append_left _ hy) fun _ hp => hp
  unfold Delivery.onLink
  split
  · split
    · next hp =>
      refine h.of_link hc rfl rfl fun hf => (hcov hf).other rfl rfl (fun y hy => hy) fun rest hrest => ?_
      cases hp.symm.trans hrest
    · exact h
  · split
    · next hp =>
      refine h.of_link hc rfl rfl fun hf =>
        (hcov hf).other rfl rfl (fun y hy => List.mem_append_left _ hy) fun rest hrest => ?_
      cases hp.symm.trans hrest
    · exact h
  · split
    · split
      · next hes => exact h.of_link hc rfl rfl fun _ => covered_query c h.rows hes
      · exact h.closed rfl rfl
    · exact h
  · split
    · next hp => exact h.of_link hc rfl rfl fun hf => (hcov hf).replayNext hp
    · next hp => exact h.of_link hc rfl rfl fun hf => (hcov hf).live hp
    · exact h
  · split
    · exact hframe _
    · exact hframe _
    · exact hframe _
    · exact h
  · split
    · exact hframe _
    · exact h
  · exact h.closed rfl rfl
  · exact h

/-! ### The steps of `publish_attempt_event` -/

theorem Inv.publishBegin {s : State} (h : Inv s) (call : EventCall) : Inv (publishBegin call s) := by
  unfold Delivery.publishBegin
  split
  · exact h
  · next hnone =>
    split
    · exact h
    · refine ⟨h.rows, fun c hc => ⟨(h.link c hc).socket, fun hf => ?_⟩⟩
      exact ((h.link c hc).covered hf).publishing (by rw [hnone]; simp) (by rw [hnone]; simp)

/-- The row of an append is pending on every connection. -/
theorem Covered.append {db db' : Db} {p : Option Publishing} {c : Link} {cfg : OutboxConfig}
    {clock : AppendClock} {e : Envelope} {result : Except OutboxError Unit} {call call' : EventCall} {n : ℕ}
    (h : Covered db p c) (hp : p = some ⟨call, .numbered n⟩) (hstep : AppendStep cfg clock e db result db') :
    Covered db' (some ⟨call', .appended e⟩) c := by
  intro cursors clock hr f hf hdue
  rcases mem_of_appendStep hstep hf with hold | ⟨m, -, -, hholds⟩
  · exact (h.publishing (by rw [hp]; simp) (by rw [hp]; simp)) cursors clock hr f hold hdue
  · exact Or.inr (.appended rfl ⟨hholds.attemptId, hholds.seq⟩)

theorem Inv.publishAppend {s : State} (h : Inv s) (cfg : UplinkConfig) (now ts : Instant) (id : PyStr)
    (clock : AppendClock) : Inv (publishAppend cfg now ts id clock s) := by
  unfold Delivery.publishAppend
  split
  · next call n hp =>
    -- a publish that raises has nothing to send
    have hdrop : ∀ c, s.link = some c → c.failed = false → Covered s.store.db none c := fun c hc hf =>
      ((h.link c hc).covered hf).publishing (by rw [hp]; simp) (by rw [hp]; simp)
    split
    · exact ⟨h.rows, fun c hc => ⟨(h.link c hc).socket, hdrop c hc⟩⟩
    · next e he =>
      have hstep := append_step cfg.outbox clock e s.store.db
      have htype : e.type ∈ outboundMessageTypes := by rw [(of_newEnvelope he).1]; exact call.outbound
      have hrows := h.rows.append (fun m hm hlt => ?_) htype hstep
      · split
        · next x db hx =>
          rw [hx] at hstep hrows
          cases hstep
          exact ⟨hrows, fun c hc => ⟨(h.link c hc).socket, hdrop c hc⟩⟩
        · next u db hx =>
          rw [hx] at hstep hrows
          refine ⟨hrows, fun c hc => ⟨(h.link c hc).socket, fun hf => ?_⟩⟩
          exact ((h.link c hc).covered hf).append hp hstep
      · have hn : e.seq = some n := by rw [(of_newEnvelope he).1]
        cases hn.symm.trans hm
        exact valid_of_newEnvelope he (hlt.trans (by unfold maxSqliteInt; norm_num)) call.wf
  · exact h

/-- The publish reads `self._ws`: on a connection without a failed `send` it is the socket of the connection. -/
theorem Inv.publishSend {s : State} (h : Inv s) : Inv (publishSend s) := by
  unfold Delivery.publishSend
  split
  · next call e hp =>
    split
    · next hnone =>
      refine ⟨h.rows, fun c hc => ⟨(h.link c hc).socket, fun hf => ?_⟩⟩
      have hws := (h.link c hc).socket hf
      rw [hnone] at hws
      cases hws
    · next k hk =>
      refine ⟨h.rows, fun c hc => ⟨(h.link c hc).socket, fun hf => ?_⟩⟩
      have hnumber : c.number = k := Option.some.inj (((h.link c hc).socket hf).symm.trans hk)
      intro cursors clock hr f hf' hdue
      rcases (h.link c hc).covered hf cursors clock hr f hf' hdue with hsent | hpending
      · exact Or.inl hsent
      · right
        cases hpending with
        | replay hp he hf => exact .replay hp he hf
        | appended hp' hf =>
          cases hp.symm.trans hp'
          exact .sending (by rw [hnumber]) hf
        | sending hp' => cases hp.symm.trans hp'
  · exact h

/-- `send` has returned: the event is on the connection it was started on. -/
theorem Covered.deliver {db : Db} {p : Option Publishing} {c : Link} {call : EventCall} {e : Envelope} {k : ℕ}
    (h : Covered db p c) (hp : p = some ⟨call, .sending e k⟩) : Covered db none (c.deliver k e) := by
  unfold Link.deliver
  split_ifs with hk
  · intro cursors clock hr f hf hdue
    rcases h cursors clock hr f hf hdue with hsent | hpending
    · exact Or.inl (hsent.mono fun x hx => List.mem_append_left _ hx)
    · cases hpending with
      | replay hp he hf => exact Or.inr (.replay hp he hf)
      | appended hp' => cases hp.symm.trans hp'
      | sending hp' hf =>
        cases hp.symm.trans hp'
        exact Or.inl ⟨_, List.mem_append_right _ (List.mem_singleton.mpr rfl), hf⟩
  · refine h.publishing (by rw [hp]; simp) fun call' e' hp' => hk ?_
    cases hp.symm.trans hp'
    rfl

/-- `send` returns, or fails on the open connection. -/
theorem Inv.publishReturn {s : State} (h : Inv s) (delivered : Bool)
    (hcur : FailsCurrent s (.publishReturn delivered)) : Inv (publishReturn delivered s) := by
  unfold Delivery.publishReturn
  split
  · next call e k hp =>
    rcases delivered with _ | _
    · refine ⟨h.rows, fun d hd => ?_⟩
      obtain ⟨c, hc, rfl⟩ := Option.map_eq_some_iff.mp hd
      -- the connection has a failed `send` now
      have hfailed : (c.fail k).failed = true := by
        unfold Link.fail
        rw [if_pos (hcur call e k hp c hc)]
      exact ⟨fun hf => absurd (hf.symm.trans hfailed) (by simp), fun hf => absurd (hf.symm.trans hfailed) (by simp)⟩
    · refine ⟨h.rows, fun d hd => ?_⟩
      obtain ⟨c, hc, rfl⟩ := Option.map_eq_some_iff.mp hd
      obtain ⟨hnumber, hfailed⟩ := number_deliver c k e
      refine ⟨fun hf => ?_, fun hf => ((h.link c hc).covered (hfailed ▸ hf)).deliver hp⟩
      rw [hnumber]
      exact (h.link c hc).socket (hfailed ▸ hf)
  · exact h

/-! ### Whole runs -/

variable (cfg : UplinkConfig)

/-- The invariant is kept by every action, if a `send` that fails belongs to the open connection. -/
theorem Inv.step {s : State} (h : Inv s) (act : Action) (hcur : FailsCurrent s act) : Inv (step cfg s act) := by
  cases act with
  | store op =>
    simp only [Delivery.step]
    split_ifs with hop
    · have hsub : ∀ f ∈ (Ops.apply s.store op).db.events.rows, f ∈ s.store.db.events.rows :=
        fun f hf => mem_events_of_others hop hf
      refine ⟨h.rows.subset hsub, fun c hc => ⟨(h.link c hc).socket, fun hf => ?_⟩⟩
      exact ((h.link c hc).covered hf).subset hsub
    · exact h
  | connect =>
    simp only [Delivery.step]
    split
    · refine ⟨h.rows, ?_⟩
      rintro _ ⟨⟩
      refine ⟨fun _ => rfl, fun _ cursors clock hr => ?_⟩
      cases hr
    · exact h
  | publishBegin call => exact h.publishBegin call
  | publishAppend now ts id clock => exact h.publishAppend cfg now ts id clock
  | publishSend => exact h.publishSend
  | publishReturn delivered => exact h.publishReturn delivered hcur
  | restart => exact h.closed rfl rfl
  | _ =>
    simp only [Delivery.step]
    split
    · next c hc => exact h.onLink hc _
    · exact h

theorem inv_init : Inv State.init :=
  ⟨fun f hf => absurd hf (by simp [State.init, Store.empty, Db.empty, Table.empty]), fun c hc => (by cases hc)⟩

/-- Where the replay is over and no publish is under way, nothing is pending. -/
theorem Inv.delivered {s : State} (h : Inv s) : Delivered s := by
  intro c hc hfailed hlive hidle cursors clock hr f hf hdue
  rcases (h.link c hc).covered hfailed cursors clock hr f hf hdue with hsent | hpending
  · exact hsent
  · cases hpending with
    | replay hp => cases hlive.symm.trans hp
    | appended hp => exact absurd (Or.inl ⟨_, rfl⟩) (hidle _ hp)
    | sending hp => exact absurd (Or.inr ⟨_, rfl⟩) (hidle _ hp)

/-- **No event falls between replay and live sending.** In every run of the uplink and the store in which a
`send` that fails while a connection is open was started on that connection, every stored event that is due on
a connection without a failed `send` was sent on it, once its replay is over and no publish is between its
append and its `send` on it. -/
theorem events_delivered (acts : List Action) (hcur : Along (step cfg) FailsCurrent State.init acts) :
    Delivered (run (step cfg) State.init acts) :=
  (Along.invariant (fun _ act hC hI => Inv.step cfg hI act hC) acts hcur inv_init).delivered

end Datetime

/-! ### A send of an earlier connection that fails -/

/-- A status event of the sample attempt. -/
def sampleEventCall : EventCall := { SequenceNumbers.sampleCall with outbound := by decide }

/-- A publish up to its `send`. -/
def publishActs (t : Instant) (id : PyStr) : List Action :=
  [.publishBegin sampleEventCall, .publishAppend t t id ⟨t, t, t⟩, .publishSend]

/-- `connect_once` with a replay of one event at most. -/
def connectActs (t : Instant) : List Action :=
  [.connect, .welcome [], .hello, .queryReplay fun _ => t, .replayNext, .replayNext]

/-- The first event is being sent when its connection ends. -/
def droppedActs : List Action :=
  .store (.enqueue 0 samplePayload) :: connectActs 1000000 ++
    publishActs 2000000 (py "00000000-0000-4000-8000-000000000001") ++ [.disconnect]

/-- The second event, published on the next connection. -/
def secondActs : List Action :=
  publishActs 4000000 (py "00000000-0000-4000-8000-000000000002") ++ [.publishReturn true]

/-- The `send` of the first connection fails when the replay of the second is over. -/
def staleActs : List Action := droppedActs ++ connectActs 3000000 ++ .publishReturn false :: secondActs

/-- It fails before there is a second connection. -/
def promptActs : List Action := droppedActs ++ .publishReturn false :: connectActs 3000000 ++ secondActs

/-- What can be seen of the uplink: the number of the open connection, whether a `send` on it has failed,
whether its replay is over, whether a publish holds the lock, and the numbers of the attempt on the
connection. -/
def overview (s : State) : Option (ℕ × Bool × Bool × Bool × List ℕ) :=
  s.link.map fun c =>
    (c.number, c.failed, WireOrder.isLive c.phase, s.publishing.isSome, WireOrder.sentOf sampleAttempt c.toConnection)

/-- The rows above the cursors of the replay, each with whether its clock can decode it. -/
def dueRows (s : State) : Option (List (PyStr × ℕ × Bool)) :=
  s.link.bind fun c => c.replayed.map fun r => (s.store.db.events.rows.filter fun f =>
    cursor r.1 f.attemptId < f.seq).map fun f => (f.attemptId, f.seq, (@replayed? firstDay r.2 f).isSome)

theorem staleActs_overview :
    overview (run (@step firstDay sampleUplink) State.init staleActs) = some (1, false, true, false, [1]) ∧
    dueRows (run (@step firstDay sampleUplink) State.init staleActs) =
      some [(sampleAttempt, 1, true), (sampleAttempt, 2, true)] := by
  decide +kernel

theorem promptActs_overview :
    overview (run (@step firstDay sampleUplink) State.init promptActs) = some (1, false, true, false, [1, 2]) ∧
    dueRows (run (@step firstDay sampleUplink) State.init promptActs) =
      some [(sampleAttempt, 1, true), (sampleAttempt, 2, true)] := by
  decide +kernel


theorem Sent.mem_sentOf {c : Link} {f : EventRow} (h : Sent c f) :
    f.seq ∈ WireOrder.sentOf f.attemptId c.toConnection := by
  obtain ⟨e, he, ha, hn⟩ := h
  unfold WireOrder.sentOf WireOrder.numbersOf
  refine List.mem_filterMap.mpr ⟨e, List.mem_filterMap.mpr ⟨.event e, he, rfl⟩, ?_⟩
  unfold WireOrder.number?
  rw [if_pos ha, hn]

theorem live_of_isLive {p : Phase} (h : WireOrder.isLive p = true) : p = .live := by
  cases p with
  | live => rfl
  | _ => cases h

/-- The rows that are due, from `dueRows`. -/
theorem due_of_dueRows {s : State} {rows : List (PyStr × ℕ × Bool)} {a : PyStr} {n : ℕ}
    (h : dueRows s = some rows) (hn : (a, n, true) ∈ rows) :
    ∃ c cursors clock, s.link = some c ∧ c.replayed = some (cursors, clock) ∧
      ∃ f ∈ s.store.db.events.rows, f.attemptId = a ∧ f.seq = n ∧ @Due firstDay cursors clock f := by
  let _ := firstDay
  obtain ⟨c, hc, h⟩ := Option.bind_eq_some_iff.mp h
  obtain ⟨⟨cursors, clock⟩, hr, rfl⟩ := Option.map_eq_some_iff.mp h
  obtain ⟨f, hf, heq⟩ := List.mem_map.mp hn
  obtain ⟨hm, hlt⟩ := List.mem_filter.mp hf
  rw [Prod.mk.injEq, Prod.mk.injEq] at heq
  obtain ⟨rfl, rfl, hsome⟩ := heq
  refine ⟨c, cursors, clock, hc, hr, f, hm, rfl, rfl, of_decide_eq_true hlt, fun e hv hh => ?_⟩
  obtain ⟨x, hx⟩ := Option.isSome_iff_exists.mp hsome
  exact ((replayed?_eq_some hv hh x).mp hx).1.2

/-- On the second connection no `send` has failed and the replay is over, but the second event, appended and
due, is not sent on it: the failed `send` of the first connection had taken its socket away. -/
theorem delivery_broken :
    (∃ c cursors clock, (run (@step firstDay sampleUplink) State.init staleActs).link = some c ∧
      c.number = 1 ∧ c.failed = false ∧ c.phase = .live ∧
      (run (@step firstDay sampleUplink) State.init staleActs).publishing = none ∧
      c.replayed = some (cursors, clock) ∧
      ∃ f ∈ (run (@step firstDay sampleUplink) State.init staleActs).store.db.events.rows,
        f.attemptId = sampleAttempt ∧ f.seq = 2 ∧ @Due firstDay cursors clock f ∧ ¬ Sent c f) ∧
    ¬ @Delivered firstDay (run (@step firstDay sampleUplink) State.init staleActs) := by
  obtain ⟨hover, hrows⟩ := staleActs_overview
  generalize run (@step firstDay sampleUplink) State.init staleActs = s at hover hrows ⊢
  obtain ⟨c, cursors, clock, hc, hr, f, hf, ha, hn, hdue⟩ := due_of_dueRows hrows
    (List.mem_cons_of_mem _ List.mem_cons_self)
  obtain ⟨d, hd, heq⟩ := Option.map_eq_some_iff.mp hover
  cases hc.symm.trans hd
  simp only [Prod.mk.injEq] at heq
  obtain ⟨hnumber, hfailed, hlive, hidle, hsent⟩ := heq
  have hphase : c.phase = .live := live_of_isLive hlive
  have hnone : s.publishing = none := Option.isNone_iff_eq_none.mp (Option.isSome_eq_false_iff.mp hidle)
  have hmissing : ¬ Sent c f := by
    intro h
    have hmem := h.mem_sentOf
    rw [ha, hn, hsent] at hmem
    simp at hmem
  refine ⟨⟨c, cursors, clock, hc, hnumber, hfailed, hphase, hnone, hr, f, hf, ha, hn, hdue, hmissing⟩, ?_⟩
  intro hall
  refine hmissing (hall c hc hfailed hphase (fun p hp => ?_) cursors clock hr f hf hdue)
  rw [hnone] at hp
  cases hp

/-- A `send` that fails while a connection is open was started on it. -/
def failsCurrent (s : State) : Action → Bool
  | .publishReturn false =>
    match s.publishing, s.link with
    | some ⟨_, .sending _ k⟩, some c => c.number = k
    | _, _ => true
  | _ => true

theorem failsCurrent_of_check (s : State) (act : Action) (h : failsCurrent s act = true) :
    FailsCurrent s act := by
  unfold FailsCurrent
  split
  · intro call e k hp c hc
    simp only [failsCurrent, hp, hc, decide_eq_true_eq] at h
    exact h
  · trivial

theorem promptActs_failsCurrent :
    Along (@step firstDay sampleUplink) (fun s act => failsCurrent s act = true) State.init promptActs := by
  decide +kernel

/-- Where the `send` fails before the second connection is opened, both events are on it. -/
theorem events_delivered_prompt :
    overview (run (@step firstDay sampleUplink) State.init promptActs) = some (1, false, true, false, [1, 2]) ∧
    dueRows (run (@step firstDay sampleUplink) State.init promptActs) =
      some [(sampleAttempt, 1, true), (sampleAttempt, 2, true)] ∧
    @Delivered firstDay (run (@step firstDay sampleUplink) State.init promptActs) :=
  ⟨promptActs_overview.1, promptActs_overview.2, @events_delivered firstDay sampleUplink promptActs
    (promptActs_failsCurrent.imp failsCurrent_of_check)⟩

end BuildEngine.Agent.Delivery
