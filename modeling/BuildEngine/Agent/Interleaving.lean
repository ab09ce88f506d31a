import BuildEngine.Agent.Delivery

/-! # The two machines of the uplink

`Uplink.step` makes the `send` of a publish and its outcome one action; `Delivery.step` lets anything come
between them. Every run of the first is a run of the second (`uplink_interleaved`): the two read the same
code, and what holds of every run of the finer machine holds of the coarser one. -/

namespace BuildEngine.Agent.Interleaving

open BuildEngine.Base BuildEngine.Base.Run BuildEngine.Agent.Protocol BuildEngine.Agent.Uplink
open BuildEngine.Queue.Schema BuildEngine.Queue BuildEngine.Queue.Outbox BuildEngine.Queue.Ops

/-- The two publishes hold the lock with the same arguments and have come as far. -/
inductive SamePublish : Option Publish → Option Delivery.Publishing → Prop where
  | free : SamePublish none none
  | numbered (call : Delivery.EventCall) (n : ℕ) :
      SamePublish (some ⟨call.toPublishCall, n, none⟩) (some ⟨call, .numbered n⟩)
  | appended (call : Delivery.EventCall) (n : ℕ) (e : Envelope) :
      SamePublish (some ⟨call.toPublishCall, n, some e⟩) (some ⟨call, .appended e⟩)

/-- The same store, publish, connection and socket. -/
structure Matches (s : State) (t : Delivery.State) : Prop where
  store : t.store = s.store
  publishing : SamePublish s.publishing t.publishing
  connection : s.connection = t.link.map (·.toConnection)
  socket : t.ws = if s.attached then t.link.map (·.number) else none

theorem matches_init : Matches State.init Delivery.State.init := ⟨rfl, .free, rfl, rfl⟩

/-- A publish is of a type the engine sends. -/
def Outbound : Action → Prop
  | .publishBegin call => call.type ∈ outboundMessageTypes
  | _ => True

/-- The connection goes on, with the same number and socket. -/
theorem Matches.link {s : State} {t : Delivery.State} (h : Matches s t) {c : Delivery.Link} (hc : t.link = some c)
    {c' : Connection} {d : Delivery.Link} (hd : d.toConnection = c') (hnumber : d.number = c.number) :
    Matches { s with connection := some c' } { t with link := some d } := by
  refine ⟨h.store, h.publishing, by rw [← hd]; rfl, ?_⟩
  have hsocket := h.socket
  rw [hc] at hsocket
  simp only [Option.map_some, hnumber]
  exact hsocket

/-- The connection ends. -/
theorem Matches.closed {s : State} {t : Delivery.State} (h : Matches s t) (cs : List Connection) :
    Matches { s with attached := false, connection := none, closed := cs }
      { t with ws := none, link := none } := ⟨h.store, h.publishing, rfl, rfl⟩

/-! ### The steps of a publish -/

theorem Matches.publishBegin {s : State} {t : Delivery.State} (h : Matches s t) (call : Delivery.EventCall) :
    Matches (publishBegin call.toPublishCall s) (Delivery.publishBegin call t) := by
  unfold Uplink.publishBegin Delivery.publishBegin
  obtain ⟨hstore, hpublishing, hconnection, hsocket⟩ := h
  rcases s with ⟨store, p, published, raised, attached, connection, closed⟩
  rcases t with ⟨store', q, ws, link, opened⟩
  dsimp only at hstore hpublishing hconnection hsocket ⊢
  subst hstore
  cases hpublishing with
  | free =>
    dsimp only
    rcases nextSeq call.attemptId store'.db with x | n
    · exact ⟨rfl, .free, hconnection, hsocket⟩
    · exact ⟨rfl, .numbered call n, hconnection, hsocket⟩
  | numbered call' n => exact ⟨rfl, .numbered call' n, hconnection, hsocket⟩
  | appended call' n e => exact ⟨rfl, .appended call' n e, hconnection, hsocket⟩

section Datetime
variable [PyDatetime] (cfg : UplinkConfig)

theorem Matches.publishAppend {s : State} {t : Delivery.State} (h : Matches s t) (now ts : Instant)
    (id : PyStr) (clock : AppendClock) :
    Matches (publishAppend cfg now ts id clock s) (Delivery.publishAppend cfg now ts id clock t) := by
  unfold Uplink.publishAppend Delivery.publishAppend
  obtain ⟨hstore, hpublishing, hconnection, hsocket⟩ := h
  rcases s with ⟨store, p, published, raised, attached, connection, closed⟩
  rcases t with ⟨store', q, ws, link, opened⟩
  dsimp only at hstore hpublishing hconnection hsocket ⊢
  subst hstore
  cases hpublishing with
  | free => exact ⟨rfl, .free, hconnection, hsocket⟩
  | appended call n e => exact ⟨rfl, .appended call n e, hconnection, hsocket⟩
  | numbered call n =>
    dsimp only
    rcases newEnvelope now ts id call.type call.payload cfg.engineId (some call.buildJobId)
      (some call.attemptId) (some n) with x | e
    · exact ⟨rfl, .free, hconnection, hsocket⟩
    · dsimp only
      rcases append cfg.outbox clock e store'.db with ⟨x | u, db⟩
      · exact ⟨rfl, .free, hconnection, hsocket⟩
      · exact ⟨rfl, .appended call n e, hconnection, hsocket⟩

/-- The end of a publish is a read of the socket and, if there is one, the outcome of its `send`. -/
theorem Matches.publishFinish {s : State} {t : Delivery.State} (h : Matches s t) (delivered : Bool) :
    ∃ acts, Matches (publishFinish delivered s) (run (Delivery.step cfg) t acts) := by
  obtain ⟨hstore, hpublishing, hconnection, hsocket⟩ := h
  rcases s with ⟨store, p, published, raised, attached, connection, closed⟩
  rcases t with ⟨store', q, ws, link, opened⟩
  dsimp only at hstore hpublishing hconnection hsocket
  subst hstore hconnection hsocket
  cases hpublishing with
  | free => exact ⟨[], rfl, .free, rfl, rfl⟩
  | numbered call n => exact ⟨[], rfl, .numbered call n, rfl, rfl⟩
  | appended call n e =>
    rcases attached with _ | _
    · exact ⟨[.publishSend], rfl, .free, rfl, rfl⟩
    · rcases link with _ | c
      · exact ⟨[.publishSend], rfl, .free, rfl, rfl⟩
      · refine ⟨[.publishSend, .publishReturn delivered], ?_⟩
        rcases delivered with _ | _
        · refine ⟨rfl, .free, ?_, rfl⟩
          show some c.toConnection = some (c.fail c.number).toConnection
          unfold Delivery.Link.fail
          rw [if_pos rfl]
        · have hdeliver : c.deliver c.number e = { c with sent := c.sent ++ [.event e] } := if_pos rfl
          refine ⟨rfl, .free, ?_, ?_⟩
          · show some (c.toConnection.send (.event e)) = some (c.deliver c.number e).toConnection
            rw [hdeliver]
            rfl
          · show some c.number = some (c.deliver c.number e).number
            rw [hdeliver]

/-! ### Whole runs -/

/-- An action of `connect_once`, the heartbeat or the pong. -/
theorem Matches.onConnection {s : State} {t : Delivery.State} (h : Matches s t) {c : Delivery.Link}
    (hc : t.link = some c) (act : Action) :
    ∃ acts, Matches (onConnection s c.toConnection act) (run (Delivery.step cfg) t acts) := by
  obtain ⟨⟨phase, sent⟩, number, failed, replayed⟩ := c
  cases act with
  | welcome cursors =>
    refine ⟨[.welcome cursors], ?_⟩
    simp only [run_cons, run_nil, Delivery.step, hc, Delivery.onLink, Uplink.onConnection]
    rcases phase with _ | _ | _ | _ | _ <;> try exact h
    exact h.link hc rfl rfl
  | hello =>
    refine ⟨[.hello], ?_⟩
    simp only [run_cons, run_nil, Delivery.step, hc, Delivery.onLink, Uplink.onConnection]
    rcases phase with _ | _ | _ | _ | _ <;> try exact h
    exact h.link hc rfl rfl
  | queryReplay clock =>
    refine ⟨[.queryReplay clock], ?_⟩
    have hdb : t.store.db = s.store.db := by rw [h.store]
    simp only [run_cons, run_nil, Delivery.step, hc, Delivery.onLink, Uplink.onConnection, hdb]
    rcases phase with _ | _ | cursors | _ | _ <;> try exact h
    dsimp only
    rcases replayAfter clock cursors s.store.db with x | es
    · exact h.closed _
    · exact h.link hc rfl rfl
  | replayNext =>
    refine ⟨[.replayNext], ?_⟩
    simp only [run_cons, run_nil, Delivery.step, hc, Delivery.onLink, Uplink.onConnection]
    rcases phase with _ | _ | _ | rest | _ <;> try exact h
    rcases rest with _ | ⟨e, rest⟩ <;> exact h.link hc rfl rfl
  | heartbeat =>
    refine ⟨[.heartbeat], ?_⟩
    simp only [run_cons, run_nil, Delivery.step, hc, Delivery.onLink, Uplink.onConnection]
    rcases phase with _ | _ | _ | _ | _ <;> first | exact h | exact h.link hc rfl rfl
  | pong =>
    refine ⟨[.pong], ?_⟩
    simp only [run_cons, run_nil, Delivery.step, hc, Delivery.onLink, Uplink.onConnection]
    rcases phase with _ | _ | _ | _ | _ <;> try exact h
    exact h.link hc rfl rfl
  | disconnect =>
    refine ⟨[.disconnect], ?_⟩
    simp only [run_cons, run_nil, Delivery.step, hc]
    exact h.closed _
  | _ => exact ⟨[], h⟩

/-- An action of the coarser machine is a run of the finer one. -/
theorem Matches.step {s : State} {t : Delivery.State} (h : Matches s t) (act : Action) (hout : Outbound act) :
    ∃ acts, Matches (step cfg s act) (run (Delivery.step cfg) t acts) := by
  cases act with
  | store op =>
    refine ⟨[.store op], ?_⟩
    simp only [run_cons, run_nil, Uplink.step, Delivery.step]
    split_ifs
    · exact ⟨by rw [h.store], h.publishing, h.connection, h.socket⟩
    · exact h
  | connect =>
    refine ⟨[.connect], ?_⟩
    have hconn := h.connection
    rcases hc : t.link with _ | c <;> rw [hc] at hconn <;>
      simp only [run_cons, run_nil, Uplink.step, Delivery.step, hconn, hc, Option.map_none, Option.map_some]
    · exact ⟨h.store, h.publishing, rfl, rfl⟩
    · exact h
  | publishBegin call => exact ⟨[.publishBegin ⟨call, hout⟩], h.publishBegin ⟨call, hout⟩⟩
  | publishAppend now ts id clock =>
    exact ⟨[.publishAppend now ts id clock], h.publishAppend cfg now ts id clock⟩
  | publishFinish delivered => exact h.publishFinish cfg delivered
  | _ =>
    simp only [Uplink.step, h.connection]
    rcases hc : t.link with _ | c
    · exact ⟨[], h⟩
    · exact h.onConnection cfg hc _

/-- **The finer machine covers the coarser one.** Every run of `Uplink.step` in which the publishes are of
types the engine sends leads to the store, the publish, the connection and the socket of some run of
`Delivery.step`. -/
theorem uplink_interleaved (acts : List Action) (hout : ∀ act ∈ acts, Outbound act) :
    ∃ acts', Matches (run (step cfg) State.init acts) (run (Delivery.step cfg) Delivery.State.init acts') :=
  run_refined (fun _ _ act h hact => h.step cfg act hact) acts hout matches_init

end Datetime

end BuildEngine.Agent.Interleaving
