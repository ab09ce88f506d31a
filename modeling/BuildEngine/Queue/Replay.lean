import BuildEngine.Agent.RoundTrip
import BuildEngine.Queue.AppendAtomicity

/-! # Replay after a reconnect

`replay_after` decodes every stored row a second time, with the validator of inbound frames. In a run that
appends valid envelopes every row holds the text of one (`stored_run`), so the call succeeds and returns the
rows that are above the cursors, of an outbound type, and *stamped within five minutes of the clock that
decodes them* (`mem_replayAfter`). An event that was appended, not acknowledged and not pruned is still
stored (`Outstanding.stored`), but it is returned only under that condition on the clock. -/

namespace BuildEngine.Queue.Replay

open BuildEngine.Base BuildEngine.Base.Json BuildEngine.Base.Run BuildEngine.Agent.Protocol
open BuildEngine.Queue.Schema BuildEngine.Queue BuildEngine.Queue.Store BuildEngine.Queue.Outbox
open BuildEngine.Queue.Ops BuildEngine.Queue.Events BuildEngine.Queue.AppendAtomicity

/-! ### Events that must not be lost -/

/-- The call acknowledges the event `n` of the attempt `a`. -/
def Acknowledges (a : PyStr) (n : ℕ) : Op → Prop
  | .ackThrough a' m => a' = a ∧ n ≤ m
  | _ => False

/-- The call prunes. -/
def Prunes : Op → Prop
  | .append _ _ _ | .prune _ _ | .pruneTerminal _ _ => True
  | _ => False

/-- The pruning of the call removes the event `n` of the attempt `a`. -/
def PrunesEvent (a : PyStr) (n : ℕ) (s : Store) (op : Op) : Prop :=
  Prunes op ∧ (s.db.event? a n).isSome ∧ (apply s op).db.event? a n = none

/-- The event `n` of the attempt `a` was appended with the envelope `e` in the run, and neither acknowledged
nor pruned since. -/
def Outstanding (e : Envelope) (a : PyStr) (n : ℕ) (ops : List Op) : Prop :=
  ∃ before cfg clock after, ops = before ++ .append cfg clock e :: after ∧
    e.attemptId = some a ∧ e.seq = some n ∧
    (append cfg clock e (run apply Store.empty before).db).1 = .ok () ∧
    ((append cfg clock e (run apply Store.empty before).db).2.event? a n).isSome ∧
    Along apply (fun s op => ¬ Acknowledges a n op ∧ ¬ PrunesEvent a n s op)
      (apply (run apply Store.empty before) (.append cfg clock e)) after

/-- The row holds the text of the envelope. -/
structure Holds (f : EventRow) (e : Envelope) : Prop where
  attemptId : e.attemptId = some f.attemptId
  seq : e.seq = some f.seq
  text : e.toJson = .ok f.envelopeJson

/-- The row an append that returns leaves, unless it prunes it itself. -/
theorem holds_append {cfg : OutboxConfig} {clock : AppendClock} {e : Envelope} {db : Db} {a : PyStr}
    {n : ℕ} (ha : e.attemptId = some a) (hn : e.seq = some n) (hok : (append cfg clock e db).1 = .ok ())
    (hpresent : ((append cfg clock e db).2.event? a n).isSome) :
    ∃ f, (append cfg clock e db).2.event? a n = some f ∧ Holds f e := by
  obtain ⟨f, hf⟩ := Option.isSome_iff_exists.mp hpresent
  refine ⟨f, hf, ?_⟩
  have hstep := append_step cfg clock e db
  generalize (append cfg clock e db).1 = result, (append cfg clock e db).2 = db₁ at hstep hf hok
  cases hstep with
  | refused => cases hok
  | repeated ha' hn' _ hr ht =>
    cases ha.symm.trans ha'
    cases hn.symm.trans hn'
    cases hr.symm.trans hf
    obtain ⟨-, rfl, rfl⟩ := mem_of_event? hf
    exact ⟨ha, hn, ht⟩
  | inserted ha' hn' _ ht hi =>
    cases ha.symm.trans ha'
    cases hn.symm.trans hn'
    obtain ⟨hm, hfa, hfn⟩ := mem_of_event? hf
    have hraised := mem_pruneSync hm
    -- the only row of the number is the inserted one
    have hnew := (mem_events_insert hi).mpr (Or.inr rfl)
    cases Db.unique_seq _ f hraised _ hnew hfa hfn
    exact ⟨ha, hn, ht⟩

/-- The rows after an append are those before it, and the row of its envelope. -/
theorem mem_of_appendStep {cfg : OutboxConfig} {clock : AppendClock} {e : Envelope} {db db' : Db}
    {result : Except OutboxError Unit} {f : EventRow} (h : AppendStep cfg clock e db result db')
    (hf : f ∈ db'.events.rows) :
    f ∈ db.events.rows ∨ ∃ n, e.seq = some n ∧ n < maxSqliteInt ∧ Holds f e := by
  cases h with
  | refused => exact Or.inl hf
  | repeated => exact Or.inl hf
  | inserted ha hn hlt ht hi =>
    have hraised := mem_pruneSync hf
    rcases (mem_events_insert hi).mp hraised with hold | rfl
    · exact Or.inl hold
    · exact Or.inr ⟨_, hn, hlt, ha, hn, ht⟩

theorem event?_congr {db db' : Db} (h : db'.events = db.events) (a : PyStr) (n : ℕ) :
    db'.event? a n = db.event? a n := by
  unfold Db.event?; rw [h]

/-- An event that is still there after a call is the same row. -/
theorem event?_apply_eq {s : Store} {op : Op} {a : PyStr} {n : ℕ} {f g : EventRow}
    (hf : s.db.event? a n = some f) (hg : (apply s op).db.event? a n = some g) : g = f := by
  obtain ⟨hfm, hfa, hfn⟩ := mem_of_event? hf
  obtain ⟨hgm, hga, hgn⟩ := mem_of_event? hg
  rcases mem_events_apply hgm with hold | hins
  · exact s.db.unique_seq g hold f hfm (hga.trans hfa.symm) (hgn.trans hfn.symm)
  · obtain ⟨cfg, clock, e, text, rfl, ha, hs, ht, hrow⟩ := hins
    -- an append under a number in use inserts nothing
    have hstep := append_step cfg clock e s.db
    change (append cfg clock e s.db).2.event? a n = some g at hg
    generalize (append cfg clock e s.db).1 = result, (append cfg clock e s.db).2 = db₁ at hstep hg
    cases hstep with
    | refused => exact Option.some.inj (hg.symm.trans hf)
    | repeated => exact Option.some.inj (hg.symm.trans hf)
    | inserted ha' hs' _ _ hi =>
      cases ha.symm.trans ha'
      cases hs.symm.trans hs'
      have hnone := event?_none_of_insert hi
      rw [show (eventRow e.id g.attemptId g.seq e.type _ clock.created).attemptId = a from hga,
        show (eventRow e.id g.attemptId g.seq e.type _ clock.created).seq = n from hgn, hf] at hnone
      cases hnone

/-- A call that neither acknowledges nor prunes an event keeps its row. -/
theorem event?_apply {s : Store} {op : Op} {a : PyStr} {n : ℕ} {f : EventRow}
    (hf : s.db.event? a n = some f) (hack : ¬ Acknowledges a n op) (hprune : ¬ PrunesEvent a n s op) :
    (apply s op).db.event? a n = some f := by
  have hpruned : Prunes op → (apply s op).db.event? a n = some f := by
    intro hp
    rcases hg : (apply s op).db.event? a n with _ | g
    · exact absurd ⟨hp, by rw [hf]; rfl, hg⟩ hprune
    · rw [event?_apply_eq hf hg]
  cases op with
  | enqueue now payload => exact (event?_congr (events_enqueue s now payload) a n).trans hf
  | acquireLease now token owner timeout =>
    exact (event?_congr (events_acquireLease s now token owner timeout) a n).trans hf
  | refreshLease now a' owner timeout token =>
    exact (event?_congr (events_refreshLease s now a' owner timeout token) a n).trans hf
  | transition now a' state error expected owner token =>
    exact (event?_congr (events_transition s now a' state error expected owner token) a n).trans hf
  | requestCancel now b a' => exact hf
  | recordExecutorCrash now a' error owner token =>
    exact (event?_congr (events_recordExecutorCrash s now a' error owner token) a n).trans hf
  | pruneTerminal now retention => exact hpruned trivial
  | append cfg clock e => exact hpruned trivial
  | ackThrough a' m =>
    show (ackThrough a' m s.db).2.event? a n = some f
    unfold ackThrough
    split_ifs
    · exact hf
    · obtain ⟨hm, rfl, rfl⟩ := mem_of_event? hf
      refine event?_of_mem (mem_events_deleteEvents.mpr ⟨hm, ?_⟩)
      by_contra hp
      rw [Bool.not_eq_false, Bool.and_eq_true, decide_eq_true_eq, decide_eq_true_eq] at hp
      exact hack ⟨hp.1.symm, hp.2⟩
  | prune cfg now => exact hpruned trivial
  | restart => exact hf

/-- An outstanding event is stored. -/
theorem Outstanding.stored {e : Envelope} {a : PyStr} {n : ℕ} {ops : List Op}
    (h : Outstanding e a n ops) :
    ∃ f, (run apply Store.empty ops).db.event? a n = some f ∧ Holds f e := by
  obtain ⟨before, cfg, clock, after, rfl, ha, hn, hok, hpresent, halong⟩ := h
  obtain ⟨f, hf, hholds⟩ := holds_append ha hn hok hpresent
  refine ⟨f, ?_, hholds⟩
  rw [run_append]
  exact Along.invariant (I := fun s : Store => s.db.event? a n = some f)
    (fun s op hC hI => event?_apply hI hC.1 hC.2) after halong hf

/-! ### The rows of a run -/

/-- The rows above the cursors, in the order of the query. -/
def rowsAbove (cursors : List (PyStr × ℕ)) (db : Db) : List EventRow :=
  (db.events.select (fun _ => true) eventOrder).filter fun f => cursor cursors f.attemptId < f.seq

theorem mem_rowsAbove {cursors : List (PyStr × ℕ)} {db : Db} {f : EventRow} :
    f ∈ rowsAbove cursors db ↔ f ∈ db.events.rows ∧ cursor cursors f.attemptId < f.seq := by
  rw [rowsAbove, List.mem_filter, Table.mem_select]
  simp

section Datetime
variable [PyDatetime]

/-- The run appends valid envelopes only. -/
def ValidAppends (ops : List Op) : Prop := ∀ cfg clock e, .append cfg clock e ∈ ops → Valid e

/-- Every row holds the text of a valid envelope. -/
def RowsValid (db : Db) : Prop := ∀ f ∈ db.events.rows, ∃ e, Valid e ∧ Holds f e

theorem rowsValid_apply {s : Store} {op : Op} (h : RowsValid s.db)
    (hop : ∀ cfg clock e, op = .append cfg clock e → Valid e) : RowsValid (apply s op).db := by
  intro f hf
  rcases mem_events_apply hf with hold | ⟨cfg, clock, e, text, rfl, ha, hs, ht, hrow⟩
  · exact h f hold
  · refine ⟨e, hop cfg clock e rfl, ha, hs, ?_⟩
    rw [hrow]; exact ht

theorem rowsValid_run : ∀ (ops : List Op) {s : Store}, RowsValid s.db → ValidAppends ops →
    RowsValid (run apply s ops).db
  | [], _, h, _ => h
  | _ :: ops, _, h, hv =>
    rowsValid_run ops (rowsValid_apply h fun cfg clock e he => hv cfg clock e (he ▸ List.mem_cons_self))
      fun cfg clock e he => hv cfg clock e (List.mem_cons_of_mem _ he)

/-! ### Reading a row back -/

theorem replayKey_of_holds {f : EventRow} {e : Envelope} (hv : Valid e) (h : Holds f e) :
    replayKey f.envelopeJson = .ok (f.seq, f.attemptId) := by
  have hrep := (represents_toDict e).sorted (nodup_of_wf hv.wf)
  unfold replayKey
  rw [loads_toJson hv.wf h.text]
  simp only [hrep.seq, hrep.attemptId, show e.sorted.seq = some f.seq from h.seq,
    show e.sorted.attemptId = some f.attemptId from h.attemptId, Option.map_some, Option.getD_some]

/-- Decoding a row is decoding its text as a frame: the second writing gives the text again. -/
theorem decodeRow_of_holds {f : EventRow} {e : Envelope} (hv : Valid e) (h : Holds f e) (now : Instant) :
    decodeRow now f = decodeFrame now outboundMessageTypes f.envelopeJson := by
  have hrep := (represents_toDict e).sorted (nodup_of_wf hv.wf)
  unfold decodeRow
  rw [loads_toJson hv.wf h.text]
  dsimp only
  rw [hrep.setDefault_engineId, ← (of_toJson h.text).1]

/-- The rows above the cursors. -/
theorem replayRows_of_valid (cursors : List (PyStr × ℕ)) : ∀ {rows : List EventRow},
    (∀ f ∈ rows, ∃ e, Valid e ∧ Holds f e) →
    replayRows cursors rows = .ok (rows.filter fun f => cursor cursors f.attemptId < f.seq)
  | [], _ => rfl
  | f :: rows, h => by
    obtain ⟨e, hv, hh⟩ := h f List.mem_cons_self
    rw [replayRows, replayKey_of_holds hv hh,
      replayRows_of_valid cursors fun g hg => h g (List.mem_cons_of_mem _ hg)]
    simp only [gt_iff_lt, Nat.cast_lt, List.filter_cons, decide_eq_true_eq]

/-- The envelope a row is replayed as, if it is. -/
def replayed? (clock : EventRow → Instant) (f : EventRow) : Option Envelope :=
  match decodeRow (clock f) f with
  | .ok e => some e
  | .error _ => none

/-- The row of a valid envelope is decoded to it, or skipped. -/
theorem decodeRow_cases {f : EventRow} {e : Envelope} (hv : Valid e) (h : Holds f e) (now : Instant) :
    (e.type ∈ outboundMessageTypes ∧ Fresh now e ∧ decodeRow now f = .ok e.sorted) ∨
    (¬ (e.type ∈ outboundMessageTypes ∧ Fresh now e) ∧
      ∃ err, decodeRow now f = .error (.protocol err)) := by
  have hne : outboundMessageTypes ≠ [] := by decide
  obtain ⟨hok, herr⟩ := decodeFrame_toJson hv h.text now hne
  rw [decodeRow_of_holds hv h]
  by_cases hr : e.type ∈ outboundMessageTypes ∧ Fresh now e
  · exact Or.inl ⟨hr.1, hr.2, hok hr⟩
  · exact Or.inr ⟨hr, herr hr⟩

/-- A row is replayed exactly if its type goes out and its timestamp is within the skew. -/
theorem replayed?_eq_some {clock : EventRow → Instant} {f : EventRow} {e : Envelope} (hv : Valid e)
    (h : Holds f e) (x : Envelope) : replayed? clock f = some x ↔
      (e.type ∈ outboundMessageTypes ∧ Fresh (clock f) e) ∧ x = e.sorted := by
  unfold replayed?
  rcases decodeRow_cases hv h (clock f) with ⟨hty, hfresh, hd⟩ | ⟨hno, err, hd⟩
  · rw [hd]
    simp only [Option.some.injEq, hty, hfresh, true_and]
    exact eq_comm
  · rw [hd]
    simp only [reduceCtorEq, false_iff]
    exact fun hx => hno hx.1

/-- The loop of `replay_after` succeeds, and returns what the rows are replayed as, in their order. -/
theorem replayEvents_of_valid (clock : EventRow → Instant) (cursors : List (PyStr × ℕ)) :
    ∀ {rows : List EventRow}, (∀ f ∈ rows, ∃ e, Valid e ∧ Holds f e) →
    (∀ f ∈ rows, cursor cursors f.attemptId < f.seq) →
    replayEvents clock cursors rows = .ok (rows.filterMap (replayed? clock))
  | [], _, _ => rfl
  | f :: rows, h, hc => by
    have ih := replayEvents_of_valid clock cursors
      (fun g hg => h g (List.mem_cons_of_mem _ hg)) fun g hg => hc g (List.mem_cons_of_mem _ hg)
    obtain ⟨e, hv, hh⟩ := h f List.mem_cons_self
    rw [replayEvents, ih, List.filterMap_cons, replayed?]
    rcases decodeRow_cases hv hh (clock f) with ⟨-, -, hd⟩ | ⟨-, err, hd⟩
    · rw [hd]
      simp only [show e.sorted.attemptId = some f.attemptId from hh.attemptId,
        show e.sorted.seq = some f.seq from hh.seq, gt_iff_lt, hc f List.mem_cons_self, if_true]
    · rw [hd]

/-- **What `replay_after` returns** where every row holds a valid envelope. -/
theorem replayAfter_of_valid {db : Db} (h : RowsValid db) (clock : EventRow → Instant)
    (cursors : List (PyStr × ℕ)) :
    replayAfter clock cursors db = .ok ((rowsAbove cursors db).filterMap (replayed? clock)) := by
  unfold replayAfter
  rw [replayRows_of_valid cursors fun f hf => h f (Table.mem_select.mp hf).1]
  exact replayEvents_of_valid clock cursors (fun f hf => h f (mem_rowsAbove.mp hf).1)
    fun f hf => (mem_rowsAbove.mp hf).2

/-! ### Lost events -/

/-- The event is among those `replay_after` returns. -/
def Returned (e : Envelope) (clock : EventRow → Instant) (cursors : List (PyStr × ℕ)) (db : Db) : Prop :=
  ∃ es, replayAfter clock cursors db = .ok es ∧ e.sorted ∈ es

/-- **When an outstanding event is replayed.** In every run that appends valid envelopes, an event that
was appended, not acknowledged and not pruned, and is above the cursor of its attempt, is returned by
`replay_after` exactly if its type is one the engine sends and its timestamp is within five minutes of the
clock reading made when its row is decoded. -/
theorem replay_returns_iff (ops : List Op) (e : Envelope) (a : PyStr) (n : ℕ)
    (clock : EventRow → Instant) (cursors : List (PyStr × ℕ)) (hvalid : ValidAppends ops)
    (hout : Outstanding e a n ops) (hcursor : cursor cursors a < n) :
    Returned e clock cursors (run apply Store.empty ops).db ↔
      e.type ∈ outboundMessageTypes ∧
        ∀ f, (run apply Store.empty ops).db.event? a n = some f → Fresh (clock f) e := by
  have hempty : RowsValid Store.empty.db := fun f hf => absurd hf (by simp [Store.empty, Db.empty, Table.empty])
  have hrows := rowsValid_run ops hempty hvalid
  obtain ⟨f, hf, hholds⟩ := hout.stored
  have hv : Valid e := by
    obtain ⟨before, cfg, clock', after, rfl, -⟩ := hout
    exact hvalid cfg clock' e (by simp)
  obtain ⟨hm, rfl, rfl⟩ := mem_of_event? hf
  unfold Returned
  rw [replayAfter_of_valid hrows]
  simp only [Except.ok.injEq, exists_eq_left', List.mem_filterMap, hf, Option.some.injEq,
    forall_eq']
  constructor
  · rintro ⟨g, hg, hx⟩
    obtain ⟨e', hv', hh'⟩ := hrows g (mem_rowsAbove.mp hg).1
    have hx' := ((replayed?_eq_some hv' hh' _).mp hx).2
    -- the row it came from has the event's own number
    have hga : g.attemptId = f.attemptId := by
      have : e.sorted.attemptId = e'.sorted.attemptId := by rw [hx']
      exact (Option.some.inj ((hholds.attemptId.symm.trans this).trans hh'.attemptId)).symm
    have hgn : g.seq = f.seq := by
      have : e.sorted.seq = e'.sorted.seq := by rw [hx']
      exact (Option.some.inj ((hholds.seq.symm.trans this).trans hh'.seq)).symm
    cases Db.unique_seq _ g (mem_rowsAbove.mp hg).1 f hm hga hgn
    exact ((replayed?_eq_some hv hholds _).mp hx).1
  · intro hr
    exact ⟨f, mem_rowsAbove.mpr ⟨hm, hcursor⟩, (replayed?_eq_some hv hholds _).mpr ⟨hr, rfl⟩⟩

end Datetime

/-! ### An event that is lost -/

/-- The first event of the sample attempt. -/
def firstEvent : Envelope := sampleEvent (py "00000000-0000-4000-8000-000000000001") 1

/-- A run that appends it. -/
def appendOps : List Op :=
  [.enqueue 0 samplePayload, .append sampleConfig ⟨1000000, 1000000, 1000000⟩ firstEvent]

theorem exists_of_isOk {α ε : Type} {x : Except ε α} (h : x.isOk = true) : ∃ a, x = .ok a := by
  cases x with
  | error => cases h
  | ok a => exact ⟨a, rfl⟩

theorem valid_firstEvent : @Valid firstDay firstEvent :=
  let _ := firstDay
  ⟨⟨1000000, exists_of_isOk (by decide +kernel)⟩, by unfold WF; decide +kernel⟩

theorem validAppends_appendOps : @ValidAppends firstDay appendOps := by
  intro cfg clock e he
  simp only [appendOps, List.mem_cons, reduceCtorEq, false_or, Op.append.injEq, List.not_mem_nil,
    or_false] at he
  rw [he.2.2]; exact valid_firstEvent

theorem outstanding_firstEvent : Outstanding firstEvent sampleAttempt 1 appendOps :=
  ⟨[.enqueue 0 samplePayload], sampleConfig, ⟨1000000, 1000000, 1000000⟩, [], rfl, rfl, rfl,
    (exists_of_isOk (by decide +kernel)).choose_spec, by decide +kernel, trivial⟩

theorem parse_firstEvent : @parseTimestamp firstDay firstEvent.ts = .ok 1000000 := rfl

/-- Six minutes and forty seconds after the append, the event is stored, unacknowledged, and not
returned. -/
theorem replay_loses_old_event :
    @ValidAppends firstDay appendOps ∧ Outstanding firstEvent sampleAttempt 1 appendOps ∧
    cursor [] sampleAttempt < 1 ∧
    @replayAfter firstDay (fun _ => 400000000) [] (run apply Store.empty appendOps).db = .ok [] ∧
    ¬ @Returned firstDay firstEvent (fun _ => 400000000) [] (run apply Store.empty appendOps).db := by
  let _ := firstDay
  have hreplay : replayAfter (fun _ => 400000000) [] (run apply Store.empty appendOps).db = .ok [] := by
    obtain ⟨es, hes⟩ : ∃ es, replayAfter (fun _ => 400000000) []
        (run apply Store.empty appendOps).db = .ok es := exists_of_isOk (by decide +kernel)
    have hnil : ((replayAfter (fun _ => 400000000) []
        (run apply Store.empty appendOps).db).toOption.all List.isEmpty) = true := by decide +kernel
    rw [hes] at hnil ⊢
    rw [List.isEmpty_iff.mp hnil]
  refine ⟨validAppends_appendOps, outstanding_firstEvent, by decide, hreplay, ?_⟩
  rintro ⟨es, hes, hm⟩
  rw [hreplay] at hes
  cases hes
  cases hm

/-- One second after the append the event is returned. -/
theorem replay_returns_iff_fresh :
    @Returned firstDay firstEvent (fun _ => 2000000) [] (run apply Store.empty appendOps).db := by
  let _ := firstDay
  refine (replay_returns_iff appendOps firstEvent sampleAttempt 1 (fun _ => 2000000) []
    validAppends_appendOps outstanding_firstEvent (by decide)).mpr ⟨by decide, fun f _ => ?_⟩
  exact ⟨1000000, parse_firstEvent, by decide⟩

end BuildEngine.Queue.Replay
