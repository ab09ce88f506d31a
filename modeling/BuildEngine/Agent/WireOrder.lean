import BuildEngine.Agent.SequenceNumbers
import BuildEngine.Queue.Replay

/-! # The order of frames on a connection

The first frame of a connection is to be `hello`, and the numbers of an attempt's events are to appear on it
for the first time in increasing order. Replay and live publishes write to the same socket, and
`publish_attempt_event` looks only at whether there is one. `Awaits` names the events the replay of a
connection has still to send; a publish keeps the order if it comes after `hello` and is not above an
event its attempt still awaits (`SendsInOrder`), and the replay is in order if the clock has not been set back
between the appends of an attempt (`ClockInOrder`). -/

namespace BuildEngine.Agent.WireOrder

open BuildEngine.Base BuildEngine.Base.Run BuildEngine.Agent.Protocol BuildEngine.Agent.Uplink
open BuildEngine.Agent.SequenceNumbers BuildEngine.Queue.Schema BuildEngine.Queue
open BuildEngine.Queue.Store BuildEngine.Queue.Outbox BuildEngine.Queue.Ops BuildEngine.Queue.Events
open BuildEngine.Queue.Replay

/-! ### First appearances -/

/-- Every number that appears for the first time is above all numbers before it. -/
def FirstIncreasing (l : List ℕ) : Prop :=
  ∀ before n after, l = before ++ n :: after → n ∈ before ∨ ∀ m ∈ before, m < n

theorem firstIncreasing_nil : FirstIncreasing [] := by
  intro before n after h
  simp at h

/-- A number that was there before, or is at least as large as all before it, may follow. -/
theorem FirstIncreasing.concat {l : List ℕ} {n : ℕ} (h : FirstIncreasing l)
    (hn : n ∈ l ∨ ∀ m ∈ l, m ≤ n) : FirstIncreasing (l ++ [n]) := by
  intro before k after heq
  rcases List.eq_nil_or_concat after with rfl | ⟨after', k', rfl⟩
  · obtain ⟨rfl, hk⟩ := List.append_inj' heq rfl
    cases hk
    rcases hn with hmem | hle
    · exact Or.inl hmem
    · by_cases hmem : n ∈ l
      · exact Or.inl hmem
      · exact Or.inr fun m hm => lt_of_le_of_ne (hle m hm) fun he => hmem (he ▸ hm)
  · have hl : l = before ++ k :: after' := by
      have heq' : l ++ [n] = (before ++ k :: after') ++ [k'] := by rw [heq]; simp
      exact (List.append_inj' heq' rfl).1
    exact h before k after' hl

/-! ### What is on the wire -/

/-- The event of a frame. -/
def envelope? : Frame → Option Envelope
  | .event e => some e
  | _ => none

/-- The number of an envelope of the attempt. -/
def number? (a : PyStr) (e : Envelope) : Option ℕ := if e.attemptId = some a then e.seq else none

/-- The numbers of the attempt among the envelopes, in order. -/
def numbersOf (a : PyStr) (es : List Envelope) : List ℕ := es.filterMap (number? a)

/-- The numbers of the attempt sent on a connection, in order. -/
def sentOf (a : PyStr) (c : Connection) : List ℕ := numbersOf a (c.sent.filterMap envelope?)

/-- `hello` is the first frame, and each attempt's numbers appear in increasing order. -/
def InOrder (c : Connection) : Prop :=
  (∀ f ∈ c.sent.head?, f = .hello) ∧ ∀ a, FirstIncreasing (sentOf a c)

theorem sentOf_send_event (a : PyStr) (c : Connection) (e : Envelope) :
    sentOf a (c.send (.event e)) = sentOf a c ++ (number? a e).toList := by
  unfold sentOf numbersOf Connection.send
  rw [List.filterMap_append, List.filterMap_append]
  congr 1

theorem sentOf_send {f : Frame} (hf : envelope? f = none) (a : PyStr) (c : Connection) :
    sentOf a (c.send f) = sentOf a c := by
  unfold sentOf Connection.send
  rw [List.filterMap_append, List.filterMap_cons, hf, List.filterMap_nil, List.append_nil]

theorem head_send {c : Connection} (hc : c.sent ≠ []) (f : Frame) :
    (c.send f).sent.head? = c.sent.head? := List.head?_append_of_ne_nil _ hc

/-- The number was sent before, or is not below those sent. -/
def Fits (c : Connection) (a : PyStr) (n : ℕ) : Prop := n ∈ sentOf a c ∨ ∀ m ∈ sentOf a c, m ≤ n

/-- Such an event keeps the order. -/
theorem InOrder.send_event {c : Connection} (h : InOrder c) (hc : c.sent ≠ []) {e : Envelope}
    (he : ∀ a n, number? a e = some n → Fits c a n) : InOrder (c.send (.event e)) := by
  refine ⟨by rw [head_send hc]; exact h.1, fun a => ?_⟩
  rw [sentOf_send_event]
  rcases hn : number? a e with _ | n
  · simpa using h.2 a
  · exact (h.2 a).concat (he a n hn)

/-- A frame that is no event keeps the order. -/
theorem InOrder.send_other {c : Connection} (h : InOrder c) (hc : c.sent ≠ []) {f : Frame}
    (hf : envelope? f = none) : InOrder (c.send f) := by
  refine ⟨by rw [head_send hc]; exact h.1, fun a => ?_⟩
  rw [sentOf_send hf]; exact h.2 a

/-! ### What the replay has still to send -/

/-- `hello` has been sent. -/
def greeting : Phase → Bool
  | .opened | .welcomed _ => false
  | _ => true

/-- The replay of the connection may still send the event `n` of the attempt `a`. -/
def Awaits (db : Db) (c : Connection) (a : PyStr) (n : ℕ) : Prop :=
  match c.phase with
  | .greeted cursors => ∃ f ∈ db.events.rows, f.attemptId = a ∧ f.seq = n ∧ cursor cursors a < n
  | .replaying rest => n ∈ numbersOf a rest
  | _ => False

/-- What holds of the open connection. -/
structure ConnInv (db : Db) (c : Connection) : Prop where
  order : InOrder c
  below : ∀ a, ∀ n ∈ sentOf a c, ∃ r, db.job? a = some r ∧ n ≤ r.sequenceCursor
  silent : greeting c.phase = false → c.sent = []
  greeted : greeting c.phase = true → c.sent ≠ []
  awaits : ∀ a n, Awaits db c a n → Fits c a n
  sorted : ∀ rest, c.phase = .replaying rest → ∀ a, (numbersOf a rest).Pairwise (· < ·)
  ahead : ∀ rest, c.phase = .replaying rest → ∀ a, ∀ n ∈ numbersOf a rest,
    ∃ r, db.job? a = some r ∧ n ≤ r.sequenceCursor

/-- What a call may do to the database under an open connection: no job goes, no cursor goes down, and a
new event is above the cursor of its attempt. -/
structure Grows (db db' : Db) : Prop where
  jobs : ∀ a r, db.job? a = some r → ∃ r', db'.job? a = some r' ∧ r.sequenceCursor ≤ r'.sequenceCursor
  events : ∀ f ∈ db'.events.rows, f ∈ db.events.rows ∨
    ∀ r, db.job? f.attemptId = some r → r.sequenceCursor < f.seq

theorem ConnInv.grow {db db' : Db} {c : Connection} (h : ConnInv db c) (hg : Grows db db') :
    ConnInv db' c := by
  have hjobs : ∀ a n, (∃ r, db.job? a = some r ∧ n ≤ r.sequenceCursor) →
      ∃ r, db'.job? a = some r ∧ n ≤ r.sequenceCursor := by
    rintro a n ⟨r, hr, hle⟩
    obtain ⟨r', hr', hle'⟩ := hg.jobs a r hr
    exact ⟨r', hr', hle.trans hle'⟩
  refine ⟨h.order, fun a n hn => hjobs a n (h.below a n hn), h.silent, h.greeted,
    fun a n hw => ?_, h.sorted, fun rest hp a n hn => hjobs a n (h.ahead rest hp a n hn)⟩
  · rcases hp : c.phase with _ | cursors | cursors | rest | _ <;> simp only [Awaits, hp] at hw
    · obtain ⟨f, hf, rfl, rfl, hlt⟩ := hw
      rcases hg.events f hf with hold | hnew
      · refine h.awaits f.attemptId f.seq ?_
        simp only [Awaits, hp]
        exact ⟨f, hold, rfl, rfl, hlt⟩
      · right
        intro m hm
        obtain ⟨r, hr, hle⟩ := h.below f.attemptId m hm
        exact hle.trans (hnew r hr).le
    · refine h.awaits a n ?_
      simp only [Awaits, hp]
      exact hw

/-! ### The steps of `connect_once` -/

theorem connInv_opened (db : Db) : ConnInv db ⟨.opened, []⟩ :=
  ⟨⟨by simp, fun _ => firstIncreasing_nil⟩, fun _ _ h => absurd h (by simp [sentOf, numbersOf]),
    fun _ => rfl, fun h => (by cases h), fun _ _ h => absurd h id, fun _ h => (by cases h),
    fun _ h => (by cases h)⟩

theorem ConnInv.welcome {db : Db} {c : Connection} (h : ConnInv db c) (hp : c.phase = .opened)
    (cursors : List (PyStr × ℕ)) : ConnInv db { c with phase := .welcomed cursors } :=
  ⟨h.order, h.below, fun _ => h.silent (by rw [hp]; rfl), fun h => (by cases h), fun _ _ h => absurd h id,
    fun _ h => (by cases h), fun _ h => (by cases h)⟩

theorem ConnInv.hello {db : Db} {c : Connection} {cursors : List (PyStr × ℕ)} (h : ConnInv db c)
    (hp : c.phase = .welcomed cursors) :
    ConnInv db { c.send .hello with phase := .greeted cursors } := by
  have hnil : c.sent = [] := h.silent (by rw [hp]; rfl)
  have hsent : ∀ a, sentOf a { c.send .hello with phase := .greeted cursors } = [] := by
    intro a
    unfold sentOf Connection.send
    simp only [hnil]
    rfl
  refine ⟨⟨by simp [Connection.send, hnil], fun a => ?_⟩, fun a n hn => ?_, fun h => (by cases h),
    fun _ => by simp [Connection.send], fun a n _ => Or.inr fun m hm => ?_, fun _ h => (by cases h),
    fun _ h => (by cases h)⟩
  · rw [hsent a]; exact firstIncreasing_nil
  · rw [hsent a] at hn; cases hn
  · rw [hsent a] at hm; cases hm

/-- A frame that is no event, after `hello`. -/
theorem ConnInv.other {db : Db} {c : Connection} (h : ConnInv db c) (hp : greeting c.phase = true)
    {f : Frame} (hf : envelope? f = none) : ConnInv db (c.send f) := by
  refine ⟨h.order.send_other (h.greeted hp) hf, fun a => ?_, fun hn => ?_, fun _ => ?_, fun a n hw => ?_,
    h.sorted, h.ahead⟩
  · rw [sentOf_send hf]; exact h.below a
  · rw [show (c.send f).phase = c.phase from rfl, hp] at hn; cases hn
  · simp [Connection.send]
  · unfold Fits
    rw [sentOf_send hf]; exact h.awaits a n hw

/-- The replay is over. -/
theorem ConnInv.live {db : Db} {c : Connection} {rest : List Envelope} (h : ConnInv db c)
    (hp : c.phase = .replaying rest) : ConnInv db { c with phase := .live } :=
  ⟨h.order, h.below, fun h => (by cases h), fun _ => h.greeted (by rw [hp]; rfl),
    fun _ _ h => absurd h id, fun _ h => (by cases h),
    fun _ h => (by cases h)⟩

/-- The next event of the replay is sent. -/
theorem ConnInv.replayNext {db : Db} {c : Connection} {e : Envelope} {rest : List Envelope}
    (h : ConnInv db c) (hp : c.phase = .replaying (e :: rest)) :
    ConnInv db { c.send (.event e) with phase := .replaying rest } := by
  have hawait : ∀ a n, n ∈ numbersOf a (e :: rest) → Fits c a n := by
    intro a n hn
    refine h.awaits a n ?_
    simp only [Awaits, hp]
    exact hn
  have hcons : ∀ a, numbersOf a (e :: rest) = (number? a e).toList ++ numbersOf a rest := by
    intro a
    unfold numbersOf
    rw [List.filterMap_cons]
    cases number? a e <;> rfl
  have hsent : ∀ a, sentOf a { c.send (.event e) with phase := .replaying rest } =
      sentOf a c ++ (number? a e).toList := fun a => sentOf_send_event a c e
  have horder : InOrder (c.send (.event e)) := by
    refine h.order.send_event (h.greeted (by rw [hp]; rfl)) fun a n hn => ?_
    exact hawait a n (by rw [hcons, hn]; simp)
  refine ⟨horder, fun a n hn => ?_, fun h => (by cases h), fun _ => by simp [Connection.send],
    fun a n hn => ?_, ?_, ?_⟩
  · rw [hsent, List.mem_append] at hn
    rcases hn with hn | hn
    · exact h.below a n hn
    · exact h.ahead _ hp a n (by rw [hcons]; exact List.mem_append_left _ hn)
  · have hn' : n ∈ numbersOf a rest := hn
    unfold Fits
    rw [hsent]
    rcases hawait a n (by rw [hcons]; exact List.mem_append_right _ hn') with hs | hle
    · exact Or.inl (List.mem_append_left _ hs)
    · refine Or.inr fun m hm => ?_
      rcases List.mem_append.mp hm with hm | hm
      · exact hle m hm
      · have hpair := h.sorted _ hp a
        rw [hcons, List.pairwise_append] at hpair
        exact (hpair.2.2 m hm n hn').le
  · rintro rest' ⟨⟩ a
    have hpair := h.sorted _ hp a
    rw [hcons, List.pairwise_append] at hpair
    exact hpair.2.1
  · rintro rest' ⟨⟩ a n hn
    exact h.ahead _ hp a n (by rw [hcons]; exact List.mem_append_right _ hn)

/-- A publish is sent: its number is the cursor of its attempt, and the events below it that are awaited
have been sent before. -/
theorem ConnInv.publish {db : Db} {c : Connection} {e : Envelope} {a : PyStr} {n : ℕ} {r : JobRow}
    (h : ConnInv db c) (hp : greeting c.phase = true) (ha : e.attemptId = some a) (hn : e.seq = some n)
    (hr : db.job? a = some r) (hcursor : r.sequenceCursor = n)
    (hawait : ∀ m, Awaits db c a m → m ∈ sentOf a c ∨ n ≤ m) : ConnInv db (c.send (.event e)) := by
  have hnumber : ∀ b m, number? b e = some m → b = a ∧ m = n := by
    intro b m hm
    unfold number? at hm
    split_ifs at hm with hb
    rw [ha, Option.some.injEq] at hb
    rw [hn, Option.some.injEq] at hm
    exact ⟨hb.symm, hm.symm⟩
  have hbelow : ∀ m ∈ sentOf a c, m ≤ n := by
    intro m hm
    obtain ⟨r', hr', hle⟩ := h.below a m hm
    cases hr.symm.trans hr'
    rw [← hcursor]; exact hle
  refine ⟨h.order.send_event (h.greeted hp) fun b m hm => ?_, fun b m hm => ?_, fun hno => ?_,
    fun _ => by simp [Connection.send], fun b m hw => ?_, h.sorted, h.ahead⟩
  · obtain ⟨rfl, rfl⟩ := hnumber b m hm
    exact Or.inr hbelow
  · rw [sentOf_send_event, List.mem_append] at hm
    rcases hm with hm | hm
    · exact h.below b m hm
    · obtain ⟨rfl, rfl⟩ := hnumber b m (by simpa using hm)
      exact ⟨r, hr, hcursor.ge⟩
  · rw [show (c.send (.event e)).phase = c.phase from rfl, hp] at hno; cases hno
  · unfold Fits
    rw [sentOf_send_event]
    rcases h.awaits b m hw with hs | hle
    · exact Or.inl (List.mem_append_left _ hs)
    · by_cases hs : m ∈ sentOf b c
      · exact Or.inl (List.mem_append_left _ hs)
      · refine Or.inr fun k hk => ?_
        rcases List.mem_append.mp hk with hk | hk
        · exact hle k hk
        · obtain ⟨rfl, rfl⟩ := hnumber b k (by simpa using hk)
          exact (hawait m hw).resolve_left hs

/-! ### The order of the replay -/

/-- Events of an attempt were created in the order of their numbers. -/
def CreatedInOrder (db : Db) : Prop :=
  ∀ f ∈ db.events.rows, ∀ g ∈ db.events.rows, f.attemptId = g.attemptId → f.seq < g.seq →
    f.createdAt ≤ g.createdAt

/-- Then the query lists the events of an attempt in the order of their numbers. -/
theorem seq_lt_of_eventOrder {db : Db} (h : CreatedInOrder db) {f g : EventRow}
    (hf : f ∈ db.events.rows) (hg : g ∈ db.events.rows) (ha : f.attemptId = g.attemptId) (hne : f ≠ g)
    (ho : eventOrder f g) : f.seq < g.seq := by
  have hseq : f.seq ≠ g.seq := fun hs => hne (db.unique_seq f hf g hg ha hs)
  rcases ho with hlt | ⟨-, hlt | ⟨-, hle⟩⟩
  · by_contra hge
    have hle := h g hg f hf ha.symm (by omega)
    exact absurd hlt (not_lt.mpr hle)
  · rw [ha] at hlt
    exact absurd hlt (lt_irrefl _)
  · omega

theorem rowsAbove_pairwise {db : Db} (h : CreatedInOrder db) (cursors : List (PyStr × ℕ)) :
    (rowsAbove cursors db).Pairwise fun f g => f.attemptId = g.attemptId → f.seq < g.seq := by
  have hnodup : db.events.rows.Nodup := List.Nodup.of_map _ db.events.nodup
  have hsel : (db.events.select (fun _ => true) eventOrder).Pairwise fun f g => eventOrder f g ∧ f ≠ g := by
    unfold Table.select
    refine (List.pairwise_insertionSort eventOrder _).and ?_
    exact (List.perm_insertionSort eventOrder _).nodup_iff.mpr (hnodup.filter _)
  refine (hsel.filter _).imp_of_mem fun {f g} hf hg ho ha => ?_
  exact seq_lt_of_eventOrder h (mem_rowsAbove.mp hf).1 (mem_rowsAbove.mp hg).1 ha ho.2 ho.1

/-! ### What the store calls do under an open connection -/

/-- A call other than `prune_terminal` deletes no job and lowers no cursor. -/
theorem job?_apply {s : Store} {op : Op} {a : PyStr} {r : JobRow} (hr : s.db.job? a = some r)
    (hop : ∀ now days, op ≠ .pruneTerminal now days) :
    ∃ r', (apply s op).db.job? a = some r' ∧ r.sequenceCursor ≤ r'.sequenceCursor := by
  have hrow := rowStep s op a
  rw [hr] at hrow
  rcases h : (apply s op).db.job? a with _ | r'
  · rw [h] at hrow
    cases hrow
    exact absurd rfl (hop _ _)
  · rw [h] at hrow
    exact ⟨r', rfl, RowStep.cursor_le hrow⟩

theorem grows_others {s : Store} {op : Op} (hop : ofOthers op = true)
    (hno : ∀ now days, op ≠ .pruneTerminal now days) : Grows s.db (apply s op).db :=
  ⟨fun _ _ hr => job?_apply hr hno, fun _ hf => Or.inl (mem_events_of_others hop hf)⟩

/-- An append above the cursor of its attempt. -/
theorem grows_append {s : Store} {cfg : OutboxConfig} {clock : AppendClock} {e : Envelope} {a : PyStr}
    {n : ℕ} (ha : e.attemptId = some a) (hn : e.seq = some n)
    (habove : ∀ r, s.db.job? a = some r → r.sequenceCursor < n) :
    Grows s.db (apply s (.append cfg clock e)).db := by
  refine ⟨fun _ _ hr => job?_apply hr (by simp), fun f hf => ?_⟩
  rcases mem_events_append hf with hold | ⟨_, _, _, _, ⟨⟩, ha', hn', _⟩
  · exact Or.inl hold
  · cases ha.symm.trans ha'
    cases hn.symm.trans hn'
    exact Or.inr habove

theorem createdInOrder_of_subset {db db' : Db} (h : CreatedInOrder db)
    (hsub : ∀ f ∈ db'.events.rows, f ∈ db.events.rows) : CreatedInOrder db' :=
  fun f hf g hg => h f (hsub f hf) g (hsub g hg)

/-- An append above the cursor keeps the events in the order of their creation if the clock is not behind
the events of the attempt. -/
theorem createdInOrder_append {cfg : OutboxConfig} {clock : AppendClock} {e : Envelope} {db : Db}
    {a : PyStr} {n : ℕ} (ha : e.attemptId = some a) (hn : e.seq = some n) (h : CreatedInOrder db)
    (habove : ∀ f ∈ db.events.rows, f.attemptId = a → f.seq < n)
    (hclock : ∀ f ∈ db.events.rows, f.attemptId = a → f.createdAt ≤ formatDatetime clock.created) :
    CreatedInOrder (append cfg clock e db).2 := by
  intro f hf g hg hfg hlt
  rcases mem_events_append hf with hf' | ⟨_, _, _, _, ⟨⟩, hfa, hfn, -, hfrow⟩
  · rcases mem_events_append hg with hg' | ⟨_, _, _, _, ⟨⟩, hga, -, -, hgrow⟩
    · exact h f hf' g hg' hfg hlt
    · cases ha.symm.trans hga
      rw [hgrow]
      exact hclock f hf' hfg
  · cases ha.symm.trans hfa
    cases hn.symm.trans hfn
    rcases mem_events_append hg with hg' | ⟨_, _, _, _, ⟨⟩, -, hgn, -, -⟩
    · have := habove g hg' hfg.symm
      omega
    · have := Option.some.inj (hn.symm.trans hgn)
      omega

/-! ### What a publish does to the connections -/

theorem connections_publishBegin (call : PublishCall) (s : State) :
    (publishBegin call s).store = s.store ∧ (publishBegin call s).connection = s.connection ∧
      (publishBegin call s).closed = s.closed := by
  unfold publishBegin
  split
  · exact ⟨rfl, rfl, rfl⟩
  · split <;> exact ⟨rfl, rfl, rfl⟩

/-- The end of a publish sends at most its own event. -/
theorem connections_publishFinish (delivered : Bool) (s : State) :
    (publishFinish delivered s).store = s.store ∧ (publishFinish delivered s).closed = s.closed ∧
    ((publishFinish delivered s).connection = s.connection ∨
      ∃ call n e c, delivered = true ∧ s.publishing = some ⟨call, n, some e⟩ ∧ s.socket = some c ∧
        (publishFinish delivered s).connection = some (c.send (.event e))) := by
  unfold publishFinish
  split
  · next call n e hp =>
    dsimp only
    split
    · exact ⟨rfl, rfl, Or.inl rfl⟩
    · next c hc =>
      split_ifs with hd
      · exact ⟨rfl, rfl, Or.inr ⟨call, n, e, c, hd, hp, hc, rfl⟩⟩
      · exact ⟨rfl, rfl, Or.inl rfl⟩
  · exact ⟨rfl, rfl, Or.inl rfl⟩

section Datetime
variable [PyDatetime]

/-- A replayed row keeps its attempt and its number. -/
theorem of_replayed? {db : Db} (hv : RowsValid db) {clock : EventRow → Instant} {f : EventRow}
    {x : Envelope} (hf : f ∈ db.events.rows) (hx : replayed? clock f = some x) :
    x.attemptId = some f.attemptId ∧ x.seq = some f.seq := by
  obtain ⟨e, hv, hh⟩ := hv f hf
  rw [((replayed?_eq_some hv hh x).mp hx).2]
  exact ⟨hh.attemptId, hh.seq⟩

/-- The numbers of an attempt in a replay are those of its rows above the cursor, in increasing order. -/
theorem numbersOf_replay {db : Db} (hv : RowsValid db) (clock : EventRow → Instant)
    (cursors : List (PyStr × ℕ)) (a : PyStr) {n : ℕ}
    (hn : n ∈ numbersOf a ((rowsAbove cursors db).filterMap (replayed? clock))) :
    ∃ f ∈ db.events.rows, f.attemptId = a ∧ f.seq = n ∧ cursor cursors a < n := by
  unfold numbersOf at hn
  simp only [List.mem_filterMap] at hn
  obtain ⟨x, ⟨f, hf, hx⟩, hnum⟩ := hn
  obtain ⟨hm, hlt⟩ := mem_rowsAbove.mp hf
  obtain ⟨hxa, hxs⟩ := of_replayed? hv hm hx
  unfold number? at hnum
  rw [hxa, hxs] at hnum
  split_ifs at hnum with ha
  cases hnum
  cases ha
  exact ⟨f, hm, rfl, rfl, hlt⟩

theorem numbersOf_replay_pairwise {db : Db} (hv : RowsValid db) (h : CreatedInOrder db)
    (clock : EventRow → Instant) (cursors : List (PyStr × ℕ)) (a : PyStr) :
    (numbersOf a ((rowsAbove cursors db).filterMap (replayed? clock))).Pairwise (· < ·) := by
  unfold numbersOf
  rw [List.filterMap_filterMap, List.pairwise_filterMap]
  refine (rowsAbove_pairwise h cursors).imp_of_mem fun {f g} hf hg hlt => ?_
  intro n hn m hm
  rw [Option.bind_eq_some_iff] at hn hm
  obtain ⟨x, hx, hn⟩ := hn
  obtain ⟨y, hy, hm⟩ := hm
  obtain ⟨hxa, hxs⟩ := of_replayed? hv (mem_rowsAbove.mp hf).1 hx
  obtain ⟨hya, hys⟩ := of_replayed? hv (mem_rowsAbove.mp hg).1 hy
  unfold number? at hn hm
  rw [hxa, hxs] at hn
  rw [hya, hys] at hm
  split_ifs at hn with hfa
  split_ifs at hm with hga
  cases hn
  cases hm
  exact hlt (Option.some.inj (hfa.trans hga.symm))

/-- The outbox is queried. -/
theorem ConnInv.query {db : Db} {c : Connection} {cursors : List (PyStr × ℕ)} {es : List Envelope}
    {clock : EventRow → Instant} (h : ConnInv db c) (hp : c.phase = .greeted cursors)
    (hcov : CursorCovers db) (hv : RowsValid db) (hc : CreatedInOrder db)
    (hes : replayAfter clock cursors db = .ok es) : ConnInv db { c with phase := .replaying es } := by
  rw [replayAfter_of_valid hv] at hes
  cases hes
  refine ⟨h.order, h.below, fun h => (by cases h), fun _ => h.greeted (by rw [hp]; rfl),
    fun a n hn => ?_, ?_, ?_⟩
  · refine h.awaits a n ?_
    simp only [Awaits, hp]
    exact numbersOf_replay hv clock cursors a hn
  · rintro rest ⟨⟩ a
    exact numbersOf_replay_pairwise hv hc clock cursors a
  · rintro rest ⟨⟩ a n hn
    obtain ⟨f, hf, rfl, rfl, -⟩ := numbersOf_replay hv clock cursors a hn
    obtain ⟨r, hr⟩ := job?_of_event hf
    exact ⟨r, hr, hcov f hf r hr⟩

/-- An append of an envelope that is valid if SQLite can hold its number. -/
theorem rowsValid_append {cfg : OutboxConfig} {clock : AppendClock} {e : Envelope} {db : Db}
    (h : RowsValid db) (he : ∀ n, e.seq = some n → n < maxSqliteInt → Valid e) :
    RowsValid (append cfg clock e db).2 := by
  intro f hf
  rcases mem_of_appendStep (append_step cfg clock e db) hf with hold | ⟨n, hn, hlt, hholds⟩
  · exact h f hold
  · exact ⟨e, he n hn hlt, hholds⟩

/-! ### Whole runs -/

variable (cfg : UplinkConfig)

/-- What holds of the uplink. -/
structure WireInv (s : State) : Prop where
  flight : FlightInv s
  count : ∀ a, CountInv a s
  valid : RowsValid s.store.db
  clock : CreatedInOrder s.store.db
  closed : ∀ c ∈ s.closed, InOrder c
  opened : ∀ c, s.connection = some c → ConnInv s.store.db c

/-- The clock of an append is not behind the stored events of its attempt. -/
def ClockInOrder (s : State) : Action → Prop
  | .publishAppend _ _ _ clock => ∀ call n, s.publishing = some ⟨call, n, none⟩ →
      ∀ f ∈ s.store.db.events.rows, f.attemptId = call.attemptId →
        f.createdAt ≤ formatDatetime clock.created
  | _ => True

/-- A publish that is sent finds `hello` sent, and every event below it that the replay may still send was
sent on the connection before. -/
def SendsInOrder (s : State) : Action → Prop
  | .publishFinish true => ∀ call n e c, s.publishing = some ⟨call, n, some e⟩ → s.socket = some c →
      greeting c.phase = true ∧
        ∀ m, Awaits s.store.db c call.attemptId m → m ∈ sentOf call.attemptId c ∨ n ≤ m
  | _ => True

/-- The action does not run the pruning of jobs. -/
def KeepsJobs (act : Action) : Prop := ∀ now days, act ≠ .store (.pruneTerminal now days)

/-- The number of a publish in flight. -/
theorem WireInv.seq_lt {s : State} (h : WireInv s) {call : PublishCall} {n : ℕ}
    (hp : s.publishing = some ⟨call, n, none⟩) {r : JobRow}
    (hr : s.store.db.job? call.attemptId = some r) : r.sequenceCursor < n := by
  have hgiven : n = _ + 1 := (h.count call.attemptId).given _ hp rfl
  have hcursor := (h.count call.attemptId).cursor r hr
  have hzero : appendedOf call.attemptId s = 0 := by unfold appendedOf; rw [hp]
  omega

/-- The number of a publish that has appended is the cursor of its attempt. -/
theorem WireInv.seq_eq {s : State} (h : WireInv s) {call : PublishCall} {n : ℕ} {e : Envelope}
    (hp : s.publishing = some ⟨call, n, some e⟩) :
    ∃ r, s.store.db.job? call.attemptId = some r ∧ r.sequenceCursor = n := by
  have hcount := h.count call.attemptId
  rcases hr : s.store.db.job? call.attemptId with _ | r
  · exact absurd rfl ((hcount.absent hr).2 _ hp)
  · have hgiven : n = _ + 1 := hcount.given _ hp rfl
    have hcursor := hcount.cursor r hr
    have hone : appendedOf call.attemptId s = 1 := by unfold appendedOf; rw [hp]; exact if_pos rfl
    exact ⟨r, rfl, by omega⟩

/-- The connections after an action of `connect_once`. -/
theorem WireInv.onConnection {s : State} (h : WireInv s) {c : Connection} (hc : s.connection = some c)
    (act : Action) : (∀ d ∈ (onConnection s c act).closed, InOrder d) ∧
      ∀ d, (onConnection s c act).connection = some d → ConnInv s.store.db d := by
  have hinv := h.opened c hc
  have hsame : (∀ d ∈ s.closed, InOrder d) ∧ ∀ d, s.connection = some d → ConnInv s.store.db d :=
    ⟨h.closed, h.opened⟩
  have hend : (∀ d ∈ c :: s.closed, InOrder d) ∧
      ∀ d, (none : Option Connection) = some d → ConnInv s.store.db d := by
    refine ⟨fun d hd => ?_, fun d hd => (by cases hd)⟩
    rcases List.mem_cons.mp hd with rfl | hd
    · exact hinv.order
    · exact h.closed d hd
  have hopen : ∀ {d : Connection}, ConnInv s.store.db d →
      (∀ d ∈ s.closed, InOrder d) ∧ ∀ d', some d = some d' → ConnInv s.store.db d' := by
    intro d hd
    refine ⟨h.closed, ?_⟩
    rintro d' ⟨⟩
    exact hd
  unfold Uplink.onConnection
  split
  · split
    · next hp => exact hopen (hinv.welcome hp _)
    · exact hsame
  · split
    · next hp => exact hopen (hinv.hello hp)
    · exact hsame
  · split
    · next hp =>
      split
      · next hes => exact hopen (hinv.query hp h.flight.covers h.valid h.clock hes)
      · exact hend
    · exact hsame
  · split
    · next hp => exact hopen (hinv.replayNext hp)
    · next hp => exact hopen (hinv.live hp)
    · exact hsame
  · split
    · next hp => exact hopen (hinv.other (by rw [hp]; rfl) rfl)
    · next hp => exact hopen (hinv.other (by rw [hp]; rfl) rfl)
    · next hp => exact hopen (hinv.other (by rw [hp]; rfl) rfl)
    · exact hsame
  · split
    · next hp => exact hopen (hinv.other (by rw [hp]; rfl) rfl)
    · exact hsame
  · exact hend
  · exact hsame

/-- A change of the database under the connections. -/
theorem WireInv.of_grows {s t : State} (h : WireInv s) (hflight : FlightInv t)
    (hcount : ∀ a, CountInv a t) (hvalid : RowsValid t.store.db) (hclock : CreatedInOrder t.store.db)
    (hgrows : Grows s.store.db t.store.db)
    (hconn : t.connection = s.connection ∧ t.closed = s.closed) : WireInv t := by
  refine ⟨hflight, hcount, hvalid, hclock, ?_, fun c hc => ?_⟩
  · rw [hconn.2]; exact h.closed
  · rw [hconn.1] at hc
    exact (h.opened c hc).grow hgrows

/-- A change of the connections over the database. -/
theorem WireInv.of_connections {s t : State} (h : WireInv s) (hflight : FlightInv t)
    (hcount : ∀ a, CountInv a t) (hdb : t.store.db = s.store.db) (hclosed : ∀ c ∈ t.closed, InOrder c)
    (hopened : ∀ c, t.connection = some c → ConnInv s.store.db c) : WireInv t :=
  ⟨hflight, hcount, by rw [hdb]; exact h.valid, by rw [hdb]; exact h.clock, hclosed,
    by rw [hdb]; exact hopened⟩

theorem connections_publishAppend (now ts : Instant) (id : PyStr) (clock : AppendClock) (s : State) :
    (publishAppend cfg now ts id clock s).connection = s.connection ∧
      (publishAppend cfg now ts id clock s).closed = s.closed := by
  unfold publishAppend
  split
  · split
    · exact ⟨rfl, rfl⟩
    · split <;> exact ⟨rfl, rfl⟩
  · exact ⟨rfl, rfl⟩

/-- The append of a publish. -/
theorem WireInv.publishAppend {s : State} (h : WireInv s) (now ts : Instant) (id : PyStr)
    (clock : AppendClock) (hclock : ClockInOrder s (.publishAppend now ts id clock))
    (hflight : FlightInv (publishAppend cfg now ts id clock s))
    (hcount : ∀ a, CountInv a (publishAppend cfg now ts id clock s)) :
    WireInv (publishAppend cfg now ts id clock s) := by
  have hconn := connections_publishAppend cfg now ts id clock s
  rcases db_publishAppend cfg now ts id clock s with hdb | ⟨call, n, e, hp, he, hdb⟩
  · exact h.of_connections hflight hcount hdb (by rw [hconn.2]; exact h.closed)
      (by rw [hconn.1]; exact h.opened)
  · have ha : e.attemptId = some call.attemptId := by rw [(of_newEnvelope he).1]
    have hn : e.seq = some n := by rw [(of_newEnvelope he).1]
    have habove : ∀ f ∈ s.store.db.events.rows, f.attemptId = call.attemptId → f.seq < n := by
      rintro f hf hfa
      obtain ⟨r, hr⟩ := job?_of_event hf
      exact (h.flight.covers f hf r hr).trans_lt (h.seq_lt hp (hfa ▸ hr))
    have hvalid : RowsValid (append cfg.outbox clock e s.store.db).2 := by
      refine rowsValid_append h.valid fun m hm hlt => valid_of_newEnvelope he ?_ call.wf
      cases hn.symm.trans hm
      exact hlt.trans (by unfold maxSqliteInt; norm_num)
    refine h.of_grows hflight hcount ?_ ?_ ?_ hconn <;> rw [hdb]
    · exact hvalid
    · exact createdInOrder_append ha hn h.clock habove (hclock call n hp)
    · exact grows_append ha hn fun r hr => h.seq_lt hp hr

/-- The end of a publish. -/
theorem WireInv.publishFinish {s : State} (h : WireInv s) (delivered : Bool)
    (hsend : SendsInOrder s (.publishFinish delivered))
    (hflight : FlightInv (publishFinish delivered s))
    (hcount : ∀ a, CountInv a (publishFinish delivered s)) : WireInv (publishFinish delivered s) := by
  obtain ⟨hs, hcl, hco | ⟨call, n, e, c, rfl, hp, hc, hco⟩⟩ := connections_publishFinish delivered s
  · exact h.of_connections hflight hcount (congrArg Store.db hs) (by rw [hcl]; exact h.closed)
      (by rw [hco]; exact h.opened)
  · refine h.of_connections hflight hcount (congrArg Store.db hs) (by rw [hcl]; exact h.closed) ?_
    rw [hco]
    rintro c' ⟨⟩
    have hopen : s.connection = some c := by
      unfold State.socket at hc
      split_ifs at hc
      exact hc
    obtain ⟨hgreet, hawait⟩ := hsend call n e c hp hc
    obtain ⟨ha, hn⟩ := h.flight.carries _ _ hp rfl
    obtain ⟨r, hr, hcursor⟩ := h.seq_eq hp
    exact (h.opened c hopen).publish hgreet ha hn hr hcursor hawait

/-- The invariant is kept by every action that meets the conditions. -/
theorem WireInv.step {s : State} (h : WireInv s) (act : Action) (hkeep : KeepsJobs act)
    (hclock : ClockInOrder s act) (hsend : SendsInOrder s act) : WireInv (Uplink.step cfg s act) := by
  have hflight := h.flight.step cfg act
  have hcount : ∀ a, CountInv a (Uplink.step cfg s act) :=
    fun a => (h.count a).step cfg h.flight act (not_deletesRow cfg hkeep)
  cases act with
  | store op =>
    by_cases hop : ofOthers op = true
    · have hs : Uplink.step cfg s (.store op) = { s with store := apply s.store op } := if_pos hop
      rw [hs] at hflight hcount ⊢
      refine h.of_grows hflight hcount (rowsValid_apply h.valid ?_) ?_ ?_ ⟨rfl, rfl⟩
      · rintro _ _ _ rfl
        cases hop
      · exact createdInOrder_of_subset h.clock fun f hf => mem_events_of_others hop hf
      · exact grows_others hop fun now days he => hkeep now days (by rw [he])
    · rw [show Uplink.step cfg s (.store op) = s from if_neg hop]
      exact h
  | connect =>
    rcases hc : s.connection with _ | c
    · have hs : Uplink.step cfg s .connect =
          { s with attached := true, connection := some ⟨.opened, []⟩ } := by
        simp only [Uplink.step, hc]
      rw [hs] at hflight hcount ⊢
      refine h.of_connections hflight hcount rfl h.closed ?_
      rintro c ⟨⟩
      exact connInv_opened _
    · have hs : Uplink.step cfg s .connect = s := by simp only [Uplink.step, hc]
      rw [hs]
      exact h
  | publishBegin call =>
    obtain ⟨hs, hco, hcl⟩ := connections_publishBegin call s
    exact h.of_connections hflight hcount (congrArg Store.db hs) (fun c hc => h.closed c (hcl ▸ hc))
      fun c hc => h.opened c (hco ▸ hc)
  | publishAppend now ts id clock => exact h.publishAppend cfg now ts id clock hclock hflight hcount
  | publishFinish delivered => exact h.publishFinish delivered hsend hflight hcount
  | _ =>
    simp only [Uplink.step] at hflight hcount ⊢
    rcases hc : s.connection with _ | c
    · exact h
    · rw [hc] at hflight hcount
      obtain ⟨hclosed, hopened⟩ := h.onConnection hc _
      exact h.of_connections hflight hcount (congrArg Store.db (onConnection_sameFlight _ _ _).1)
        hclosed hopened

theorem wireInv_init : WireInv State.init :=
  ⟨flightInv_run sampleUplink [], fun a => countInv_init a,
    fun f hf => absurd hf (by simp [State.init, Store.empty, Db.empty, Table.empty]),
    fun f hf => absurd hf (by simp [State.init, Store.empty, Db.empty, Table.empty]),
    fun c hc => absurd hc (by simp [State.init]), fun c hc => (by cases hc)⟩

theorem wireInv_run : ∀ (acts : List Action) {s : State}, WireInv s → (∀ act ∈ acts, KeepsJobs act) →
    Along (Uplink.step cfg) ClockInOrder s acts → Along (Uplink.step cfg) SendsInOrder s acts →
    WireInv (run (Uplink.step cfg) s acts)
  | [], _, h, _, _, _ => h
  | act :: acts, _, h, hkeep, hclock, hsend =>
    wireInv_run acts (h.step cfg act (hkeep act List.mem_cons_self) hclock.1 hsend.1)
      (fun b hb => hkeep b (List.mem_cons_of_mem _ hb)) hclock.2 hsend.2

/-- **The order on the wire.** In every run of the uplink and the store without pruning of jobs, in which
every append finds a clock not behind the stored events of its attempt and every publish that is sent
comes after `hello` and after the smaller numbers the replay may still send, every connection starts with
`hello` and carries the numbers of each attempt for the first time in increasing order. -/
theorem wire_order (acts : List Action) (hkeep : ∀ act ∈ acts, KeepsJobs act)
    (hclock : Along (Uplink.step cfg) ClockInOrder State.init acts)
    (hsend : Along (Uplink.step cfg) SendsInOrder State.init acts) :
    ∀ c ∈ (run (Uplink.step cfg) State.init acts).connections, InOrder c := by
  have hinv := wireInv_run cfg acts wireInv_init hkeep hclock hsend
  intro c hc
  rcases List.mem_append.mp hc with hc | hc
  · exact (hinv.opened c (Option.mem_toList.mp hc)).order
  · exact hinv.closed c hc

end Datetime

/-! ### A publish before `hello` -/

/-- The second event of the sample attempt is published. -/
def secondPublish : List Action :=
  [.publishBegin sampleCall, .publishAppend 2000000 2000000 (py "00000000-0000-4000-8000-000000000002")
    ⟨2000000, 2000000, 2000000⟩, .publishFinish true]

/-- `connect_once` after its socket is set: the handshake and a replay of two events at most. -/
def handshake : List Action :=
  [.welcome [], .hello, .queryReplay fun _ => 3000000, .replayNext, .replayNext, .replayNext]

/-- The first event is published without a connection, and the second as soon as there is a socket. -/
def crossedActs : List Action := sampleActs ++ .connect :: secondPublish ++ handshake

theorem crossedActs_sent :
    ((run (@step firstDay sampleUplink) State.init crossedActs).connections.map fun c =>
      ((c.sent.head?.bind envelope?).isSome, sentOf sampleAttempt c)) = [(true, [2, 1, 2])] := by
  decide +kernel

/-- The first frame of the connection is the second event, and the first event appears after it. -/
theorem wire_order_broken :
    ∃ c ∈ (run (@step firstDay sampleUplink) State.init crossedActs).connections,
      sentOf sampleAttempt c = [2, 1, 2] ∧ ¬ (∀ f ∈ c.sent.head?, f = .hello) ∧
        ¬ FirstIncreasing (sentOf sampleAttempt c) := by
  have hsent := crossedActs_sent
  rcases hc : (run (@step firstDay sampleUplink) State.init crossedActs).connections with _ | ⟨c, rest⟩
  · rw [hc] at hsent; cases hsent
  · rw [hc, List.map_cons, List.cons.injEq, Prod.mk.injEq] at hsent
    refine ⟨c, List.mem_cons_self, hsent.1.2, fun hhello => ?_, fun horder => ?_⟩
    · have hhead := hsent.1.1
      rcases hf : c.sent.head? with _ | f
      · rw [hf] at hhead; cases hhead
      · rw [hf, hhello f hf] at hhead; cases hhead
    · rw [hsent.1.2] at horder
      rcases horder [2] 1 [2] rfl with h | h
      · simp at h
      · exact absurd (h 2 (by simp)) (by omega)

/-- The same publishes, the second after the replay. -/
def orderedActs : List Action := sampleActs ++ .connect :: handshake ++ secondPublish

/-- The replay is over. -/
def isLive : Phase → Bool
  | .live => true
  | _ => false

/-- The clock of an append is not behind any stored event. -/
def clockAhead (s : State) : Action → Bool
  | .publishAppend _ _ _ clock =>
    s.store.db.events.rows.all fun f => f.createdAt ≤ formatDatetime clock.created
  | _ => true

theorem clockInOrder_of_ahead (s : State) (act : Action) (h : clockAhead s act = true) :
    ClockInOrder s act := by
  unfold ClockInOrder
  split
  · intro _ _ _ f hf _
    exact of_decide_eq_true (List.all_eq_true.mp h f hf)
  · trivial

/-- A publish ends when the replay is over, or there is no socket. -/
def afterReplay (s : State) : Action → Bool
  | .publishFinish _ => s.socket.all fun c => isLive c.phase
  | _ => true

theorem sendsInOrder_of_afterReplay (s : State) (act : Action) (h : afterReplay s act = true) :
    SendsInOrder s act := by
  unfold SendsInOrder
  split
  · intro call n e c _ hc
    have hlive : isLive c.phase = true := by simpa only [afterReplay, hc, Option.all_some] using h
    rcases hp : c.phase with _ | _ | _ | _ | _ <;> rw [hp] at hlive <;>
      simp only [isLive, Bool.false_eq_true] at hlive
    simp only [Awaits, hp, greeting, false_implies, implies_true, and_self]
  · trivial

theorem orderedActs_checks :
    Along (@step firstDay sampleUplink) (fun s act => clockAhead s act = true) State.init orderedActs ∧
    Along (@step firstDay sampleUplink) (fun s act => afterReplay s act = true) State.init orderedActs ∧
    ((run (@step firstDay sampleUplink) State.init orderedActs).connections.map
      (sentOf sampleAttempt)) = [[1, 2]] := by
  decide +kernel

/-- The connection of the ordered run carries the two events in order. -/
theorem wire_order_replayed :
    ((run (@step firstDay sampleUplink) State.init orderedActs).connections.map
      (sentOf sampleAttempt)) = [[1, 2]] ∧
    ∀ c ∈ (run (@step firstDay sampleUplink) State.init orderedActs).connections, InOrder c := by
  obtain ⟨hclock, hsend, hsent⟩ := orderedActs_checks
  let _ := firstDay
  refine ⟨hsent, wire_order sampleUplink orderedActs ?_ (hclock.imp clockInOrder_of_ahead)
    (hsend.imp sendsInOrder_of_afterReplay)⟩
  intro act hact now days
  simp only [orderedActs, sampleActs, handshake, secondPublish, List.cons_append, List.nil_append,
    List.mem_cons, List.not_mem_nil, or_false] at hact
  rcases hact with rfl | rfl | rfl | rfl | rfl | rfl | rfl | rfl | rfl | rfl | rfl | rfl | rfl | rfl <;>
    simp

end BuildEngine.Agent.WireOrder
