import BuildEngine.Agent.Uplink
import BuildEngine.Queue.Events

/-! # Sequence numbers

`publish_attempt_event` reads its number from the cursor of the job and writes the cursor back through
`append`, while acknowledgements and pruning delete the rows that carry the numbers. Nothing but an append
moves a cursor (`RowStep.cursor_eq`), the number a publish was given stays free until it appends
(`FlightInv`), and so the cursor of an attempt counts the publishes that were appended (`CountInv`). -/

namespace BuildEngine.Agent.SequenceNumbers

open BuildEngine.Base BuildEngine.Base.Run BuildEngine.Agent.Protocol BuildEngine.Agent.Uplink
open BuildEngine.Queue.Schema BuildEngine.Queue BuildEngine.Queue.Store BuildEngine.Queue.Outbox
open BuildEngine.Queue.Ops BuildEngine.Queue.Events

/-! ### The calls of other tasks -/

/-- Only an append moves the cursor. -/
theorem RowStep.cursor_eq {op : Op} {r r' : JobRow} (h : RowStep op (some r) (some r'))
    (hop : ofOthers op = true) : r'.sequenceCursor = r.sequenceCursor := by
  cases h with
  | cursor => cases hop
  | _ => rfl

/-- The calls of other tasks add no event. -/
theorem mem_events_of_others {s : Store} {op : Op} {f : EventRow} (hop : ofOthers op = true)
    (h : f ∈ (apply s op).db.events.rows) : f ∈ s.db.events.rows := by
  rcases mem_events_apply h with h | ⟨_, _, _, _, rfl, _⟩
  · exact h
  · cases hop

/-- A number that is free stays free. -/
theorem free_of_others {s : Store} {op : Op} {a : PyStr} {n : ℕ} (hop : ofOthers op = true)
    (h : s.db.event? a n = none) : (apply s op).db.event? a n = none := by
  rw [event?_eq_none] at h ⊢
  exact fun f hf => h f (mem_events_of_others hop hf)

theorem calm_concat {raised : List OutboxError} {x : OutboxError}
    (h : .queue .conflictingEvent ∉ raised) (hx : x ≠ .queue .conflictingEvent) :
    .queue .conflictingEvent ∉ raised ++ [x] := by
  intro hm
  rcases List.mem_append.mp hm with hm | hm
  · exact h hm
  · exact hx (List.mem_singleton.mp hm).symm

theorem nextSeq_error {a : PyStr} {db : Db} {x : OutboxError} (h : nextSeq a db = .error x) :
    db.job? a = none ∧ x = .queue .sequenceUnknown := by
  unfold nextSeq at h
  split at h
  · next hj =>
    cases h
    exact ⟨hj, rfl⟩
  · cases h

/-! ### Counting -/

/-- The publishes of an attempt that returned, in the order of their return. -/
def publishedOf (a : PyStr) (s : State) : List Envelope :=
  s.published.filter fun e => e.attemptId = some a

/-- One if the publish in flight is one of the attempt and has appended its event. -/
def appendedOf (a : PyStr) (s : State) : ℕ :=
  match s.publishing with
  | some ⟨call, _, some _⟩ => if call.attemptId = a then 1 else 0
  | _ => 0

/-- The cursor of the attempt counts the publishes that were appended, and their numbers count from one. -/
structure CountInv (a : PyStr) (s : State) : Prop where
  numbered : ∀ k e, (publishedOf a s)[k]? = some e → e.seq = some (k + 1)
  absent : s.store.db.job? a = none →
    publishedOf a s = [] ∧ ∀ p, s.publishing = some p → p.call.attemptId ≠ a
  cursor : ∀ r, s.store.db.job? a = some r →
    r.sequenceCursor = (publishedOf a s).length + appendedOf a s
  given : ∀ p, s.publishing = some p → p.call.attemptId = a →
    p.seq = (publishedOf a s).length + 1

theorem countInv_init (a : PyStr) : CountInv a State.init :=
  ⟨by simp [publishedOf, State.init], fun _ => ⟨rfl, by simp [State.init]⟩,
    by simp [State.init, Store.empty], by simp [State.init]⟩

/-- Counting depends on the jobs, the publish in flight and the publishes that returned. -/
theorem CountInv.congr {a : PyStr} {s t : State} (h : CountInv a s)
    (hj : t.store.db.job? a = s.store.db.job? a) (hp : t.publishing = s.publishing)
    (hd : t.published = s.published) : CountInv a t := by
  have hpub : publishedOf a t = publishedOf a s := by unfold publishedOf; rw [hd]
  have happ : appendedOf a t = appendedOf a s := by unfold appendedOf; rw [hp]
  exact ⟨by rw [hpub]; exact h.numbered, by rw [hpub, hj, hp]; exact h.absent,
    by rw [hpub, happ, hj]; exact h.cursor, by rw [hpub, hp]; exact h.given⟩

/-- A publish that ends before its event is appended gives its number back. -/
theorem CountInv.dropped {a : PyStr} {s t : State} {call : PublishCall} {n : ℕ} (h : CountInv a s)
    (hp : s.publishing = some ⟨call, n, none⟩) (hj : t.store.db.job? a = s.store.db.job? a)
    (hp' : t.publishing = none) (hd : t.published = s.published) : CountInv a t := by
  have hpub : publishedOf a t = publishedOf a s := by unfold publishedOf; rw [hd]
  have happ : appendedOf a t = appendedOf a s := by unfold appendedOf; rw [hp, hp']
  refine ⟨by rw [hpub]; exact h.numbered, ?_, by rw [hpub, happ, hj]; exact h.cursor, by simp [hp']⟩
  rw [hpub, hj]
  exact fun hnone => ⟨(h.absent hnone).1, by simp [hp']⟩

/-- A call of another task that does not delete the row. -/
theorem CountInv.others {a : PyStr} {s t : State} {op : Op} (h : CountInv a s) (hop : ofOthers op = true)
    (hs : t.store = apply s.store op) (hp : t.publishing = s.publishing)
    (hd : t.published = s.published)
    (hkeep : ¬ ((s.store.db.job? a).isSome ∧ t.store.db.job? a = none)) : CountInv a t := by
  have hpub : publishedOf a t = publishedOf a s := by unfold publishedOf; rw [hd]
  have happ : appendedOf a t = appendedOf a s := by unfold appendedOf; rw [hp]
  have hrow := rowStep s.store op a
  rw [← hs] at hrow
  rcases hr : s.store.db.job? a with _ | r
  · obtain ⟨hnil, hnone⟩ := h.absent hr
    have hzero : appendedOf a s = 0 := by
      unfold appendedOf
      split
      · next hpub => exact if_neg (hnone _ hpub)
      · rfl
    refine ⟨by rw [hpub]; exact h.numbered, fun _ => by rw [hpub, hp]; exact ⟨hnil, hnone⟩, ?_,
      by rw [hpub, hp]; exact h.given⟩
    intro r' hr'
    rw [hr, hr'] at hrow
    -- a new row counts no publish
    cases hrow with
    | insert => rw [hpub, happ, hnil, hzero]; rfl
  · refine ⟨by rw [hpub]; exact h.numbered, fun hnone => absurd ⟨by rw [hr]; rfl, hnone⟩ hkeep, ?_,
      by rw [hpub, hp]; exact h.given⟩
    intro r' hr'
    rw [hr, hr'] at hrow
    rw [RowStep.cursor_eq hrow hop, hpub, happ]
    exact h.cursor r hr

/-- A publish gets the number after those counted. -/
theorem CountInv.begun {a : PyStr} {s t : State} {call : PublishCall} {n : ℕ} (h : CountInv a s)
    (hnone : s.publishing = none) (hn : nextSeq call.attemptId s.store.db = .ok n)
    (ht : t = { s with publishing := some ⟨call, n, none⟩ }) : CountInv a t := by
  subst ht
  have hzero : appendedOf a s = 0 := by unfold appendedOf; rw [hnone]
  unfold nextSeq at hn
  refine ⟨h.numbered, fun hj => ⟨(h.absent hj).1, ?_⟩, fun r hr => ?_, ?_⟩
  · rintro p ⟨⟩ rfl
    rw [show s.store.db.job? _ = none from hj] at hn
    cases hn
  · rw [h.cursor r hr, hzero]; rfl
  · rintro p ⟨⟩ rfl
    split at hn
    · cases hn
    · next r hr =>
      cases hn
      rw [h.cursor r hr, hzero]; rfl

/-- The append of a publish raises the cursor by one. -/
theorem CountInv.appended {a : PyStr} {s t : State} {call : PublishCall} {n : ℕ} {e : Envelope}
    {r : JobRow} {now : Stamp} (h : CountInv a s) (hp : s.publishing = some ⟨call, n, none⟩)
    (hr : s.store.db.job? call.attemptId = some r)
    (hr' : t.store.db.job? call.attemptId = some (cursorRow n now r))
    (hother : ∀ b, b ≠ call.attemptId → t.store.db.job? b = s.store.db.job? b)
    (hp' : t.publishing = some ⟨call, n, some e⟩) (hd : t.published = s.published) : CountInv a t := by
  have hpub : publishedOf a t = publishedOf a s := by unfold publishedOf; rw [hd]
  have hzero : appendedOf a s = 0 := by unfold appendedOf; rw [hp]
  have hone : appendedOf a t = if call.attemptId = a then 1 else 0 := by unfold appendedOf; rw [hp']
  refine ⟨by rw [hpub]; exact h.numbered, fun hnone => ?_, fun r₁ hr₁ => ?_, ?_⟩
  · have hne : call.attemptId ≠ a := by
      rintro rfl
      rw [hr'] at hnone; cases hnone
    rw [hother a hne.symm] at hnone
    refine ⟨by rw [hpub]; exact (h.absent hnone).1, ?_⟩
    rw [hp']
    rintro p ⟨⟩
    exact hne
  · rw [hpub, hone]
    by_cases hc : call.attemptId = a
    · subst hc
      cases hr'.symm.trans hr₁
      have hgiven : n = (publishedOf call.attemptId s).length + 1 := h.given _ hp rfl
      have hcursor := h.cursor r hr
      rw [if_pos rfl]
      show max r.sequenceCursor n = _
      omega
    · rw [hother a (Ne.symm hc)] at hr₁
      rw [if_neg hc, ← hzero]
      exact h.cursor r₁ hr₁
  · rw [hp', hpub]
    rintro p ⟨⟩ hc
    exact h.given ⟨call, n, none⟩ hp hc

/-- A publish that returns is the next one counted. -/
theorem CountInv.finished {a : PyStr} {s t : State} {call : PublishCall} {n : ℕ} {e : Envelope}
    (h : CountInv a s) (hp : s.publishing = some ⟨call, n, some e⟩)
    (he : e.attemptId = some call.attemptId ∧ e.seq = some n) (hs : t.store = s.store)
    (hp' : t.publishing = none) (hd : t.published = s.published ++ [e]) : CountInv a t := by
  have hzero : appendedOf a t = 0 := by unfold appendedOf; rw [hp']
  have hone : appendedOf a s = if call.attemptId = a then 1 else 0 := by unfold appendedOf; rw [hp]
  have hpub : publishedOf a t = publishedOf a s ++ if call.attemptId = a then [e] else [] := by
    unfold publishedOf
    rw [hd, List.filter_append]
    congr 1
    simp only [List.filter_cons, List.filter_nil, decide_eq_true_eq, he.1, Option.some.injEq]
  by_cases hc : call.attemptId = a
  · rw [if_pos hc] at hone hpub
    refine ⟨?_, fun hnone => absurd hc ((h.absent (hs ▸ hnone)).2 _ hp), fun r hr => ?_, by simp [hp']⟩
    · intro k e' hk
      rw [hpub, List.getElem?_append] at hk
      split_ifs at hk with hlt
      · exact h.numbered k e' hk
      · have hgiven : n = (publishedOf a s).length + 1 := h.given _ hp hc
        rw [List.getElem?_singleton] at hk
        split_ifs at hk with hk0
        cases hk
        rw [he.2]
        congr 1
        omega
    · rw [hs] at hr
      rw [hpub, hzero, h.cursor r hr, hone, List.length_append]; rfl
  · rw [if_neg hc, List.append_nil] at hpub
    rw [if_neg hc] at hone
    refine ⟨by rw [hpub]; exact h.numbered, ?_, ?_, by simp [hp']⟩
    · rw [hpub, hs]
      exact fun hnone => ⟨(h.absent hnone).1, by simp [hp']⟩
    · rw [hpub, hs, hzero, ← hone]; exact h.cursor

section Datetime
variable [PyDatetime] (cfg : UplinkConfig)

/-! ### A publish in flight -/

/-- The cursors cover the events, the number of a publish that has not appended yet is free, a publish
that has appended carries its own number and attempt, and no publish has met the conflicting-sequence
error. -/
structure FlightInv (s : State) : Prop where
  covers : CursorCovers s.store.db
  free : ∀ p, s.publishing = some p → p.envelope = none →
    s.store.db.event? p.call.attemptId p.seq = none
  carries : ∀ p e, s.publishing = some p → p.envelope = some e →
    e.attemptId = some p.call.attemptId ∧ e.seq = some p.seq
  calm : .queue .conflictingEvent ∉ s.raised

/-- What a publish sees of a state. -/
def SameFlight (s t : State) : Prop :=
  t.store = s.store ∧ t.publishing = s.publishing ∧ t.published = s.published ∧ t.raised = s.raised

theorem onConnection_sameFlight (s : State) (c : Connection) (a : Action) :
    SameFlight s (onConnection s c a) := by
  unfold onConnection
  split <;> (try split) <;> (try split) <;> exact ⟨rfl, rfl, rfl, rfl⟩

/-- The actions of a connection, and those of a publish that are not enabled, leave its view alone. -/
inductive StepView (s : State) : State → Prop where
  | same {t : State} (h : SameFlight s t) : StepView s t
  | store {op : Op} {t : State} (hop : ofOthers op = true) (hs : t.store = apply s.store op)
      (hp : t.publishing = s.publishing) (hd : t.published = s.published) (hr : t.raised = s.raised) :
      StepView s t
  | unknown {call : PublishCall} {x : OutboxError} {t : State} (h : s.publishing = none)
      (hx : nextSeq call.attemptId s.store.db = .error x)
      (ht : t = { s with raised := s.raised ++ [x] }) : StepView s t
  | begin {call : PublishCall} {n : ℕ} {t : State} (h : s.publishing = none)
      (hn : nextSeq call.attemptId s.store.db = .ok n)
      (ht : t = { s with publishing := some ⟨call, n, none⟩ }) : StepView s t
  | rejected {call : PublishCall} {n : ℕ} {x : Exc} {t : State} (h : s.publishing = some ⟨call, n, none⟩)
      (ht : t = { s with publishing := none, raised := s.raised ++ [.exc x] }) : StepView s t
  | append {call : PublishCall} {n : ℕ} {e : Envelope} {t : State} (clock : AppendClock)
      (h : s.publishing = some ⟨call, n, none⟩) (ha : e.attemptId = some call.attemptId)
      (hn : e.seq = some n)
      (ht : t = { s with
        store := { s.store with db := (Outbox.append cfg.outbox clock e s.store.db).2 }
        publishing := match (Outbox.append cfg.outbox clock e s.store.db).1 with
          | .error _ => none
          | .ok _ => some ⟨call, n, some e⟩
        raised := match (Outbox.append cfg.outbox clock e s.store.db).1 with
          | .error x => s.raised ++ [x]
          | .ok _ => s.raised }) : StepView s t
  | finish {call : PublishCall} {n : ℕ} {e : Envelope} {t : State}
      (h : s.publishing = some ⟨call, n, some e⟩) (hs : t.store = s.store)
      (hp : t.publishing = none) (hd : t.published = s.published ++ [e]) (hr : t.raised = s.raised) :
      StepView s t

/-- What an action does to the view of a publish. -/
theorem step_view (s : State) (a : Action) : StepView cfg s (step cfg s a) := by
  cases a with
  | store op =>
    simp only [step]
    split_ifs with hop
    · exact .store hop rfl rfl rfl rfl
    · exact .same ⟨rfl, rfl, rfl, rfl⟩
  | connect =>
    simp only [step]
    split <;> exact .same ⟨rfl, rfl, rfl, rfl⟩
  | publishBegin call =>
    show StepView cfg s (publishBegin call s)
    unfold publishBegin
    split
    · exact .same ⟨rfl, rfl, rfl, rfl⟩
    · next h =>
      split
      · next x hx => exact .unknown h hx rfl
      · next n hn => exact .begin h hn rfl
  | publishAppend now ts id clock =>
    show StepView cfg s (publishAppend cfg now ts id clock s)
    unfold publishAppend
    split
    · next call n h =>
      split
      · exact .rejected h rfl
      · next e he =>
        have hfields := (of_newEnvelope he).1
        have ha : e.attemptId = some call.attemptId := by rw [hfields]
        have hn : e.seq = some n := by rw [hfields]
        refine .append clock h ha hn ?_
        split
        · next hx => simp only [hx]
        · next hx => simp only [hx]
    · exact .same ⟨rfl, rfl, rfl, rfl⟩
  | publishFinish delivered =>
    show StepView cfg s (publishFinish delivered s)
    unfold publishFinish
    split
    · next call n e h =>
      dsimp only
      split
      · exact .finish h rfl rfl rfl rfl
      · split_ifs <;> exact .finish h rfl rfl rfl rfl
    · exact .same ⟨rfl, rfl, rfl, rfl⟩
  | _ =>
    simp only [step]
    split
    · exact .same (onConnection_sameFlight _ _ _)
    · exact .same ⟨rfl, rfl, rfl, rfl⟩

/-- The invariant of a publish in flight is kept by every action. -/
theorem FlightInv.step {s : State} (h : FlightInv s) (a : Action) : FlightInv (step cfg s a) := by
  cases step_view cfg s a with
  | same hs =>
    obtain ⟨h₁, h₂, -, h₄⟩ := hs
    exact ⟨by rw [h₁]; exact h.covers, by rw [h₁, h₂]; exact h.free, by rw [h₂]; exact h.carries,
      by rw [h₄]; exact h.calm⟩
  | store hop hs hp _ hr =>
    refine ⟨by rw [hs]; exact h.covers.apply _, ?_, by rw [hp]; exact h.carries, by rw [hr]; exact h.calm⟩
    rw [hs, hp]
    exact fun p h₁ h₂ => free_of_others hop (h.free p h₁ h₂)
  | unknown hnone hx ht =>
    rw [ht]
    refine ⟨h.covers, h.free, h.carries, calm_concat h.calm ?_⟩
    rw [(nextSeq_error hx).2]
    simp
  | begin hnone hn ht =>
    rw [ht]
    refine ⟨h.covers, ?_, ?_, h.calm⟩
    · rintro p ⟨⟩ -
      exact h.covers.next_unused hn
    · rintro p e ⟨⟩ he
      cases he
  | rejected hp ht =>
    rw [ht]
    exact ⟨h.covers, by simp, by simp, calm_concat h.calm (by simp)⟩
  | @append _ _ e _ clock hp ha hn ht =>
    have hcov : CursorCovers (Outbox.append cfg.outbox clock e s.store.db).2 :=
      h.covers.apply (.append cfg.outbox clock e)
    rw [ht]
    rcases append_of_free ha hn (h.free _ hp rfl) cfg.outbox clock with ⟨x, hx, hne⟩ | ⟨db', r, hok, -⟩
    · rw [hx] at hcov ⊢
      exact ⟨hcov, by simp, by simp, calm_concat h.calm hne⟩
    · rw [hok] at hcov ⊢
      refine ⟨hcov, ?_, ?_, h.calm⟩
      · rintro p ⟨⟩ he
        cases he
      · rintro p e ⟨⟩ he
        cases he
        exact ⟨ha, hn⟩
  | finish hp hs hp' _ hr =>
    exact ⟨by rw [hs]; exact h.covers, by simp [hp'], by simp [hp'], by rw [hr]; exact h.calm⟩

theorem flightInv_run (acts : List Action) : FlightInv (run (step cfg) State.init acts) :=
  run_invariant (fun _ a h => h.step cfg a) acts
    ⟨fun f hf => absurd hf (by simp [State.init, Store.empty, Db.empty, Table.empty]),
      by simp [State.init], by simp [State.init], by simp [State.init]⟩

/-! ### Whole runs -/

/-- The action deletes the row of the attempt. -/
def DeletesRow (a : PyStr) (s : State) (act : Action) : Prop :=
  (s.store.db.job? a).isSome ∧ (step cfg s act).store.db.job? a = none

/-- What the append of a publish does to the database. -/
theorem db_publishAppend (now ts : Instant) (id : PyStr) (clock : AppendClock) (s : State) :
    (publishAppend cfg now ts id clock s).store.db = s.store.db ∨
    ∃ call n e, s.publishing = some ⟨call, n, none⟩ ∧
      newEnvelope now ts id call.type call.payload cfg.engineId (some call.buildJobId)
        (some call.attemptId) (some n) = .ok e ∧
      (publishAppend cfg now ts id clock s).store.db =
        (Outbox.append cfg.outbox clock e s.store.db).2 := by
  unfold publishAppend
  split
  · next call n hp =>
    split
    · exact Or.inl rfl
    · next e he =>
      refine Or.inr ⟨call, n, e, hp, he, ?_⟩
      split <;> next h => exact (congrArg Prod.snd h).symm
  · exact Or.inl rfl

/-- Only `prune_terminal` deletes a row. -/
theorem not_deletesRow {a : PyStr} {s : State} {act : Action}
    (hact : ∀ now days, act ≠ .store (.pruneTerminal now days)) : ¬ DeletesRow cfg a s act := by
  rintro ⟨hsome, hnone⟩
  obtain ⟨r, hr⟩ := Option.isSome_iff_exists.mp hsome
  cases act with
  | store op =>
    simp only [step] at hnone
    split_ifs at hnone
    · have hrow := rowStep s.store op a
      rw [hr, show (apply s.store op).db.job? a = none from hnone] at hrow
      cases hrow
      exact hact _ _ rfl
    · rw [hr] at hnone; cases hnone
  | publishAppend now ts id clock =>
    change (publishAppend cfg now ts id clock s).store.db.job? a = none at hnone
    rcases db_publishAppend cfg now ts id clock s with h | ⟨_, _, e, _, _, h⟩
    · rw [h, hr] at hnone; cases hnone
    · have hrow := rowStep s.store (.append cfg.outbox clock e) a
      rw [h] at hnone
      rw [hr, show (apply s.store (.append cfg.outbox clock e)).db.job? a = none from hnone] at hrow
      cases hrow
  | publishBegin call =>
    have : (step cfg s (.publishBegin call)).store = s.store := by
      simp only [step, publishBegin]
      split
      · rfl
      · split <;> rfl
    rw [this, hr] at hnone; cases hnone
  | publishFinish delivered =>
    have : (step cfg s (.publishFinish delivered)).store = s.store := by
      simp only [step, publishFinish]
      split
      · split
        · rfl
        · split_ifs <;> rfl
      · rfl
    rw [this, hr] at hnone; cases hnone
  | connect =>
    simp only [step] at hnone
    split at hnone <;> · rw [hr] at hnone; cases hnone
  | _ =>
    simp only [step] at hnone
    split at hnone
    · rw [(onConnection_sameFlight _ _ _).1, hr] at hnone; cases hnone
    · rw [hr] at hnone; cases hnone

/-- Counting is kept by every action that does not delete the row. -/
theorem CountInv.step {a : PyStr} {s : State} (hf : FlightInv s) (h : CountInv a s) (act : Action)
    (hkeep : ¬ DeletesRow cfg a s act) : CountInv a (step cfg s act) := by
  unfold DeletesRow at hkeep
  cases step_view cfg s act with
  | same hs => exact h.congr (by rw [hs.1]) hs.2.1 hs.2.2.1
  | store hop hs hp hd _ => exact h.others hop hs hp hd hkeep
  | unknown hnone hx ht => exact h.congr (by rw [ht]) (by rw [ht]) (by rw [ht])
  | begin hnone hn ht => exact h.begun hnone hn ht
  | rejected hp ht => exact h.dropped hp (by rw [ht]) (by rw [ht]) (by rw [ht])
  | append clock hp ha hn ht =>
    rcases append_of_free ha hn (hf.free _ hp rfl) cfg.outbox clock with
      ⟨x, hx, -⟩ | ⟨db', r, hok, hr, hr', hother⟩
    · rw [hx] at ht
      exact h.dropped hp (by rw [ht]) (by rw [ht]) (by rw [ht])
    · rw [hok] at ht
      exact h.appended hp hr (by rw [ht]; exact hr') (fun b hb => by rw [ht]; exact hother b hb)
        (by rw [ht]) (by rw [ht])
  | finish hp hs hp' hd _ => exact h.finished hp (hf.carries _ _ hp rfl) hs hp' hd

/-- **Sequence allocation.** In every run of the uplink and the store in which the row of an attempt is not
deleted, the `k`-th publish of the attempt that returns carries the number `k`, whatever is acknowledged,
pruned or replayed in between; and in every run no publish meets the conflicting-sequence error. -/
theorem publish_numbers (a : PyStr) (acts : List Action)
    (hkeep : Along (step cfg) (fun s act => ¬ DeletesRow cfg a s act) State.init acts) :
    (∀ k e, (publishedOf a (run (step cfg) State.init acts))[k]? = some e → e.seq = some (k + 1)) ∧
    .queue .conflictingEvent ∉ (run (step cfg) State.init acts).raised := by
  refine ⟨?_, (flightInv_run cfg acts).calm⟩
  have hinit : FlightInv State.init ∧ CountInv a State.init := ⟨flightInv_run cfg [], countInv_init a⟩
  exact (Along.invariant (I := fun s => FlightInv s ∧ CountInv a s)
    (fun s act hC hI => ⟨hI.1.step cfg act, hI.2.step cfg hI.1 act hC⟩) acts hkeep hinit).2.numbered

end Datetime

/-! ### A run -/

/-- The settings of an uplink. -/
def sampleUplink : UplinkConfig := ⟨zeroEngineId, sampleConfig⟩

/-- A status event of the sample attempt. -/
def sampleCall : PublishCall :=
  ⟨.attemptStatus, [(py "phase", .str (py "install"))], sampleBuild, sampleAttempt, by
    unfold Json.WF; decide +kernel⟩

/-- A publish of its first event. -/
def sampleActs : List Action :=
  [.store (.enqueue 0 samplePayload), .publishBegin sampleCall,
    .publishAppend 1000000 1000000 (py "00000000-0000-4000-8000-000000000001")
      ⟨1000000, 1000000, 1000000⟩, .publishFinish true]

theorem sampleActs_publish :
    ((publishedOf sampleAttempt (run (@step firstDay sampleUplink) State.init sampleActs))[0]?).isSome := by
  decide +kernel

/-- It carries the number one. -/
theorem publish_numbers_first :
    ∃ e, (publishedOf sampleAttempt
      (run (@step firstDay sampleUplink) State.init sampleActs))[0]? = some e ∧ e.seq = some 1 := by
  let _ := firstDay
  obtain ⟨e, he⟩ := Option.isSome_iff_exists.mp sampleActs_publish
  refine ⟨e, he, (publish_numbers sampleUplink sampleAttempt sampleActs ?_).1 0 e he⟩
  exact ⟨not_deletesRow sampleUplink (by simp), not_deletesRow sampleUplink (by simp),
    not_deletesRow sampleUplink (by simp), not_deletesRow sampleUplink (by simp), trivial⟩

end BuildEngine.Agent.SequenceNumbers
