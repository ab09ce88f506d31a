import BuildEngine.Queue.StateMachine

/-! # The columns of a lease

The three lease columns and `cancel_requested` of a row are to agree with its state: a leased row has an
owner, a token and an expiry, every other row has none of them, and a terminal row has no cancellation
request. Every statement of the store keeps this agreement (`RowStep.represented`) except `transition` to
`QUEUED`, which leaves the lease in the row, and `transition` to `LEASED`, which gives it none. -/

namespace BuildEngine.Queue.Representation

open BuildEngine.Base BuildEngine.Base.Run BuildEngine.Agent.Protocol BuildEngine.Queue.Schema
open BuildEngine.Queue BuildEngine.Queue.Store BuildEngine.Queue.Ops BuildEngine.Queue.StateMachine

/-- The lease columns and the request of a row agree with its state. -/
structure Represented (r : JobRow) : Prop where
  leased : r.state.isLeased = true →
    r.leaseOwner ≠ none ∧ r.leaseToken ≠ none ∧ r.leaseExpiresAt ≠ none
  unleased : r.state = .queued ∨ r.state.isTerminal = true →
    r.leaseOwner = none ∧ r.leaseToken = none ∧ r.leaseExpiresAt = none
  terminal : r.state.isTerminal = true → r.cancelRequested = false

/-- The row is found by `acquire_lease` at once, or when its lease has run out. -/
def Leasable (r : JobRow) : Prop :=
  (r.state = .queued → ∀ now, eligible now r = true) ∧
    (r.state.isLeased = true → ∃ t, r.leaseExpiresAt = some t ∧ ∀ now, t ≤ now → eligible now r = true)

/-- Every row is well represented; every row that is not terminal can be leased again, and only a leased row
has a token. -/
def Sound (s : Store) : Prop :=
  ∀ a r, s.db.job? a = some r →
    Represented r ∧ Leasable r ∧ (r.leaseToken ≠ none → r.state.isLeased = true)

/-- The call makes a row's state disagree with its lease. -/
def Unpaired (s : Store) (op : Op) : Prop := transits .queued s op = true ∨ transits .leased s op = true

instance (s : Store) (op : Op) : Decidable (Unpaired s op) := inferInstanceAs (Decidable (_ ∨ _))

/-! ### What follows for a row -/

theorem isLeased_cases (st : JobState) : st.isLeased = true ∨ st = .queued ∨ st.isTerminal = true := by
  cases st <;> simp [JobState.isLeased, JobState.isTerminal]

theorem Represented.leasable {r : JobRow} (h : Represented r) : Leasable r := by
  refine ⟨fun hq now => by simp [eligible, hq], fun hl => ?_⟩
  obtain ⟨t, ht⟩ := Option.ne_none_iff_exists'.mp (h.leased hl).2.2
  refine ⟨t, ht, fun now hle => ?_⟩
  simp [eligible, hl, ht, hle]

theorem Represented.isLeased_of_token {r : JobRow} (h : Represented r) (ht : r.leaseToken ≠ none) :
    r.state.isLeased = true := by
  rcases isLeased_cases r.state with hl | hn
  · exact hl
  · exact absurd (h.unleased hn).2.1 ht

theorem sound_iff {s : Store} : Sound s ↔ ∀ a r, s.db.job? a = some r → Represented r :=
  ⟨fun h a r hr => (h a r hr).1,
    fun h a r hr => ⟨h a r hr, (h a r hr).leasable, (h a r hr).isLeased_of_token⟩⟩

/-! ### One call -/

/-- A leased row is neither waiting nor terminal. -/
theorem not_unleased {st : JobState} (h : st.isLeased = true) : ¬ (st = .queued ∨ st.isTerminal = true) := by
  rintro (rfl | ht)
  · cases h
  · rw [isTerminal_of_isLeased h] at ht
    cases ht

theorem represented_cleared {r : JobRow} (hs : r.state.isLeased = false)
    (hl : r.leaseOwner = none ∧ r.leaseToken = none ∧ r.leaseExpiresAt = none)
    (hc : r.cancelRequested = false) : Represented r :=
  ⟨fun h => absurd h (by simp [hs]), fun _ => hl, fun _ => hc⟩

/-- A transition to a terminal state or to `RUNNING` keeps the agreement. -/
theorem Represented.transitionRow {r : JobRow} {target : JobState} (h : Represented r)
    (hlegal : r.state ∈ legalPreviousStates target) (hq : target ≠ .queued) (hl : target ≠ .leased)
    (error : Option PyStr) (now : Stamp) : Represented (transitionRow target error now r) := by
  by_cases ht : target.isTerminal = true
  · refine represented_cleared ?_ (by simp [Store.transitionRow, ht]) (by simp [Store.transitionRow, ht])
    show target.isLeased = false
    by_contra hleased
    rw [isTerminal_of_isLeased (by simpa using hleased)] at ht
    cases ht
  · have hrun : target = .running := by
      rcases target with _ | _ | _ | _ | _ | _ | _ <;> simp_all [JobState.isTerminal]
    subst hrun
    have hprev : r.state = .leased := by simpa [legalPreviousStates] using hlegal
    refine ⟨fun _ => ?_, fun hn => absurd hn (not_unleased rfl), fun hterm => absurd hterm ht⟩
    simpa [Store.transitionRow, JobState.isTerminal] using h.leased (by rw [hprev]; rfl)

/-- A call that is no such transition keeps the agreement. -/
theorem RowStep.represented {op : Op} {x y : Option JobRow} (h : RowStep op x y)
    (hx : ∀ r, x = some r → Represented r)
    (hop : ∀ r now state error expected owner token target,
      op = .transition now r.attemptId state error expected owner token → x = some r →
      JobState.ofText? state = some target → transitionCheck target expected owner token r = none →
      target ≠ .queued ∧ target ≠ .leased) : ∀ r, y = some r → Represented r := by
  cases h with
  | keep => exact hx
  | insert rowid b a text =>
    rintro r ⟨⟩
    exact represented_cleared rfl ⟨rfl, rfl, rfl⟩ rfl
  | lease he hc =>
    rintro r ⟨⟩
    exact ⟨fun _ => by simp [leaseRow], fun hn => absurd hn (not_unleased rfl), fun ht => (by cases ht)⟩
  | cancel he hc =>
    rintro r ⟨⟩
    exact represented_cleared rfl ⟨rfl, rfl, rfl⟩ rfl
  | @refresh now a owner timeout token r ha hl ho ht =>
    have hr := hx r rfl
    rintro r ⟨⟩
    refine ⟨fun _ => ?_, fun hn => absurd hn (not_unleased hl), hr.terminal⟩
    exact ⟨(hr.leased hl).1, (hr.leased hl).2.1, by simp [refreshRow]⟩
  | @transition now a state error expected owner token r target ha hs hc =>
    subst ha
    obtain ⟨hq, hl⟩ := hop r now state error expected owner token target rfl rfl hs hc
    have hr := hx r rfl
    rintro r ⟨⟩
    exact hr.transitionRow (of_transitionCheck hc).2.2.2 hq hl error _
  | @requestCancel now b a r hb ha hn =>
    have hr := hx r rfl
    rintro r ⟨⟩
    exact ⟨hr.leased, hr.unleased, fun ht => absurd (hn.symm.trans ht) (by simp)⟩
  | @crash now a error owner token r ha hl ho ht =>
    rintro r ⟨⟩
    refine represented_cleared ?_ ⟨rfl, rfl, rfl⟩ rfl
    dsimp only [crashRow]
    split_ifs <;> rfl
  | delete ht hu => exact fun r hr => (by cases hr)
  | @cursor cfg clock e r seq ha hs =>
    have hr := hx r rfl
    rintro r ⟨⟩
    exact ⟨hr.leased, hr.unleased, hr.terminal⟩

theorem sound_apply {s : Store} (h : Sound s) {op : Op} (hop : ¬ Unpaired s op) : Sound (apply s op) := by
  rw [sound_iff] at h ⊢
  intro a
  refine RowStep.represented (rowStep s op a) (h a) ?_
  rintro r now state error expected owner token target rfl hr hs hc
  have hjob : s.db.job? r.attemptId = some r := by rw [Db.attemptId_of_job? hr]; exact hr
  have htakes : transits target s (.transition now r.attemptId state error expected owner token) = true :=
    transits_iff.mpr ⟨hs, r, hjob, hc⟩
  constructor
  · rintro rfl
    exact hop (Or.inl htakes)
  · rintro rfl
    exact hop (Or.inr htakes)

/-- The row after a transition that it passes. -/
theorem job?_of_transits {target : JobState} {s : Store} {op : Op} (h : transits target s op = true) :
    ∃ a r error now, s.db.job? a = some r ∧ r.state ∈ legalPreviousStates target ∧
      (apply s op).db.job? a = some (transitionRow target error now r) := by
  cases op with
  | transition now a state error expected owner token =>
    obtain ⟨hs, r, hr, hc⟩ := transits_iff.mp h
    obtain ⟨s', hs', hdb⟩ := transition_accepts hs hr hc now error
    have hw := transitionWhere_of_check hc
    rw [Db.attemptId_of_job? hr] at hw
    refine ⟨a, r, error, formatDatetime now, hr, (of_transitionCheck hc).2.2.2, ?_⟩
    show (s.transition now a state error expected owner token).2.db.job? a = _
    rw [hs', hdb, job?_update_of_guard hr hw]
  | _ => cases h

/-- Such a transition breaks the agreement at once. -/
theorem not_sound_apply {s : Store} (h : Sound s) {op : Op} (hop : Unpaired s op) :
    ¬ Sound (apply s op) := by
  intro hafter
  rw [sound_iff] at h hafter
  rcases hop with hop | hop
  · obtain ⟨a, r, error, now, hr, hlegal, hrow⟩ := job?_of_transits hop
    have hleased : r.state.isLeased = true := by
      rcases (by simpa [legalPreviousStates] using hlegal : r.state = .leased ∨ r.state = .running) with hs | hs
        <;> rw [hs] <;> rfl
    exact ((h a r hr).leased hleased).1 ((hafter a _ hrow).unleased (Or.inl rfl)).1
  · obtain ⟨a, r, error, now, hr, hlegal, hrow⟩ := job?_of_transits hop
    have hqueued : r.state = .queued := by simpa [legalPreviousStates] using hlegal
    exact ((hafter a _ hrow).leased rfl).1 ((h a r hr).unleased (Or.inl hqueued)).1

/-! ### Whole runs -/

/-- **The columns of a lease.** From an empty store, every state of a run is sound if and only if no call of
the run is a `transition` that moves a row to `QUEUED` or to `LEASED`. -/
theorem rows_represented_iff (ops : List Op) :
    (∀ before after, ops = before ++ after → Sound (run apply Store.empty before)) ↔
      Along apply (fun s op => ¬ Unpaired s op) Store.empty ops := by
  have hstep : ∀ s op, Sound s → (Sound (apply s op) ↔ ¬ Unpaired s op) := fun s op hs =>
    ⟨fun hafter hop => not_sound_apply hs hop hafter, sound_apply hs⟩
  have hempty : Sound Store.empty := by
    intro a r hr
    cases hr
  exact along_iff ops (fun op _ s => hstep s op) hempty

/-- An attempt that `transition` moves to `LEASED`. -/
def stuckOps : List Op :=
  [.enqueue 0 samplePayload, .transition (seconds 1) sampleAttempt (py "LEASED") none none none none]

/-- The attempt is leased, to nobody, and no call of `acquire_lease` ever finds it again. -/
theorem attempt_stuck : ∃ r, (run apply Store.empty stuckOps).db.job? sampleAttempt = some r ∧
    r.state = .leased ∧ r.leaseToken = none ∧ (∀ now, eligible now r = false) ∧
    ¬ Sound (run apply Store.empty stuckOps) := by
  have hjob : ((run apply Store.empty stuckOps).db.job? sampleAttempt).map
      (fun r => (r.state, r.leaseToken, r.leaseExpiresAt)) = some (.leased, none, none) := by
    decide +kernel
  obtain ⟨r, hr, hcols⟩ := Option.map_eq_some_iff.mp hjob
  simp only [Prod.mk.injEq] at hcols
  obtain ⟨hs, ht, hx⟩ := hcols
  refine ⟨r, hr, hs, ht, fun now => by simp [eligible, hs, hx, JobState.isLeased], fun hsound => ?_⟩
  exact ((hsound _ _ hr).1.leased (by rw [hs]; rfl)).2.1 ht

end BuildEngine.Queue.Representation
