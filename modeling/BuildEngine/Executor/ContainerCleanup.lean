import BuildEngine.Executor.Container

/-! # Containers are cleaned up

The invariant of the machine has two parts. `Ordered` says in which order things happen: a remove follows a stop, a
stop the record of the id, and a process whose id is recorded exits after its container or when it was told to.
`Guarded` says, for each await, what has been done to the container so far. Every step that does not lose the
container keeps both, and from the other steps there is no way back: `lost_step` keeps a container lost. -/

namespace BuildEngine.Executor.ContainerCleanup

open BuildEngine.Base.Run BuildEngine.Executor.Container

/-! ### The invariant -/

/-- The order of things. -/
structure Ordered (s : State) : Prop where
  rm_stop : s.rmIssued = true → s.stopIssued = true
  stop_cid : s.stopIssued = true → s.cid = true
  alone_cid : s.alone = true → s.cid = true
  exited : s.process ≠ .running → s.cid = true → s.alone = true ∨ s.stopIssued = true ∨ s.signalled = true
  stdout_finished : s.stdout = .finished → s.process ≠ .running
  stderr_finished : s.stderr = .finished → s.process ≠ .running

/-- Nothing has been done to the container. -/
def Fresh (s : State) : Prop := s.stopIssued = false ∧ s.rmIssued = false ∧ s.signalled = false

/-- Nothing is left to do to the container, unless the process runs untouched. -/
def Accounted (s : State) : Prop :=
  s.cid = true → s.alone = true ∨ (s.stopIssued = true ∧ s.rmIssued = true) ∨
    (s.untouched = true ∧ s.stopIssued = false)

/-- What has been done to the container at each await. -/
def Guarded (s : State) : Prop :=
  match s.phase with
  | .creating | .waiting => Fresh s
  | .stopStarting _ | .stopWaiting _ => s.stopIssued = true ∧ s.rmIssued = false ∧ s.signalled = false
  | .rmStarting _ | .rmWaiting _ => s.stopIssued = true ∧ s.rmIssued = true ∧ s.signalled = false
  | .terminating _ | .killing _ => s.signalled = true ∧ (s.cid = true → s.stopIssued = true ∧ s.rmIssued = true)
  | .gathering _ => Accounted s
  | .done _ => CleanedUp s

/-- The invariant. -/
def Sound (s : State) : Prop := Ordered s ∧ Guarded s

theorem sound_init : Sound State.init := by
  refine ⟨⟨?_, ?_, ?_, ?_, ?_, ?_⟩, ⟨rfl, rfl, rfl⟩⟩ <;> simp [State.init]

/-- The order of things has nothing to do with the await. -/
theorem Ordered.phase {s : State} (h : Ordered s) (p : Phase) : Ordered { s with phase := p } :=
  ⟨h.rm_stop, h.stop_cid, h.alone_cid, h.exited, h.stdout_finished, h.stderr_finished⟩

theorem untouched_iff {s : State} : s.untouched = true ↔ s.process = .running ∧ s.signalled = false := by
  simp [State.untouched]

theorem not_untouched {s : State} : s.untouched = false ↔ s.process ≠ .running ∨ s.signalled = true := by
  rw [← Bool.not_eq_true, untouched_iff, not_and_or, Bool.not_eq_false]

theorem pumpFailed_iff {s : State} : s.pumpFailed = true ↔ s.stdout = .failed ∨ s.stderr = .failed := by
  simp [State.pumpFailed]

/-- A container that is accounted for is cleaned up, unless the process runs untouched. -/
theorem Accounted.cleanedUp {s : State} (h : Accounted s) (hun : s.untouched = false) : CleanedUp s := by
  refine ⟨not_untouched.mp hun, fun hcid => ?_⟩
  rcases h hcid with halone | hboth | ⟨hrun, -⟩
  · exact Or.inl halone
  · exact Or.inr hboth
  · rw [hun] at hrun
    exact absurd hrun Bool.false_ne_true

/-! ### The stretches of code -/

/-- The `finally` leaves the container accounted for, or cleaned up if it ends. -/
theorem sound_gather {s : State} (e : Ending) (h : Ordered s) (hacc : Accounted s)
    (hok : s.untouched = true → s.pumpFailed = false) : Sound (gather e s) := by
  unfold gather
  split_ifs with hfail hfin
  · have hun : s.untouched = false := by
      by_contra hne
      have := hok (Bool.not_eq_false _ ▸ hne)
      rw [← Bool.not_eq_true, pumpFailed_iff] at this
      exact this hfail
    exact ⟨h.phase _, hacc.cleanedUp hun⟩
  · have hexited : s.process ≠ .running := h.stdout_finished hfin.1
    exact ⟨h.phase _, hacc.cleanedUp (not_untouched.mpr (Or.inl hexited))⟩
  · exact ⟨h.phase _, hacc⟩

theorem accounted_of_both {s : State} (hstop : s.stopIssued = true) (hrm : s.rmIssued = true) : Accounted s :=
  fun _ => Or.inr (Or.inl ⟨hstop, hrm⟩)

/-- A container that nothing was done to is accounted for: it exited by itself, or the process runs. -/
theorem Fresh.accounted {s : State} (hf : Fresh s) (h : Ordered s) : Accounted s := by
  intro hcid
  obtain ⟨hstop, -, hsig⟩ := hf
  by_cases hrun : s.process = .running
  · exact Or.inr (Or.inr ⟨untouched_iff.mpr ⟨hrun, hsig⟩, hstop⟩)
  · rcases h.exited hrun hcid with halone | hstop' | hsig'
    · exact Or.inl halone
    · rw [hstop] at hstop'
      exact absurd hstop' Bool.false_ne_true
    · rw [hsig] at hsig'
      exact absurd hsig' Bool.false_ne_true

/-- `_terminate_then_kill` after the container was stopped and removed, or where there is none. -/
theorem sound_terminate {s : State} (why : Reason) (h : Ordered s)
    (hboth : s.cid = true → s.stopIssued = true ∧ s.rmIssued = true) : Sound (terminate why s) := by
  unfold terminate
  split
  · next code hp =>
    refine sound_gather _ h (fun hcid => Or.inr (Or.inl (hboth hcid))) fun hun => ?_
    rw [untouched_iff, hp] at hun
    exact absurd hun.1 Process.noConfusion
  · have hexited : ∀ hp : s.process ≠ .running, s.cid = true → s.alone = true ∨ s.stopIssued = true ∨ true = true :=
      fun _ _ => Or.inr (Or.inr rfl)
    exact ⟨⟨h.rm_stop, h.stop_cid, h.alone_cid, hexited, h.stdout_finished, h.stderr_finished⟩, rfl, hboth⟩

theorem sound_stopContainer {s : State} (why : Reason) (h : Ordered s) (hf : Fresh s) :
    Sound (stopContainer why s) := by
  unfold stopContainer
  split_ifs with hcid
  · have hexited : s.process ≠ .running → s.cid = true → s.alone = true ∨ true = true ∨ s.signalled = true :=
      fun _ _ => Or.inr (Or.inl rfl)
    exact ⟨⟨fun _ => rfl, fun _ => hcid, h.alone_cid, hexited, h.stdout_finished, h.stderr_finished⟩, rfl, hf.2⟩
  · exact sound_terminate why h fun hcid' => absurd hcid' hcid

theorem sound_loop {s : State} (h : Ordered s) (hf : Fresh s) : Sound (loop s) := by
  unfold loop
  split_ifs
  · exact sound_stopContainer .cancelEvent h hf
  · exact sound_stopContainer .deadline h hf
  · exact ⟨h.phase _, hf⟩

/-! ### The steps that keep the invariant -/

theorem step_of_done {s : State} (act : Action) (h : s.isDone = true) : step s act = s := by
  rw [step.eq_def, if_pos h]

theorem isDone_of_phase {s : State} {e : Ending} (hp : s.phase = .done e) : s.isDone = true := by
  rw [State.isDone, hp]

/-- What happens to the container and its process at an await leaves it guarded, if the id is not recorded after a
signal. -/
theorem Guarded.kept {s t : State} (hg : Guarded s) (hnot : s.isDone = false) (hp : t.phase = s.phase)
    (hstop : t.stopIssued = s.stopIssued) (hrm : t.rmIssued = s.rmIssued) (hsig : t.signalled = s.signalled)
    (hcid : s.signalled = true → t.cid = true → s.cid = true) (hacc : Accounted s → Accounted t) : Guarded t := by
  unfold Guarded at hg ⊢
  unfold Fresh at hg ⊢
  rw [hp, hstop, hrm, hsig]
  rcases hphase : s.phase with _ | _ | _ | _ | _ | _ | _ | _ | _ | e <;> rw [hphase] at hg
  · exact hg
  · exact hg
  · exact hg
  · exact hg
  · exact hg
  · exact hg
  · exact ⟨hg.1, fun h => hg.2 (hcid hg.1 h)⟩
  · exact ⟨hg.1, fun h => hg.2 (hcid hg.1 h)⟩
  · exact hacc hg
  · exact absurd (hnot.symm.trans (isDone_of_phase hphase)) Bool.false_ne_true

/-- The container exits. -/
theorem sound_containerExit {s : State} (h : Sound s) (hnot : s.isDone = false) (b : Bool) (hcid : s.cid = true) :
    Sound { s with alone := s.alone || b } := by
  obtain ⟨h, hg⟩ := h
  have hmore : s.alone = true → (s.alone || b) = true := fun halone => by rw [halone, Bool.true_or]
  have hexited : s.process ≠ .running → s.cid = true →
      (s.alone || b) = true ∨ s.stopIssued = true ∨ s.signalled = true :=
    fun hp hcid => (h.exited hp hcid).imp_left hmore
  refine ⟨⟨h.rm_stop, h.stop_cid, fun _ => hcid, hexited, h.stdout_finished, h.stderr_finished⟩, ?_⟩
  exact hg.kept hnot rfl rfl rfl rfl (fun _ h => h) fun hacc hcid => (hacc hcid).imp_left hmore

/-- The process exits: where nothing was done to the container, the container has exited before. -/
theorem sound_exit {s : State} (h : Sound s) (hnot : s.isDone = false) (code : ℤ)
    (hguard : s.cid = true → s.alone = true ∨ s.stopIssued = true ∨ s.signalled = true) :
    Sound { s with process := .exited code } := by
  obtain ⟨h, hg⟩ := h
  refine ⟨⟨h.rm_stop, h.stop_cid, h.alone_cid, fun _ => hguard, fun _ => Process.noConfusion,
    fun _ => Process.noConfusion⟩, ?_⟩
  refine hg.kept hnot rfl rfl rfl rfl (fun _ h => h) fun hacc hcid => ?_
  rcases hacc hcid with halone | hboth | ⟨hun, hstop⟩
  · exact Or.inl halone
  · exact Or.inr (Or.inl hboth)
  · rcases hguard hcid with halone | hstop' | hsig
    · exact Or.inl halone
    · exact absurd (hstop.symm.trans hstop') Bool.false_ne_true
    · exact absurd ((untouched_iff.mp hun).2.symm.trans hsig) Bool.false_ne_true

/-- The id is recorded, by a process that was sent no signal. -/
theorem sound_record {s : State} (h : Sound s) (hnot : s.isDone = false) (hrun : s.process = .running)
    (hok : s.signalled = true → s.cid = true) : Sound { s with cid := true } := by
  obtain ⟨h, hg⟩ := h
  refine ⟨⟨h.rm_stop, fun _ => rfl, fun _ => rfl, fun hp => absurd hrun hp, h.stdout_finished,
    h.stderr_finished⟩, ?_⟩
  refine hg.kept hnot rfl rfl rfl rfl (fun hsig _ => hok hsig) fun hacc _ => ?_
  by_cases hcid : s.cid = true
  · exact hacc hcid
  · have hstop : s.stopIssued = false := Bool.eq_false_iff.mpr fun hstop => hcid (h.stop_cid hstop)
    have hsig : s.signalled = false := Bool.eq_false_iff.mpr fun hsig => hcid (hok hsig)
    exact Or.inr (Or.inr ⟨untouched_iff.mpr ⟨hrun, hsig⟩, hstop⟩)

/-- Before an id is recorded without loss, a process that was sent a signal has recorded it already. -/
theorem cid_of_signalled {s : State} (h : Sound s) (hnot : s.isDone = false) (hrun : s.process = .running)
    (hok : Loses s .record = false) (hsig : s.signalled = true) : s.cid = true := by
  have hg := h.2
  have hclean : s.signalled = false → s.cid = true :=
    fun hsig' => absurd (hsig'.symm.trans hsig) Bool.false_ne_true
  unfold Guarded at hg
  unfold Loses at hok
  rcases hphase : s.phase with _ | _ | _ | _ | _ | _ | _ | _ | _ | e <;>
    simp only [hphase, hrun, hsig, decide_true, Bool.true_and, Bool.not_eq_false'] at hg hok
  · exact hclean hg.2.2
  · exact hclean hg.2.2
  · exact absurd hg.2.2.symm Bool.false_ne_true
  · exact absurd hg.2.2.symm Bool.false_ne_true
  · exact absurd hg.2.2.symm Bool.false_ne_true
  · exact absurd hg.2.2.symm Bool.false_ne_true
  · exact hok
  · exact hok
  · exact hok
  · exact absurd (hnot.symm.trans (isDone_of_phase hphase)) Bool.false_ne_true

/-- The cancel event and the deadline are in no part of the invariant. -/
theorem sound_events {s : State} (h : Sound s) (cancelEvent expired : Bool) :
    Sound { s with cancelEvent := cancelEvent, expired := expired } := by
  obtain ⟨h, hg⟩ := h
  exact ⟨⟨h.rm_stop, h.stop_cid, h.alone_cid, h.exited, h.stdout_finished, h.stderr_finished⟩, hg⟩

/-- A pump ends; a `gather` that waits for it goes on. -/
theorem sound_pumpDone {s : State} (h : Sound s) (hnot : s.isDone = false) (stream : Stream) (p : Pump)
    (hend : p = .finished → s.process ≠ .running)
    (hun : ∀ e, s.phase = .gathering e → s.untouched = false) : Sound (pumpDone stream p s) := by
  obtain ⟨h, hg⟩ := h
  have hother : ∀ t : State, Ordered t → t.phase = s.phase → t.stopIssued = s.stopIssued → t.rmIssued = s.rmIssued →
      t.signalled = s.signalled → t.cid = s.cid → (Accounted s → Accounted t) → Sound t :=
    fun t ht hp hstop hrm hsig hcid hacc => ⟨ht, hg.kept hnot hp hstop hrm hsig (fun _ h => hcid ▸ h) hacc⟩
  have hgather : ∀ t : State, Sound t → ∀ e, t.phase = .gathering e → t.untouched = false → Sound (gather e t) := by
    intro t ⟨ht, hgt⟩ e hphase hsame
    unfold Guarded at hgt
    rw [hphase] at hgt
    refine sound_gather e ht hgt fun hrun => ?_
    rw [hsame] at hrun
    exact absurd hrun Bool.false_ne_true
  unfold pumpDone
  rcases stream with _ | _
  · have ht : Sound { s with stdout := p } :=
      hother _ ⟨h.rm_stop, h.stop_cid, h.alone_cid, h.exited, hend, h.stderr_finished⟩ rfl rfl rfl rfl rfl id
    dsimp only
    split
    · next e hphase => exact hgather _ ht e hphase (hun e hphase)
    · exact ht
  · have ht : Sound { s with stderr := p } :=
      hother _ ⟨h.rm_stop, h.stop_cid, h.alone_cid, h.exited, h.stdout_finished, hend⟩ rfl rfl rfl rfl rfl id
    dsimp only
    split
    · next e hphase => exact hgather _ ht e hphase (hun e hphase)
    · exact ht

/-- `process.wait()` returns. -/
theorem sound_processDone {s : State} (h : Sound s) : Sound (processDone s) := by
  obtain ⟨h, hg⟩ := h
  have hover : ∀ {code e}, s.process = .exited code → Accounted s → Sound (gather e s) := by
    intro code e hp hacc
    refine sound_gather e h hacc fun hun => ?_
    rw [untouched_iff, hp] at hun
    exact absurd hun.1 Process.noConfusion
  unfold processDone
  split
  · next code hp hphase =>
    unfold Guarded at hg
    rw [hphase] at hg
    exact hover hp (Fresh.accounted hg h)
  · next code why hp hphase =>
    unfold Guarded at hg
    rw [hphase] at hg
    exact hover hp fun hcid => Or.inr (Or.inl (hg.2 hcid))
  · next code why hp hphase =>
    unfold Guarded at hg
    rw [hphase] at hg
    exact hover hp fun hcid => Or.inr (Or.inl (hg.2 hcid))
  · exact ⟨h, hg⟩

/-- An await on a helper process returns. -/
theorem sound_helperDone {s : State} (h : Sound s) : Sound (helperDone s) := by
  obtain ⟨h, hg⟩ := h
  unfold helperDone
  split
  · next why hphase =>
    unfold Guarded at hg
    rw [hphase] at hg
    exact ⟨h.phase _, hg⟩
  · next why hphase =>
    unfold Guarded at hg
    rw [hphase] at hg
    exact ⟨⟨fun _ => hg.1, h.stop_cid, h.alone_cid, h.exited, h.stdout_finished, h.stderr_finished⟩, hg.1, rfl, hg.2.2⟩
  · next why hphase =>
    unfold Guarded at hg
    rw [hphase] at hg
    exact ⟨h.phase _, hg⟩
  · next why hphase =>
    unfold Guarded at hg
    rw [hphase] at hg
    exact sound_terminate why h fun _ => ⟨hg.1, hg.2.1⟩
  · exact ⟨h, hg⟩

/-- The task is cancelled. -/
theorem sound_cancel {s : State} (h : Sound s) (hok : Loses s .cancelTask = false) : Sound (cancel s) := by
  obtain ⟨h, hg⟩ := h
  have hpump : (s.untouched && s.pumpFailed) = false → s.untouched = true → s.pumpFailed = false := by
    intro hboth hun
    rwa [hun, Bool.true_and] at hboth
  have hsignalled : s.signalled = true → s.untouched = true → s.pumpFailed = false := by
    intro hsig hun
    exact absurd ((untouched_iff.mp hun).2.symm.trans hsig) Bool.false_ne_true
  unfold Guarded at hg
  unfold Loses at hok
  unfold cancel
  rcases hphase : s.phase with _ | _ | why | why | why | why | why | why | e | e <;>
    simp only [hphase] at hg hok ⊢
  · have halone : s.cid = true → s.alone = true := fun hcid => by
      rwa [hcid, Bool.true_and, Bool.not_eq_false'] at hok
    refine ⟨⟨h.rm_stop, h.stop_cid, h.alone_cid, fun _ hcid => Or.inl (halone hcid), h.stdout_finished,
      h.stderr_finished⟩, ?_, fun hcid => Or.inl (halone hcid)⟩
    by_cases hrun : s.process = .running
    · exact Or.inr (by rw [decide_eq_true hrun, Bool.or_true])
    · exact Or.inl hrun
  · exact sound_gather _ h (Fresh.accounted hg h) (hpump hok)
  · rw [Bool.or_eq_false_iff, Bool.not_eq_false'] at hok
    exact sound_gather _ h (fun _ => Or.inl hok.1) (hpump hok.2)
  · rw [Bool.or_eq_false_iff, Bool.not_eq_false'] at hok
    exact sound_gather _ h (fun _ => Or.inl hok.1) (hpump hok.2)
  · exact sound_gather _ h (accounted_of_both hg.1 hg.2.1) (hpump hok)
  · exact sound_gather _ h (accounted_of_both hg.1 hg.2.1) (hpump hok)
  · exact sound_gather _ h (fun hcid => Or.inr (Or.inl (hg.2 hcid))) (hsignalled hg.1)
  · exact sound_gather _ h (fun hcid => Or.inr (Or.inl (hg.2 hcid))) (hsignalled hg.1)
  · exact ⟨h.phase _, Accounted.cleanedUp hg hok⟩
  · refine ⟨h, ?_⟩
    unfold Guarded
    rw [hphase]
    exact hg

/-- **A step that does not lose the container keeps the invariant.** -/
theorem sound_step {s : State} {act : Action} (h : Sound s) (hok : Loses s act = false) : Sound (step s act) := by
  by_cases hdone : s.isDone = true
  · rwa [step_of_done act hdone]
  have hnot : s.isDone = false := Bool.eq_false_iff.mpr hdone
  rw [step.eq_def, if_neg hdone]
  rcases act with _ | _ | code | _ | _ | _ | _ | _ | _ | _ | stream | stream | _ <;> dsimp only
  · split_ifs with hp
    · have hf := h.2
      unfold Guarded at hf
      rw [hp] at hf
      have hstarted : Ordered { s with stdout := .running, stderr := .running } :=
        ⟨h.1.rm_stop, h.1.stop_cid, h.1.alone_cid, h.1.exited, Pump.noConfusion, Pump.noConfusion⟩
      exact sound_loop hstarted hf
    · exact h
  · split_ifs with hp
    · exact sound_containerExit h hnot _ hp.2
    · exact h
  · split_ifs with hp
    · exact sound_exit h hnot code hp.2
    · exact h
  · split_ifs with hp
    · exact sound_record h hnot hp (cid_of_signalled h hnot hp hok)
    · exact h
  · exact sound_events h true s.expired
  · split_ifs
    · exact h
    · exact sound_events h s.cancelEvent true
  · split_ifs with hp
    · have hf := h.2
      unfold Guarded at hf
      rw [hp] at hf
      exact sound_loop h.1 hf
    · exact h
  · exact sound_processDone h
  · exact sound_helperDone h
  · split
    · next why hp =>
      have hg := h.2
      unfold Guarded at hg
      rw [hp] at hg
      split_ifs
      · exact ⟨h.1.phase _, hg⟩
      · exact h
    · exact h
  · split_ifs with hp
    · exact sound_pumpDone h hnot stream _ (fun _ => hp.2) fun _ _ => not_untouched.mpr (Or.inl hp.2)
    · exact h
  · split_ifs with hp
    · refine sound_pumpDone h hnot stream _ Pump.noConfusion fun e hphase => ?_
      unfold Loses at hok
      simpa only [hphase, hp, decide_true, Bool.and_true] using hok
    · exact h
  · exact sound_cancel h hok

/-! ### The steps that lose the container -/

/-- The awaits after `_stop_container`. -/
def late : Phase → Bool
  | .terminating _ | .killing _ | .gathering _ | .done _ => true
  | _ => false

/-- The container neither exited by itself nor was removed, and will not be. -/
structure Lost (s : State) : Prop where
  late : late s.phase = true
  cid : s.cid = true
  alone : s.alone = false
  rm : s.rmIssued = false
  touched : s.stopIssued = true ∨ s.signalled = true

/-- `run_container` is over, and the process runs. -/
def Stranded (s : State) : Prop := s.isDone = true ∧ s.untouched = true

/-- There is no way back to a container that is cleaned up. -/
def Doomed (s : State) : Prop := Lost s ∨ Stranded s

theorem Doomed.not_cleanedUp {s : State} (h : Doomed s) : ¬ CleanedUp s := by
  rintro ⟨hprocess, hcontainer⟩
  rcases h with h | ⟨-, hun⟩
  · rcases hcontainer h.cid with halone | ⟨-, hrm⟩
    · exact absurd (h.alone.symm.trans halone) Bool.false_ne_true
    · exact absurd (h.rm.symm.trans hrm) Bool.false_ne_true
  · rw [← not_untouched, hun] at hprocess
    exact absurd hprocess.symm Bool.false_ne_true

/-- The `finally` moves the task on and does nothing to the container. -/
theorem gather_phase (e : Ending) (s : State) : ∃ p, late p = true ∧ gather e s = { s with phase := p } := by
  unfold gather
  split_ifs
  · exact ⟨_, rfl, rfl⟩
  · exact ⟨_, rfl, rfl⟩
  · exact ⟨_, rfl, rfl⟩

theorem gather_failed {s : State} (e : Ending) (h : s.pumpFailed = true) :
    gather e s = { s with phase := .done .pumpError } := by
  rw [gather, if_pos (pumpFailed_iff.mp h)]

/-- A `finally` that raises for a pump strands a process that runs untouched. -/
theorem stranded_gather {s : State} (e : Ending) (hun : s.untouched = true) (h : s.pumpFailed = true) :
    Stranded (gather e s) := by
  rw [gather_failed e h]
  exact ⟨rfl, hun⟩

theorem lost_gather {s : State} (e : Ending) (hcid : s.cid = true) (halone : s.alone = false)
    (hrm : s.rmIssued = false) (htouched : s.stopIssued = true ∨ s.signalled = true) : Lost (gather e s) := by
  obtain ⟨p, hp, heq⟩ := gather_phase e s
  rw [heq]
  exact ⟨hp, hcid, halone, hrm, htouched⟩

theorem Lost.gather {s : State} (h : Lost s) (e : Ending) : Lost (gather e s) :=
  lost_gather e h.cid h.alone h.rm h.touched

theorem Lost.pumpDone {s : State} (h : Lost s) (stream : Stream) (p : Pump) : Lost (pumpDone stream p s) := by
  obtain ⟨hlate, hcid, halone, hrm, htouched⟩ := h
  unfold Container.pumpDone
  rcases stream with _ | _ <;> dsimp only <;> split
  · exact lost_gather _ hcid halone hrm htouched
  · exact ⟨hlate, hcid, halone, hrm, htouched⟩
  · exact lost_gather _ hcid halone hrm htouched
  · exact ⟨hlate, hcid, halone, hrm, htouched⟩

theorem Lost.cancel {s : State} (h : Lost s) : Lost (cancel s) := by
  have hlate := h.late
  unfold Container.cancel
  split
  · next hp => rw [hp] at hlate; exact absurd hlate Bool.false_ne_true
  · exact ⟨rfl, h.cid, h.alone, h.rm, h.touched⟩
  · exact h
  · exact h.gather _

theorem Lost.processDone {s : State} (h : Lost s) : Lost (processDone s) := by
  unfold Container.processDone
  split
  · exact h.gather _
  · exact h.gather _
  · exact h.gather _
  · exact h

theorem Lost.helperDone {s : State} (h : Lost s) : Lost (helperDone s) := by
  have hlate := h.late
  unfold Container.helperDone
  split
  · next hp => rw [hp] at hlate; exact absurd hlate Bool.false_ne_true
  · next hp => rw [hp] at hlate; exact absurd hlate Bool.false_ne_true
  · next hp => rw [hp] at hlate; exact absurd hlate Bool.false_ne_true
  · next hp => rw [hp] at hlate; exact absurd hlate Bool.false_ne_true
  · exact h

/-- A lost container stays lost. -/
theorem Lost.step {s : State} (h : Lost s) (act : Action) : Lost (step s act) := by
  obtain ⟨hlate, hcid, halone, hrm, htouched⟩ := id h
  by_cases hdone : s.isDone = true
  · rwa [step_of_done act hdone]
  rw [step.eq_def, if_neg hdone]
  rcases act with _ | _ | code | _ | _ | _ | _ | _ | _ | _ | stream | stream | _ <;> dsimp only
  · split_ifs with hp
    · rw [hp] at hlate
      exact absurd hlate Bool.false_ne_true
    · exact h
  · split_ifs with hp
    · refine ⟨hlate, hcid, ?_, hrm, htouched⟩
      rcases htouched with hstop | hsig
      · simp [halone, hstop]
      · simp [halone, hsig]
    · exact h
  · split_ifs
    · exact ⟨hlate, hcid, halone, hrm, htouched⟩
    · exact h
  · split_ifs
    · exact ⟨hlate, rfl, halone, hrm, htouched⟩
    · exact h
  · exact ⟨hlate, hcid, halone, hrm, htouched⟩
  · split_ifs
    · exact h
    · exact ⟨hlate, hcid, halone, hrm, htouched⟩
  · split_ifs with hp
    · rw [hp] at hlate
      exact absurd hlate Bool.false_ne_true
    · exact h
  · exact h.processDone
  · exact h.helperDone
  · split
    · split_ifs
      · exact ⟨rfl, hcid, halone, hrm, htouched⟩
      · exact h
    · exact h
  · split_ifs
    · exact h.pumpDone stream _
    · exact h
  · split_ifs
    · exact h.pumpDone stream _
    · exact h
  · exact h.cancel

theorem Doomed.step {s : State} (h : Doomed s) (act : Action) : Doomed (step s act) := by
  rcases h with h | ⟨hdone, hun⟩
  · exact Or.inl (h.step act)
  · rw [step_of_done act hdone]
    exact Or.inr ⟨hdone, hun⟩

/-- A pump that fails while `gather` waits for it. -/
theorem stranded_pumpFails {s : State} {e : Ending} (stream : Stream) (hphase : s.phase = .gathering e)
    (hun : s.untouched = true) : Stranded (pumpDone stream .failed s) := by
  rcases stream with _ | _
  · rw [pumpDone, hphase]
    exact stranded_gather e hun (pumpFailed_iff.mpr (Or.inl rfl))
  · rw [pumpDone, hphase]
    exact stranded_gather e hun (pumpFailed_iff.mpr (Or.inr rfl))

/-- The id is recorded after a signal. -/
theorem lost_record {s : State} (h : Ordered s) (hlate : late s.phase = true) (hcid : s.cid = false)
    (hsig : s.signalled = true) : Lost { s with cid := true } := by
  have hnot : ∀ {b : Bool}, (b = true → s.cid = true) → b = false :=
    fun hb => Bool.eq_false_iff.mpr fun h => absurd (hcid.symm.trans (hb h)) Bool.false_ne_true
  exact ⟨hlate, rfl, hnot h.alone_cid, hnot fun hrm => h.stop_cid (h.rm_stop hrm), Or.inr hsig⟩

/-- The task is cancelled at a bad time. -/
theorem doomed_cancel {s : State} (h : Sound s) (hloses : Loses s .cancelTask = true) : Doomed (cancel s) := by
  obtain ⟨h, hg⟩ := h
  have hstranded : ∀ e, s.untouched = true ∧ s.pumpFailed = true → Doomed (gather e s) :=
    fun e hboth => Or.inr (stranded_gather e hboth.1 hboth.2)
  have hstopping : s.stopIssued = true → s.rmIssued = false → s.alone = false ∨ (s.untouched = true ∧
      s.pumpFailed = true) → Doomed (gather .cancelledError s) := by
    rintro hstop hrm (halone | hboth)
    · exact Or.inl (lost_gather _ (h.stop_cid hstop) halone hrm (Or.inl hstop))
    · exact hstranded _ hboth
  unfold Guarded at hg
  unfold Loses at hloses
  unfold cancel
  rcases hphase : s.phase with _ | _ | _ | _ | _ | _ | _ | _ | e | e <;>
    simp only [hphase, Bool.and_eq_true, Bool.or_eq_true, Bool.not_eq_true', Bool.false_eq_true] at hg hloses ⊢
  · obtain ⟨hstop, hrm, hsig⟩ := hg
    obtain ⟨hcid, halone⟩ := hloses
    have hrun : s.process = .running := by
      by_contra hexited
      rcases h.exited hexited hcid with h' | h' | h'
      · exact absurd (halone.symm.trans h') Bool.false_ne_true
      · exact absurd (hstop.symm.trans h') Bool.false_ne_true
      · exact absurd (hsig.symm.trans h') Bool.false_ne_true
    exact Or.inl ⟨rfl, hcid, halone, hrm, Or.inr (by rw [decide_eq_true hrun, Bool.or_true])⟩
  · exact hstranded _ hloses
  · exact hstopping hg.1 hg.2.1 hloses
  · exact hstopping hg.1 hg.2.1 hloses
  · exact hstranded _ hloses
  · exact hstranded _ hloses
  · exact Or.inr ⟨rfl, hloses⟩

/-- After the end nothing is lost. -/
theorem not_loses_of_done {s : State} (act : Action) (h : s.isDone = true) : Loses s act = false := by
  unfold State.isDone at h
  split at h
  · next e hphase =>
    unfold Loses
    rw [hphase]
    rcases act with _ | _ | _ | _ | _ | _ | _ | _ | _ | _ | _ | _ | _ <;> rfl
  · exact absurd h Bool.false_ne_true

/-- The steps that lose the container. -/
theorem loses_cases {s : State} {act : Action} (h : Loses s act = true) :
    act = .cancelTask ∨
    (act = .record ∧ late s.phase = true ∧ s.process = .running ∧ s.cid = false ∧
      ((∃ e, s.phase = .gathering e) → s.signalled = true)) ∨
    ∃ stream e, act = .pumpFails stream ∧ s.phase = .gathering e ∧ s.untouched = true ∧
      s.pump stream = .running := by
  unfold Loses at h
  split at h
  · exact Or.inl rfl
  · exact Or.inl rfl
  · exact Or.inl rfl
  · exact Or.inl rfl
  · exact Or.inl rfl
  · exact Or.inl rfl
  · exact Or.inl rfl
  · next stream e hphase =>
    rw [Bool.and_eq_true, decide_eq_true_eq] at h
    exact Or.inr (Or.inr ⟨stream, e, rfl, hphase, h⟩)
  · next why hphase =>
    rw [Bool.and_eq_true, decide_eq_true_eq, Bool.not_eq_true'] at h
    refine Or.inr (Or.inl ⟨rfl, by rw [hphase]; rfl, h.1, h.2, ?_⟩)
    rintro ⟨e, hphase'⟩
    exact absurd (hphase.symm.trans hphase') Phase.noConfusion
  · next why hphase =>
    rw [Bool.and_eq_true, decide_eq_true_eq, Bool.not_eq_true'] at h
    refine Or.inr (Or.inl ⟨rfl, by rw [hphase]; rfl, h.1, h.2, ?_⟩)
    rintro ⟨e, hphase'⟩
    exact absurd (hphase.symm.trans hphase') Phase.noConfusion
  · next e hphase =>
    rw [Bool.and_eq_true, Bool.and_eq_true, decide_eq_true_eq, Bool.not_eq_true'] at h
    exact Or.inr (Or.inl ⟨rfl, by rw [hphase]; rfl, h.1.1, h.2, fun _ => h.1.2⟩)
  · exact absurd h Bool.false_ne_true

/-- **A step that loses the container leaves no way back.** -/
theorem doomed_of_loses {s : State} {act : Action} (h : Sound s) (hloses : Loses s act = true) :
    Doomed (step s act) := by
  have hnot : ¬ s.isDone = true := by
    intro hdone
    rw [not_loses_of_done act hdone] at hloses
    exact absurd hloses Bool.false_ne_true
  rw [step.eq_def, if_neg hnot]
  rcases loses_cases hloses with rfl | ⟨rfl, hlate, hrun, hcid, hsig⟩ | ⟨stream, e, rfl, hphase, hun, hpump⟩ <;>
    dsimp only
  · exact doomed_cancel h hloses
  · rw [if_pos hrun]
    refine Or.inl (lost_record h.1 hlate hcid ?_)
    have hg := h.2
    unfold Guarded at hg
    rcases hphase : s.phase with _ | _ | _ | _ | _ | _ | _ | _ | e | e <;>
      simp only [hphase, late, Bool.false_eq_true] at hg hlate
    · exact hg.1
    · exact hg.1
    · exact hsig ⟨e, hphase⟩
    · exact absurd (isDone_of_phase hphase) hnot
  · rw [if_pos hpump]
    exact Or.inr (stranded_pumpFails stream hphase hun)

/-! ### The runs -/

/-- **Cleanup of containers**: a run of `run_container` ends with its container cleaned up if and only if none of its
steps loses the container. -/
theorem cleanedUp_iff (acts : List Action) (hdone : (run step State.init acts).isDone = true) :
    CleanedUp (run step State.init acts) ↔ Along step (fun s act => Loses s act = false) State.init acts := by
  refine iff_along_of_doomed (I := Sound) (D := Doomed) (E := fun s => s.isDone = true) ?_ ?_ ?_ ?_ ?_ acts
    sound_init hdone
  · exact fun s act h hok => sound_step h hok
  · exact fun s act h hok => doomed_of_loses h (Bool.of_not_eq_false hok)
  · exact fun s act h => h.step act
  · rintro s ⟨-, hg⟩ hend
    unfold State.isDone at hend
    split at hend
    · next e hphase =>
      unfold Guarded at hg
      rw [hphase] at hg
      exact hg
    · exact absurd hend Bool.false_ne_true
  · exact fun s h _ => h.not_cleanedUp

/-- The deadline passes while the container runs. -/
def timedOutRun : List Action :=
  [.created, .record, .deadline, .tick, .helper, .helper, .exit 137, .helper, .helper, .pumpEnds .stdout,
    .pumpEnds .stderr]

/-- The container is stopped and removed, and the result says that it timed out. -/
theorem timed_out_cleaned :
    (run step State.init timedOutRun).phase = .done (.returned ⟨137, true, false⟩) ∧
      CleanedUp (run step State.init timedOutRun) :=
  ⟨by decide, (cleanedUp_iff timedOutRun (by decide)).mpr (by decide)⟩

/-- The publisher of a log fails, and the task is cancelled: the `finally` raises, and the process is left running. -/
theorem failed_pump_strands :
    let s := run step State.init [.created, .record, .pumpFails .stdout, .cancelTask]
    s.phase = .done .pumpError ∧ s.process = .running ∧ s.signalled = false ∧ s.cid = true ∧
      s.alone = false ∧ s.stopIssued = false ∧ ¬ CleanedUp s := by
  decide

end BuildEngine.Executor.ContainerCleanup
