import BuildEngine.Base.Run

/-! # The drain marker

Whether an engine takes assignments is decided by one file of its state directory, `drain.json`. It is written
and removed by `build-engine drain` and `resume`, each a process of its own; by the `drain` frames of the
backend, in the service; and by the handler of SIGTERM and SIGINT in `_run_service` of `cli/commands.py`, which
drains before it stops the workers. The machine below has the file, the service and all three writers. Beside
them it keeps the most recent command, and whether a shutdown has drained since. -/

namespace BuildEngine.Agent.DrainMarker

open BuildEngine.Base.Run

/-- The commands of an operator or the backend. -/
inductive Command where
  | drain | resume
  deriving DecidableEq

/-- The state directory: is `drain.json` there, and the temporary file `drain.json.tmp`? -/
structure Disk where
  marker : Bool
  temporary : Bool
  deriving DecidableEq

/-- The first step of `_write_drain_marker`: the temporary file. -/
def Disk.writeTemporary (d : Disk) : Disk := { d with temporary := true }

/-- The second step of `_write_drain_marker`: `temporary.replace(path)`. -/
def Disk.replaceMarker (d : Disk) : Disk := { d with marker := d.marker || d.temporary, temporary := false }

/-- `_drain_marker_path(store).unlink(missing_ok=True)` -/
def Disk.unlinkMarker (d : Disk) : Disk := { d with marker := false }

/-- The part of a command that is on disk. -/
def Disk.carryOut (d : Disk) : Command → Disk
  | .drain => d.writeTemporary.replaceMarker
  | .resume => d.unlinkMarker

@[simp] theorem Disk.marker_carryOut (d : Disk) (c : Command) : (d.carryOut c).marker = decide (c = .drain) := by
  cases c <;> simp [carryOut, writeTemporary, replaceMarker, unlinkMarker]

/-- The service: the `draining` flag of its `SQLiteCommandHandlers`, and `stop_workers`. -/
structure Service where
  draining : Bool
  stopping : Bool
  deriving DecidableEq

/-- The host, the most recent command, and whether a shutdown has drained since. -/
structure State where
  disk : Disk
  service : Option Service
  last : Option Command
  shutdown : Bool
  deriving DecidableEq

/-- A fresh state directory. -/
def State.init : State := ⟨⟨false, false⟩, none, none, false⟩

/-- What happens to a host. A command whose process is killed before the rename is not carried out. -/
inductive Action where
  /-- `_drain` and `_resume` of the command line. -/
  | cli (c : Command)
  | cliKilled
  /-- A `drain` frame in the running service. -/
  | frame (c : Command)
  | frameKilled
  | start
  /-- `request_drain`, after SIGTERM or SIGINT. -/
  | signal
  /-- `SQLiteCommandHandlers.assign` -/
  | assign
  | stop
  | crash

/-- A command is carried out. -/
def State.command (s : State) (c : Command) : State :=
  { s with disk := s.disk.carryOut c, last := some c, shutdown := false }

/-- One thing that happens; what is not enabled changes nothing. -/
def step (s : State) : Action → State
  | .cli c => s.command c
  | .cliKilled => { s with disk := s.disk.writeTemporary }
  | .frame c =>
    match s.service with
    | none => s
    | some v => { s.command c with service := some { v with draining := decide (c = .drain) } }
  | .frameKilled =>
    match s.service with
    | none => s
    | some _ => { s with disk := s.disk.writeTemporary, service := none }
  | .start =>
    match s.service with
    | none => { s with service := some ⟨s.disk.marker, false⟩ }
    | some _ => s
  | .signal =>
    match s.service with
    | none => s
    | some v =>
      if v.stopping then s
      else { s with disk := s.disk.carryOut .drain, service := some ⟨true, true⟩, shutdown := true }
  | .assign =>
    match s.service with
    | none => s
    | some v => { s with service := some { v with draining := s.disk.marker } }
  | .stop => { s with service := none }
  | .crash => { s with service := none }

/-- The assignment of a running service is accepted: `assign` reads the marker again. -/
def State.accepts (s : State) : Bool := (step s .assign).service.any fun v => !v.draining

theorem accepts_of_service {s : State} {v : Service} (h : s.service = some v) :
    s.accepts = !s.disk.marker := by
  unfold State.accepts step
  rw [h]
  rfl

/-- A service that runs and is not being shut down takes assignments exactly if the most recent command was not
`drain`. -/
def Agrees (s : State) : Prop :=
  ∀ v ∈ s.service, v.stopping = false → (s.accepts = true ↔ s.last ≠ some .drain)

/-- The service is not started between a shutdown that has drained and the next command, unless the most recent
command was `drain`. -/
def Unshadowed (s : State) (a : Action) : Prop :=
  a = .start → s.service = none → s.shutdown = true → s.last = some .drain

/-! ### What the marker says -/

/-- The marker is there exactly if the most recent command was `drain`, or a shutdown has drained since. -/
structure Inv (s : State) : Prop where
  marker : s.disk.marker = true ↔ s.last = some .drain ∨ s.shutdown = true

theorem Inv.command {s : State} (c : Command) : Inv (s.command c) := by
  refine ⟨?_⟩
  show (s.disk.carryOut c).marker = true ↔ some c = some Command.drain ∨ false = true
  rw [Disk.marker_carryOut]
  simp

theorem Inv.step {s : State} (h : Inv s) (a : Action) : Inv (step s a) := by
  cases a with
  | cli c => exact Inv.command c
  | frame c =>
    dsimp only [DrainMarker.step]
    split
    · exact h
    · exact ⟨(Inv.command (s := s) c).marker⟩
  | signal =>
    dsimp only [DrainMarker.step]
    split
    · exact h
    · split_ifs
      · exact h
      · exact ⟨by simp⟩
  | start | frameKilled | assign =>
    dsimp only [DrainMarker.step]
    split
    · exact ⟨h.marker⟩
    · exact ⟨h.marker⟩
  | cliKilled | stop | crash => exact ⟨h.marker⟩

theorem agrees_iff {s : State} (h : Inv s) : Agrees s ↔
    ∀ v ∈ s.service, v.stopping = false → s.shutdown = true → s.last = some .drain := by
  unfold Agrees
  refine forall₃_congr fun v hv hs => ?_
  rw [accepts_of_service hv]
  have hmarker := h.marker
  constructor
  · intro hagrees hdown
    by_contra hlast
    have hfree := hagrees.mpr hlast
    rw [hmarker.mpr (Or.inr hdown)] at hfree
    cases hfree
  · intro hdown
    constructor
    · intro hfree hlast
      rw [hmarker.mpr (Or.inl hlast)] at hfree
      cases hfree
    · intro hlast
      by_contra hno
      have hthere : s.disk.marker = true := by simpa using hno
      rcases hmarker.mp hthere with hdrain | hshut
      · exact hlast hdrain
      · exact hlast (hdown hshut)

/-! ### One step -/

/-- Only a start can break the agreement. -/
theorem agrees_step {s : State} (h : Inv s) (hs : Agrees s) (a : Action) :
    Agrees (step s a) ↔ Unshadowed s a := by
  have hother : a ≠ .start → Unshadowed s a := fun hne heq => absurd heq hne
  have hshut := (agrees_iff h).mp hs
  rw [agrees_iff (h.step a)]
  cases a with
  | cli c =>
    refine ⟨fun _ => hother (by simp), fun _ v _ _ hdown => ?_⟩
    cases hdown
  | frame c =>
    refine ⟨fun _ => hother (by simp), fun _ => ?_⟩
    dsimp only [step]
    split
    · exact hshut
    · exact fun v _ _ hdown => (by cases hdown)
  | signal =>
    refine ⟨fun _ => hother (by simp), fun _ => ?_⟩
    dsimp only [step]
    split
    · exact hshut
    · split_ifs
      · exact hshut
      · rintro v ⟨⟩ hstop
        cases hstop
  | start =>
    unfold Unshadowed
    dsimp only [step]
    split
    · next hnone =>
      constructor
      · exact fun hstart _ _ => hstart _ rfl rfl
      · exact fun hcond v _ _ => hcond rfl hnone
    · next w hw =>
      refine ⟨fun _ _ hnone => ?_, fun _ => hshut⟩
      rw [hw] at hnone
      cases hnone
  | assign =>
    refine ⟨fun _ => hother (by simp), fun _ => ?_⟩
    dsimp only [step]
    split
    · exact hshut
    · next w hw =>
      rintro v ⟨⟩ hstop
      exact hshut w hw hstop
  | frameKilled =>
    refine ⟨fun _ => hother (by simp), fun _ => ?_⟩
    dsimp only [step]
    split
    · exact hshut
    · exact fun v hv => (by cases hv)
  | cliKilled => exact ⟨fun _ => hother (by simp), fun _ => hshut⟩
  | stop => exact ⟨fun _ => hother (by simp), fun _ v hv => (by cases hv)⟩
  | crash => exact ⟨fun _ => hother (by simp), fun _ v hv => (by cases hv)⟩

/-! ### Whole histories -/

/-- **The drain state survives restarts** exactly under a condition on the starts: for every sequence of commands,
starts, shutdowns and crashes, a running service takes assignments if and only if the most recent command was
not `drain`, at all times, if and only if the service is never started between a shutdown that has drained and
the next command while the most recent command is not `drain`. -/
theorem drain_survives_iff (as : List Action) :
    (∀ before after, as = before ++ after → Agrees (run step State.init before)) ↔
      Along step Unshadowed State.init as := by
  have hinit : Inv State.init := ⟨by simp [State.init]⟩
  have hagrees : Agrees State.init := fun v hv => (by cases hv)
  have hstep : ∀ s a, Inv s → Agrees s → (Agrees (step s a) ↔ Unshadowed s a) :=
    fun _ a hinv h => agrees_step hinv h a
  exact along_iff_of_invariant (fun _ a h => h.step a) hstep as hinit hagrees

/-- A service that nobody has drained refuses assignments after SIGTERM and a start. -/
theorem drained_by_shutdown :
    (run step State.init [.start, .signal, .stop, .start]).last = none ∧
    (run step State.init [.start, .signal, .stop, .start]).accepts = false ∧
    ¬ Agrees (run step State.init [.start, .signal, .stop, .start]) := by
  refine ⟨rfl, rfl, fun hagrees => ?_⟩
  have hfree := (hagrees ⟨true, false⟩ rfl rfl).mpr (by decide)
  exact absurd hfree (by decide)

end BuildEngine.Agent.DrainMarker
