import BuildEngine.Base.Run

/-! # Running a container

`run_container` of `executor/docker_runner.py` with `_wait_for_process`, `_stop_container` and
`_terminate_then_kill`, as a machine whose states are the awaits. `create_subprocess_exec` starts its child before it
waits, so the `docker run` process is there from the first state on, and `docker stop` and `docker rm --force` are
issued when their awaits begin. Between two awaits the environment acts: the process records the id of its container,
the container exits and the process after it, the cancel event is set, time passes, a log pump ends or fails, and the
task is cancelled. -/

namespace BuildEngine.Executor.Container

/-- The `docker run` process; `running` is a `returncode` of `None`. -/
inductive Process where
  | running
  | exited (code : ℤ)
  deriving DecidableEq

/-- A task of `pump_stream`. -/
inductive Pump where
  | absent
  | running
  | finished
  | failed
  deriving DecidableEq

/-- `ContainerResult` -/
structure ContainerResult where
  exitCode : ℤ
  timedOut : Bool := false
  cancelled : Bool := false
  deriving DecidableEq

/-- How `run_container` ends: it returns, or raises `CancelledError` or the exception of a pump. -/
inductive Ending where
  | returned (r : ContainerResult)
  | cancelledError
  | pumpError
  deriving DecidableEq

/-- Why a container is stopped. -/
inductive Reason where
  | cancelEvent
  | deadline
  deriving DecidableEq

/-- The await the task is at. -/
inductive Phase where
  /-- `create_subprocess_exec` of `docker run` -/
  | creating
  /-- `wait_for(process.wait(), …)` of the loop -/
  | waiting
  /-- `create_subprocess_exec` of `docker stop` -/
  | stopStarting (why : Reason)
  /-- `stop.wait()` -/
  | stopWaiting (why : Reason)
  /-- `create_subprocess_exec` of `docker rm` -/
  | rmStarting (why : Reason)
  /-- `rm.wait()` -/
  | rmWaiting (why : Reason)
  /-- `wait_for(process.wait(), …)` after `terminate` -/
  | terminating (why : Reason)
  /-- `process.wait()` after `kill` -/
  | killing (why : Reason)
  /-- `gather(stdout_task, stderr_task)` of the `finally`, with what is to follow -/
  | gathering (e : Ending)
  /-- `run_container` has returned or raised -/
  | done (e : Ending)
  deriving DecidableEq

/-- The machine. `cid` says that the id is recorded, `signalled` that the process was sent a signal, and `alone` that
the container exited with nothing done to it. -/
structure State where
  phase : Phase
  process : Process
  cid : Bool
  stopIssued : Bool
  rmIssued : Bool
  signalled : Bool
  alone : Bool
  cancelEvent : Bool
  expired : Bool
  stdout : Pump
  stderr : Pump
  deriving DecidableEq

/-- The process has just been started. -/
def State.init : State where
  phase := .creating
  process := .running
  cid := false
  stopIssued := false
  rmIssued := false
  signalled := false
  alone := false
  cancelEvent := false
  expired := false
  stdout := .absent
  stderr := .absent

/-- A log stream. -/
inductive Stream where
  | stdout
  | stderr
  deriving DecidableEq

/-- What happens at an await. -/
inductive Action where
  /-- `create_subprocess_exec` of `docker run` returns. -/
  | created
  /-- The container exits. -/
  | containerExit
  /-- The process exits. -/
  | exit (code : ℤ)
  /-- The process writes the id of the container. -/
  | record
  | setCancelEvent
  /-- The deadline passes. -/
  | deadline
  /-- The `wait_for` of the loop times out. -/
  | tick
  /-- `process.wait()` returns. -/
  | exited
  /-- An await on `docker stop` or `docker rm` returns. -/
  | helper
  /-- The grace period after `terminate` is over. -/
  | grace
  /-- A pump has read its stream to the end. -/
  | pumpEnds (stream : Stream)
  /-- The publisher of a pump fails. -/
  | pumpFails (stream : Stream)
  /-- The task is cancelled. -/
  | cancelTask
  deriving DecidableEq

/-! ### The stretches of code between the awaits -/

/-- `process.returncode or -1` -/
def returnCode (code : ℤ) : ℤ := if code = 0 then -1 else code

/-- The result of a container that was stopped. -/
def stoppedResult (why : Reason) (code : ℤ) : ContainerResult where
  exitCode := returnCode code
  timedOut := why = .deadline
  cancelled := why = .cancelEvent

/-- The `finally` of `run_container`: a pump that has failed raises at once. -/
def gather (e : Ending) (s : State) : State :=
  if s.stdout = .failed ∨ s.stderr = .failed then { s with phase := .done .pumpError }
  else if s.stdout = .finished ∧ s.stderr = .finished then { s with phase := .done e }
  else { s with phase := .gathering e }

/-- `_terminate_then_kill` up to its first await, and what follows a process that has exited. -/
def terminate (why : Reason) (s : State) : State :=
  match s.process with
  | .exited code => gather (.returned (stoppedResult why code)) s
  | .running => { s with signalled := true, phase := .terminating why }

/-- `_stop_container` up to its first await: without an id there is nothing to stop. -/
def stopContainer (why : Reason) (s : State) : State :=
  if s.cid then { s with stopIssued := true, phase := .stopStarting why } else terminate why s

/-- A turn of the loop of `_wait_for_process`. -/
def loop (s : State) : State :=
  if s.cancelEvent then stopContainer .cancelEvent s
  else if s.expired then stopContainer .deadline s
  else { s with phase := .waiting }

/-- The pump of a stream. -/
def State.pump (s : State) : Stream → Pump
  | .stdout => s.stdout
  | .stderr => s.stderr

/-- A pump ends in a way; the `gather` that waits for it goes on. -/
def pumpDone (stream : Stream) (p : Pump) (s : State) : State :=
  let s' := match stream with
    | .stdout => { s with stdout := p }
    | .stderr => { s with stderr := p }
  match s.phase with
  | .gathering e => gather e s'
  | _ => s'

/-- `CancelledError` at the await of the task. Where `docker run` is being created, asyncio kills the child; a
`gather` cancels its pumps and raises. -/
def cancel (s : State) : State :=
  match s.phase with
  | .creating => { s with signalled := s.signalled || decide (s.process = .running), phase := .done .cancelledError }
  | .gathering _ => { s with phase := .done .cancelledError }
  | .done _ => s
  | _ => gather .cancelledError s

/-- An await on a helper process returns. -/
def helperDone (s : State) : State :=
  match s.phase with
  | .stopStarting why => { s with phase := .stopWaiting why }
  | .stopWaiting why => { s with rmIssued := true, phase := .rmStarting why }
  | .rmStarting why => { s with phase := .rmWaiting why }
  | .rmWaiting why => terminate why s
  | _ => s

/-- `process.wait()` returns. -/
def processDone (s : State) : State :=
  match s.process, s.phase with
  | .exited code, .waiting => gather (.returned ⟨code, false, false⟩) s
  | .exited code, .terminating why => gather (.returned (stoppedResult why code)) s
  | .exited code, .killing why => gather (.returned (stoppedResult why code)) s
  | _, _ => s

/-- `run_container` is over. -/
def State.isDone (s : State) : Bool :=
  match s.phase with
  | .done _ => true
  | _ => false

/-- What an action does; after the end, nothing. -/
def step (s : State) (act : Action) : State :=
  if s.isDone then s
  else match act with
    | .created => if s.phase = .creating then loop { s with stdout := .running, stderr := .running } else s
    | .containerExit =>
      -- a container whose stop was issued does not exit by itself
      if s.process = .running ∧ s.cid then
        { s with alone := s.alone || !(s.stopIssued || s.rmIssued || s.signalled) }
      else s
    | .exit code =>
      -- `docker run` is attached to its container and exits after it, unless it was told to stop
      if s.process = .running ∧ (s.cid → s.alone ∨ s.stopIssued ∨ s.signalled) then
        { s with process := .exited code }
      else s
    | .record => if s.process = .running then { s with cid := true } else s
    | .setCancelEvent => { s with cancelEvent := true }
    | .deadline => if s.phase = .creating then s else { s with expired := true }
    | .tick => if s.phase = .waiting then loop s else s
    | .exited => processDone s
    | .helper => helperDone s
    | .grace =>
      match s.phase with
      | .terminating why => if s.process = .running then { s with phase := .killing why } else s
      | _ => s
    | .pumpEnds stream =>
      if s.pump stream = .running ∧ s.process ≠ .running then pumpDone stream .finished s else s
    | .pumpFails stream => if s.pump stream = .running then pumpDone stream .failed s else s
    | .cancelTask => cancel s

/-! ### Cleanup -/

/-- The container is cleaned up: the process has exited or was sent a signal, and if the id is recorded, the container
exited by itself or a stop and a forced remove were issued. -/
def CleanedUp (s : State) : Prop :=
  (s.process ≠ .running ∨ s.signalled = true) ∧
    (s.cid = true → s.alone = true ∨ (s.stopIssued = true ∧ s.rmIssued = true))

instance decidableCleanedUp (s : State) : Decidable (CleanedUp s) := inferInstanceAs (Decidable (_ ∧ _))

/-- The process runs, and nothing has been sent to it. -/
def State.untouched (s : State) : Bool := decide (s.process = .running) && !s.signalled

/-- A pump has failed. -/
def State.pumpFailed (s : State) : Bool := decide (s.stdout = .failed ∨ s.stderr = .failed)

/-- The steps that lose the container: the task is cancelled while `docker run` is created and the id is recorded, or
while `docker stop` runs; the `finally` raises, because the task is cancelled or a pump has failed, while the process
runs untouched; or the id is recorded by a process that has been sent a signal. -/
def Loses (s : State) (act : Action) : Bool :=
  match act, s.phase with
  | .cancelTask, .creating => s.cid && !s.alone
  | .cancelTask, .stopStarting _ => !s.alone || (s.untouched && s.pumpFailed)
  | .cancelTask, .stopWaiting _ => !s.alone || (s.untouched && s.pumpFailed)
  | .cancelTask, .waiting => s.untouched && s.pumpFailed
  | .cancelTask, .rmStarting _ => s.untouched && s.pumpFailed
  | .cancelTask, .rmWaiting _ => s.untouched && s.pumpFailed
  | .cancelTask, .gathering _ => s.untouched
  | .pumpFails stream, .gathering _ => s.untouched && decide (s.pump stream = .running)
  | .record, .terminating _ => decide (s.process = .running) && !s.cid
  | .record, .killing _ => decide (s.process = .running) && !s.cid
  | .record, .gathering _ => decide (s.process = .running) && s.signalled && !s.cid
  | _, _ => false

end BuildEngine.Executor.Container
