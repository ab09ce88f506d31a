import BuildEngine.Agent.JobPayload
import BuildEngine.Base.Outcome
import BuildEngine.Base.PyFloat

/-! # The local ceilings

The limits a container runs under: `_resource_limits` of `agent/job_loop.py` checks what the payload asks for
against the configuration, and `docker_run_args` and `_wait_for_process` of `executor/docker_runner.py` fall back
on the configuration for what the payload leaves out. The timeout, the processors and the processes stay within
the local limits; the memory is never compared with `container_memory`. -/

namespace BuildEngine.Executor.Ceilings

open BuildEngine.Base BuildEngine.Base.Json
open BuildEngine.Agent.JobPayload

/-! ### Memory sizes -/

/-- Digits and one of the units `b`, `k`, `m`, `g`. -/
def isMemorySize (s : PyStr) : Bool :=
  match s.getLast? with
  | none => false
  | some unit => decide (unit ∈ [ch 'b', ch 'k', ch 'm', ch 'g']) && s.dropLast ≠ [] && s.dropLast.all isDigit

/-- The bytes of a unit, whose case does not matter; the sign for kelvin is a `k` in upper case. -/
def unitBytes (unit : CodePoint) : ℕ :=
  if unit ∈ [ch 'b', ch 'B'] then 1
  else if unit ∈ [ch 'k', ch 'K', Fin.ofNat 0x110000 0x212a] then 1024
  else if unit ∈ [ch 'm', ch 'M'] then 1024 ^ 2
  else 1024 ^ 3

/-- The bytes of a memory size, as Docker reads it. -/
def memoryBytes (s : PyStr) : ℕ := decimal s.dropLast * (s.getLast?.map unitBytes).getD 1

/-! ### From the payload to the container -/

/-- The fields of an `EngineConfig` with the local limits, as `__post_init__` lets them through. -/
structure LocalLimits where
  buildTimeoutSeconds : ℤ
  containerMemory : PyStr
  containerCpus : PyFloat
  timeout_positive : 0 < buildTimeoutSeconds
  cpus_positive : ¬ PyFloat.le containerCpus (PyFloat.finite 0)
  memory_size : isMemorySize containerMemory = true

variable (float : Json → Option PyFloat)

/-- The limits the payload is checked against. `float` is the conversion of a number, `none` where it raises
`OverflowError`, so that nothing is returned. -/
def LocalLimits.limits (config : LocalLimits) : Limits where
  buildTimeoutSeconds := config.buildTimeoutSeconds
  cpusWithin value :=
    match float value with
    | none => false
    | some cpus => decide (PyFloat.lt (PyFloat.finite 0) cpus) && decide (PyFloat.le cpus config.containerCpus)

/-- The limits of a `DockerRunSpec`. -/
structure SpecLimits where
  timeoutSeconds : Option ℤ
  memoryLimit : Option PyStr
  cpuLimit : Option PyFloat
  pidsLimit : ℤ

/-- The limits `execute_job` gives the specification: those `_resource_limits` returns. -/
def specLimits (r : ResourceLimits) : SpecLimits where
  timeoutSeconds := some r.timeoutSeconds
  memoryLimit := r.memory
  cpuLimit := r.cpus.bind float
  pidsLimit := r.pidsLimit

/-- The limits that are applied: `memory` after `--memory` and `--memory-swap`, `cpus` after `--cpus`, `pids` after
`--pids-limit`, and `timeout` in `_wait_for_process`. -/
structure AppliedLimits where
  timeout : ℤ
  memory : PyStr
  cpus : PyFloat
  pids : ℤ

/-- What `docker_run_args` and `_wait_for_process` take from a specification and its configuration: `x or y` falls
back on the configuration for a missing value and for a false one. -/
def appliedLimits (spec : SpecLimits) (config : LocalLimits) : AppliedLimits where
  timeout := if spec.timeoutSeconds.getD 0 = 0 then config.buildTimeoutSeconds else spec.timeoutSeconds.getD 0
  memory := if spec.memoryLimit.getD [] = [] then config.containerMemory else spec.memoryLimit.getD []
  cpus := PyFloat.orElse spec.cpuLimit config.containerCpus
  pids := spec.pidsLimit

/-- The limits stay within the local ones. -/
structure Bounded (config : LocalLimits) (l : AppliedLimits) : Prop where
  timeout : 1 ≤ l.timeout ∧ l.timeout ≤ config.buildTimeoutSeconds
  cpus : PyFloat.lt (PyFloat.finite 0) l.cpus ∧ PyFloat.le l.cpus config.containerCpus
  pids : 1 ≤ l.pids ∧ l.pids ≤ 4096
  memory : 0 < memoryBytes l.memory ∧ memoryBytes l.memory ≤ memoryBytes config.containerMemory

/-- The member `resource_limits` of the payload, where it is an object. -/
def requestedLimits (payload : List (PyStr × Json)) : List (PyStr × Json) :=
  match (get? payload (py "resource_limits")).getD (.obj []) with
  | .obj kvs => kvs
  | _ => []

/-- The memory the payload asks for. -/
def requestedMemory (payload : List (PyStr × Json)) : Option PyStr :=
  match (get? (requestedLimits payload) (py "memory")).getD .null with
  | .str s => some s
  | _ => none

/-- The memory the payload asks for is no more than the local limit; if it asks for none, the local limit is not
zero. -/
def MemoryWithin (config : LocalLimits) (payload : List (PyStr × Json)) : Prop :=
  match requestedMemory payload with
  | some s => memoryBytes s ≤ memoryBytes config.containerMemory
  | none => 0 < memoryBytes config.containerMemory

/-! ### What the checks let through -/

/-- The four checks, one after the other. -/
theorem resourceLimits_ok {limits : Limits} {payload : List (PyStr × Json)} {r : ResourceLimits}
    (h : resourceLimits limits payload = .ok r) :
    timeoutSeconds limits payload = .ok r.timeoutSeconds ∧
      memoryLimit (requestedLimits payload) = .ok r.memory ∧
      cpuLimit limits (requestedLimits payload) = .ok r.cpus ∧
      pidsLimit (requestedLimits payload) = .ok r.pidsLimit := by
  unfold resourceLimits at h
  obtain ⟨timeout, htimeout, h⟩ := bind_ok h
  rcases hraw : (get? payload (py "resource_limits")).getD (.obj []) with _ | _ | _ | _ | _ | _ | kvs
  case obj =>
    have hkvs : requestedLimits payload = kvs := by rw [requestedLimits, hraw]
    rw [hraw] at h
    obtain ⟨raw, ⟨⟩, h⟩ := bind_ok h
    obtain ⟨memory, hmemory, h⟩ := bind_ok h
    obtain ⟨cpus, hcpus, h⟩ := bind_ok h
    obtain ⟨pids, hpids, h⟩ := bind_ok h
    cases h
    rw [hkvs]
    exact ⟨htimeout, hmemory, hcpus, hpids⟩
  all_goals
    rw [hraw] at h
    cases h

theorem timeoutSeconds_ok {limits : Limits} {payload : List (PyStr × Json)} {n : ℤ}
    (h : timeoutSeconds limits payload = .ok n) : 1 ≤ n ∧ n ≤ limits.buildTimeoutSeconds := by
  unfold timeoutSeconds at h
  split at h
  · split_ifs at h with hn
    cases h
    exact hn
  · cases h

theorem pidsLimit_ok {raw : List (PyStr × Json)} {n : ℤ} (h : pidsLimit raw = .ok n) : 1 ≤ n ∧ n ≤ 4096 := by
  unfold pidsLimit at h
  split at h
  · split_ifs at h with hn
    cases h
    exact hn
  · cases h

theorem cpuLimit_ok {limits : Limits} {raw : List (PyStr × Json)} {value : Json}
    (h : cpuLimit limits raw = .ok (some value)) : limits.cpusWithin value = true := by
  unfold cpuLimit at h
  split at h
  · cases h
  · split_ifs at h with hn
    cases h
    exact hn
  · split_ifs at h with hn
    cases h
    exact hn
  · cases h

/-- The memory that is returned is the one asked for. -/
theorem memoryLimit_ok {payload : List (PyStr × Json)} {memory : Option PyStr}
    (h : memoryLimit (requestedLimits payload) = .ok memory) :
    requestedMemory payload = memory ∧ ∀ s, memory = some s → isMemory s = true := by
  unfold memoryLimit at h
  unfold requestedMemory
  split at h
  · next hnull =>
    cases h
    rw [hnull]
    exact ⟨rfl, fun s hs => (by cases hs)⟩
  · next s hstr =>
    split_ifs at h with hs
    cases h
    rw [hstr]
    exact ⟨rfl, fun t ht => Option.some.inj ht ▸ hs⟩
  · cases h

/-- A limit of the processors that passes the check is a positive float within the local limit. -/
theorem cpusWithin_iff {config : LocalLimits} {value : Json} :
    (config.limits float).cpusWithin value = true ↔
      ∃ cpus, float value = some cpus ∧ PyFloat.lt (PyFloat.finite 0) cpus ∧
        PyFloat.le cpus config.containerCpus := by
  unfold LocalLimits.limits
  dsimp only
  rcases float value with _ | cpus
  · simp
  · simp

/-! ### Sizes -/

theorem le_foldl_decimal (s : PyStr) : ∀ n : ℕ, n ≤ s.foldl (fun n c => 10 * n + digitVal c) n := by
  induction s with
  | nil => exact le_refl
  | cons c s ih =>
    intro n
    have hstep := ih (10 * n + digitVal c)
    rw [List.foldl_cons]
    omega

theorem unitBytes_pos (unit : CodePoint) : 0 < unitBytes unit := by
  unfold unitBytes
  split_ifs <;> norm_num

/-- A memory that passes the check is positive: its first digit is not zero. -/
theorem memoryBytes_pos {s : PyStr} (h : isMemory s = true) : 0 < memoryBytes s := by
  rcases s with _ | ⟨c, rest⟩
  · cases h
  · unfold isMemory at h
    rcases hlast : rest.getLast? with _ | unit
    · simp [hlast] at h
    · have hne : rest ≠ [] := by rintro rfl; cases hlast
      simp only [hlast, isDigit, Bool.and_eq_true, decide_eq_true_eq] at h
      obtain ⟨⟨⟨h48, h57⟩, hzero⟩, -⟩ := h
      have hne48 : c.val ≠ 48 := fun heq => hzero (Fin.ext heq)
      have hfirst : 0 < 10 * 0 + digitVal c := by
        unfold digitVal
        omega
      have hdigits : 0 < decimal (c :: rest).dropLast := by
        rw [List.dropLast_cons_of_ne_nil hne]
        exact lt_of_lt_of_le hfirst (le_foldl_decimal rest.dropLast _)
      have hunit : (c :: rest).getLast? = some unit := by
        rw [List.getLast?_cons, hlast]
        rfl
      rw [memoryBytes, hunit]
      exact Nat.mul_pos hdigits (unitBytes_pos unit)

/-! ### The limits that are applied -/

/-- The fields of what is applied when the checks have passed: only the processors and the memory can come from
the configuration. -/
theorem applied_eq {config : LocalLimits} {payload : List (PyStr × Json)} {r : ResourceLimits}
    (h : resourceLimits (config.limits float) payload = .ok r) :
    appliedLimits (specLimits float r) config =
      { timeout := r.timeoutSeconds
        memory := (requestedMemory payload).getD config.containerMemory
        cpus := (r.cpus.bind float).getD config.containerCpus
        pids := r.pidsLimit } := by
  obtain ⟨htimeout, hmemory, hcpus, -⟩ := resourceLimits_ok h
  have hpos := timeoutSeconds_ok htimeout
  obtain ⟨hrequested, hshape⟩ := memoryLimit_ok hmemory
  have h1 : (if r.timeoutSeconds = 0 then config.buildTimeoutSeconds else r.timeoutSeconds) = r.timeoutSeconds :=
    if_neg (by omega)
  have h2 : (if r.memory.getD [] = [] then config.containerMemory else r.memory.getD []) =
      r.memory.getD config.containerMemory := by
    rcases hm : r.memory with _ | s
    · rfl
    · have hs : s ≠ [] := by
        rintro rfl
        exact absurd (hshape [] hm) (by decide)
      exact if_neg hs
  have h3 : PyFloat.orElse (r.cpus.bind float) config.containerCpus =
      (r.cpus.bind float).getD config.containerCpus := by
    rcases hc : r.cpus with _ | value
    · rfl
    · rw [hc] at hcpus
      obtain ⟨cpus, hfloat, hpositive, -⟩ := (cpusWithin_iff float).mp (cpuLimit_ok hcpus)
      rw [Option.bind_some, hfloat]
      exact PyFloat.orElse_of_lt hpositive config.containerCpus
  unfold appliedLimits specLimits
  dsimp only
  rw [h3, hrequested, Option.getD_some, h1, h2]

/-- The processors are within the local limit unless that limit is NaN. -/
theorem cpus_bounded_iff {config : LocalLimits} {payload : List (PyStr × Json)} {r : ResourceLimits}
    (h : resourceLimits (config.limits float) payload = .ok r) :
    (PyFloat.lt (PyFloat.finite 0) ((r.cpus.bind float).getD config.containerCpus) ∧
      PyFloat.le ((r.cpus.bind float).getD config.containerCpus) config.containerCpus) ↔
      config.containerCpus ≠ none := by
  obtain ⟨-, -, hcpus, -⟩ := resourceLimits_ok h
  constructor
  · rintro ⟨-, hle⟩ hnan
    rw [hnan] at hle
    exact PyFloat.not_le_nan _ hle
  · intro hnan
    rcases hc : r.cpus with _ | value
    · exact ⟨PyFloat.lt_of_not_le (fun hzero => (by cases hzero)) hnan config.cpus_positive,
        PyFloat.le_refl_iff.mpr hnan⟩
    · rw [hc] at hcpus
      obtain ⟨cpus, hfloat, hpositive, hle⟩ := (cpusWithin_iff float).mp (cpuLimit_ok hcpus)
      rw [Option.bind_some, hfloat]
      exact ⟨hpositive, hle⟩

/-- The memory is within the local limit exactly when what the payload asks for is. -/
theorem memory_bounded_iff {config : LocalLimits} {payload : List (PyStr × Json)} {r : ResourceLimits}
    (h : resourceLimits (config.limits float) payload = .ok r) :
    (0 < memoryBytes ((requestedMemory payload).getD config.containerMemory) ∧
      memoryBytes ((requestedMemory payload).getD config.containerMemory) ≤ memoryBytes config.containerMemory) ↔
      MemoryWithin config payload := by
  obtain ⟨-, hmemory, -, -⟩ := resourceLimits_ok h
  obtain ⟨hrequested, hshape⟩ := memoryLimit_ok hmemory
  unfold MemoryWithin
  rcases hm : requestedMemory payload with _ | s
  · exact ⟨fun hb => hb.1, fun hb => ⟨hb, le_refl _⟩⟩
  · have hpos := memoryBytes_pos (hshape s (by rw [← hrequested, hm]))
    exact ⟨fun hb => hb.2, fun hb => ⟨hpos, hb⟩⟩

/-- **The local ceilings** hold exactly when the memory the payload asks for is within the local limit: whatever
the payload, if the checks let it through, then the limits that are applied are positive and no more than the local
ones if and only if the local limit of the processors is a number, the requested memory is at most
`container_memory`, and, if none is requested, `container_memory` is not zero. -/
theorem ceilings_iff (config : LocalLimits) (payload : List (PyStr × Json)) (r : ResourceLimits)
    (h : resourceLimits (config.limits float) payload = .ok r) :
    Bounded config (appliedLimits (specLimits float r) config) ↔
      config.containerCpus ≠ none ∧ MemoryWithin config payload := by
  obtain ⟨htimeout, -, -, hpids⟩ := resourceLimits_ok h
  rw [applied_eq float h]
  constructor
  · intro hb
    exact ⟨(cpus_bounded_iff float h).mp hb.cpus, (memory_bounded_iff float h).mp hb.memory⟩
  · rintro ⟨hcpus, hmemory⟩
    exact
      { timeout := timeoutSeconds_ok htimeout
        cpus := (cpus_bounded_iff float h).mpr hcpus
        pids := pidsLimit_ok hpids
        memory := (memory_bounded_iff float h).mpr hmemory }

/-! ### Runs of the checks -/

/-- The compiled defaults. -/
def defaultLimits : LocalLimits where
  buildTimeoutSeconds := 600
  containerMemory := py "2g"
  containerCpus := PyFloat.finite 1
  timeout_positive := by decide
  cpus_positive := by
    show ¬ ((((1 : ℚ) : WithTop ℚ) : WithBot (WithTop ℚ)) ≤ (((0 : ℚ) : WithTop ℚ) : WithBot (WithTop ℚ)))
    rw [WithBot.coe_le_coe, WithTop.coe_le_coe]
    norm_num
  memory_size := by decide

/-- `float` for the integers that have a float of their own. -/
def smallFloat : Json → Option PyFloat
  | .int n => if n.natAbs ≤ 2 ^ 53 then some (PyFloat.finite n) else none
  | .float t => (t.value?).map PyFloat.finite
  | _ => none

/-- A payload that asks for one processor and some memory. -/
def payloadOf (memory : PyStr) : List (PyStr × Json) :=
  [(py "resource_limits", .obj [(py "memory", .str memory), (py "cpus", .int 1)])]

/-- What the checks return for such a payload. -/
def returned (memory : PyStr) : ResourceLimits := ⟨600, some memory, some (.int 1), 1024⟩

theorem resourceLimits_payloadOf {memory : PyStr} (h : isMemory memory = true) :
    resourceLimits (defaultLimits.limits smallFloat) (payloadOf memory) = .ok (returned memory) := by
  have hcpus : (defaultLimits.limits smallFloat).cpusWithin (.int 1) = true := by
    refine (cpusWithin_iff smallFloat).mpr ⟨PyFloat.finite 1, rfl, ?_, ?_⟩
    · exact PyFloat.lt_of_not_le (fun hzero => (by cases hzero)) (fun hone => (by cases hone))
        defaultLimits.cpus_positive
    · exact PyFloat.le_refl_iff.mpr (fun hone => (by cases hone))
  have hmemory : memoryLimit [(py "memory", .str memory), (py "cpus", .int 1)] = .ok (some memory) := by
    show (if isMemory memory then Except.ok (some memory) else .error PayloadError.memory) = _
    rw [if_pos h]
  have hcpu : cpuLimit (defaultLimits.limits smallFloat) [(py "memory", .str memory), (py "cpus", .int 1)] =
      .ok (some (.int 1)) := by
    show (if (defaultLimits.limits smallFloat).cpusWithin (.int 1) then Except.ok (some (Json.int 1))
      else .error PayloadError.cpus) = _
    rw [if_pos hcpus]
  show ((memoryLimit [(py "memory", .str memory), (py "cpus", .int 1)]).bind fun m =>
    (cpuLimit (defaultLimits.limits smallFloat) [(py "memory", .str memory), (py "cpus", .int 1)]).bind fun c =>
      _) = _
  rw [hmemory, hcpu]
  rfl

/-- A request of 512 megabytes is within the default of two gigabytes. -/
theorem ceilings_half : Bounded defaultLimits
    (appliedLimits (specLimits smallFloat (returned (py "512m"))) defaultLimits) :=
  (ceilings_iff smallFloat defaultLimits (payloadOf (py "512m")) (returned (py "512m"))
    (resourceLimits_payloadOf (by decide))).mpr ⟨fun hnan => (by cases hnan), by
      show memoryBytes (py "512m") ≤ memoryBytes (py "2g")
      decide⟩

/-- A request of 999 gigabytes passes the checks, and the container is given all of it. -/
theorem memory_above_ceiling :
    resourceLimits (defaultLimits.limits smallFloat) (payloadOf (py "999g")) = .ok (returned (py "999g")) ∧
    (appliedLimits (specLimits smallFloat (returned (py "999g"))) defaultLimits).memory = py "999g" ∧
    ¬ Bounded defaultLimits (appliedLimits (specLimits smallFloat (returned (py "999g"))) defaultLimits) := by
  refine ⟨resourceLimits_payloadOf (by decide), rfl, fun hb => ?_⟩
  have hle : memoryBytes (py "999g") ≤ memoryBytes (py "2g") := hb.memory.2
  exact absurd hle (by decide)

end BuildEngine.Executor.Ceilings
