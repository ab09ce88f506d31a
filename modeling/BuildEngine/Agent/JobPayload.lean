import BuildEngine.Queue.Store

/-! # What a build needs of its payload

The fields of an assignment that `execute_job` of `agent/job_loop.py` reads, with their checks and in the order
in which they are made. A check that fails raises a `WorkspaceError`, which `execute_job` reports as
`USER_CONFIG_INVALID`. The comparison of floats in the check of the processor limit is left to the
configuration. -/

namespace BuildEngine.Agent.JobPayload

open BuildEngine.Base BuildEngine.Base.Json

/-- The `WorkspaceError`s of the payload checks. -/
inductive PayloadError where
  | required (key : PyStr)
  | notString (key : PyStr)
  | notPositive (key : PyStr)
  | timeout
  | limitsNotObject
  | memory
  | cpus
  | pids
  | cachePolicyNotObject
  | cachePolicyEnabled
  | notBoolean (key : PyStr)
  deriving DecidableEq

namespace PayloadError

/-- The text of the error. -/
def text : PayloadError → PyStr
  | required key => py "payload " ++ key ++ py " is required"
  | notString key => py "payload " ++ key ++ py " must be a non-empty string"
  | notPositive key => py "payload " ++ key ++ py " must be a positive integer"
  | timeout => py "payload timeout_seconds exceeds the local bounded limit"
  | limitsNotObject => py "payload resource_limits must be an object"
  | memory => py "payload resource_limits.memory is invalid"
  | cpus => py "payload resource_limits.cpus exceeds the local limit"
  | pids => py "payload resource_limits.pids_limit is invalid"
  | cachePolicyNotObject => py "payload cache_policy must be an object"
  | cachePolicyEnabled => py "payload cache_policy.enabled must be a boolean"
  | notBoolean key => py "payload " ++ key ++ py " must be a boolean"

end PayloadError

/-- The local limits. `cpusWithin` is `0 < float(cpus) <= config.container_cpus`, for a number. -/
structure Limits where
  buildTimeoutSeconds : ℤ
  cpusWithin : Json → Bool

/-- `_optional_str` -/
def optionalStr (payload : List (PyStr × Json)) (key : PyStr) : Except PayloadError (Option PyStr) :=
  match get? payload key with
  | none => .ok none
  | some .null => .ok none
  | some (.str s) => if s = [] then .error (.notString key) else .ok (some s)
  | some _ => .error (.notString key)

/-- `_required_str` -/
def requiredStr (payload : List (PyStr × Json)) (key : PyStr) : Except PayloadError PyStr :=
  match optionalStr payload key with
  | .error e => .error e
  | .ok none => .error (.required key)
  | .ok (some s) => .ok s

/-- `_optional_int` -/
def optionalInt (payload : List (PyStr × Json)) (key : PyStr) : Except PayloadError (Option ℤ) :=
  match get? payload key with
  | none => .ok none
  | some .null => .ok none
  | some (.int n) => if n ≤ 0 then .error (.notPositive key) else .ok (some n)
  | some _ => .error (.notPositive key)

/-! ### Resource limits -/

/-- The character whose lower case is one of the units `b`, `k`, `m`, `g`; the last of these is the sign for
kelvin. -/
def isUnit (c : CodePoint) : Bool :=
  c ∈ [ch 'b', ch 'k', ch 'm', ch 'g', ch 'B', ch 'K', ch 'M', ch 'G', Fin.ofNat 0x110000 0x212a]

/-- `re.fullmatch(r"[1-9][0-9]*(?:[bkmg])", memory.lower())` -/
def isMemory (s : PyStr) : Bool :=
  match s with
  | [] => false
  | c :: rest => isDigit c && decide (c ≠ ch '0') &&
      match rest.getLast? with
      | none => false
      | some unit => isUnit unit && rest.dropLast.all isDigit

/-- What `_resource_limits` returns. -/
structure ResourceLimits where
  timeoutSeconds : ℤ
  memory : Option PyStr
  cpus : Option Json
  pidsLimit : ℤ

/-- The member `timeout_seconds`. -/
def timeoutSeconds (limits : Limits) (payload : List (PyStr × Json)) : Except PayloadError ℤ :=
  match (get? payload (py "timeout_seconds")).getD (.int limits.buildTimeoutSeconds) with
  | .int n => if 1 ≤ n ∧ n ≤ limits.buildTimeoutSeconds then .ok n else .error .timeout
  | _ => .error .timeout

/-- The member `memory` of the limits. -/
def memoryLimit (raw : List (PyStr × Json)) : Except PayloadError (Option PyStr) :=
  match (get? raw (py "memory")).getD .null with
  | .null => .ok none
  | .str s => if isMemory s then .ok (some s) else .error .memory
  | _ => .error .memory

/-- The member `cpus` of the limits. -/
def cpuLimit (limits : Limits) (raw : List (PyStr × Json)) : Except PayloadError (Option Json) :=
  match (get? raw (py "cpus")).getD .null with
  | .null => .ok none
  | .int n => if limits.cpusWithin (.int n) then .ok (some (.int n)) else .error .cpus
  | .float t => if limits.cpusWithin (.float t) then .ok (some (.float t)) else .error .cpus
  | _ => .error .cpus

/-- The member `pids_limit` of the limits. -/
def pidsLimit (raw : List (PyStr × Json)) : Except PayloadError ℤ :=
  match (get? raw (py "pids_limit")).getD (.int 1024) with
  | .int n => if 1 ≤ n ∧ n ≤ 4096 then .ok n else .error .pids
  | _ => .error .pids

/-- `_resource_limits` -/
def resourceLimits (limits : Limits) (payload : List (PyStr × Json)) : Except PayloadError ResourceLimits := do
  let timeout ← timeoutSeconds limits payload
  let raw ← match (get? payload (py "resource_limits")).getD (.obj []) with
    | .obj kvs => .ok kvs
    | _ => .error .limitsNotObject
  let memory ← memoryLimit raw
  let cpus ← cpuLimit limits raw
  let pids ← pidsLimit raw
  return ⟨timeout, memory, cpus, pids⟩

/-! ### The cache policy -/

/-- The loop of `_cache_enabled` over the keys of the payload. -/
def cacheKeys (payload : List (PyStr × Json)) : List PyStr → Except PayloadError Bool
  | [] => .ok true
  | key :: keys =>
    match (get? payload key).getD .null with
    | .bool b => .ok b
    | .null => cacheKeys payload keys
    | _ => .error (.notBoolean key)

/-- `_cache_enabled` -/
def cacheEnabled (payload : List (PyStr × Json)) : Except PayloadError Bool :=
  match (get? payload (py "cache_policy")).getD .null with
  | .null => cacheKeys payload [py "cache_enabled", py "build_cache_enabled"]
  | .obj policy =>
    match (get? policy (py "enabled")).getD (.bool true) with
    | .bool b => .ok b
    | _ => .error .cachePolicyEnabled
  | _ => .error .cachePolicyNotObject

/-! ### All of it -/

/-- What `execute_job` reads of a payload. -/
structure JobInput where
  sourceUrl : PyStr
  sourceSha256 : PyStr
  sourceSize : Option ℤ
  rootDirectory : Option PyStr
  frameworkId : Option PyStr
  limits : ResourceLimits
  siteId : PyStr
  cacheEnabled : Bool

/-- The payload checks of `execute_job`, in their order. -/
def jobInput (limits : Limits) (payload : List (PyStr × Json)) : Except PayloadError JobInput := do
  let sourceUrl ← requiredStr payload (py "source_download_url")
  let sourceSha256 ← requiredStr payload (py "source_sha256")
  let sourceSize ← optionalInt payload (py "source_size_bytes")
  let rootDirectory ← optionalStr payload (py "root_directory")
  let frameworkId ← optionalStr payload (py "framework_id")
  let resources ← resourceLimits limits payload
  let siteId ← requiredStr payload (py "site_id")
  let cacheEnabled ← cacheEnabled payload
  return ⟨sourceUrl, sourceSha256, sourceSize, rootDirectory, frameworkId, resources, siteId, cacheEnabled⟩

/-- A payload without a source address fails the first check. -/
theorem jobInput_of_no_source {payload : List (PyStr × Json)}
    (h : get? payload (py "source_download_url") = none) (limits : Limits) :
    jobInput limits payload = .error (.required (py "source_download_url")) := by
  have hrequired : requiredStr payload (py "source_download_url") =
      .error (.required (py "source_download_url")) := by
    unfold requiredStr optionalStr
    rw [h]
  unfold jobInput
  rw [hrequired]
  rfl

end BuildEngine.Agent.JobPayload
