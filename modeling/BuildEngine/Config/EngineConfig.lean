import BuildEngine.Base.Dict
import BuildEngine.Base.Outcome
import BuildEngine.Base.PyFloat
import BuildEngine.Base.Words

/-! # The configuration of the engine

`EngineConfig` and `load_config` of `config.py`. The values of a configuration come from the compiled defaults, a
TOML file, the credentials file, the environment and the overrides of the caller, each of which is a dict that
updates the one before; the values that are left are coerced and checked by `__post_init__`. A value has the type
its layer gave it, and a check of a value of another type raises. -/

namespace BuildEngine.Config

open BuildEngine.Base

/-! ### Values -/

/-- A value of a configuration; `time` is a date or a time of TOML. -/
inductive Value where
  | none
  | bool (b : Bool)
  | int (n : ℤ)
  | float (x : PyFloat)
  | str (s : PyStr)
  | path (text : PyStr)
  | time (text : PyStr)
  | tuple (xs : List Value)
  | list (xs : List Value)
  | table (kvs : List (PyStr × Value))

namespace Value

/-- `not value` -/
def falsy : Value → Bool
  | none => true
  | bool b => !b
  | int n => n = 0
  | float x => x = PyFloat.finite 0
  | str s => s = []
  | path _ => false
  | time _ => false
  | tuple xs => xs.isEmpty
  | list xs => xs.isEmpty
  | table kvs => kvs.isEmpty

/-- The number a value is compared as; the comparison of any other value with a number raises `TypeError`. -/
def number? : Value → Option PyFloat
  | bool b => some (PyFloat.finite (if b then 1 else 0))
  | int n => some (PyFloat.finite n)
  | float x => some x
  | _ => Option.none

/-- What a loop over the value goes through; `none` where there is no loop over it. -/
def items? : Value → Option (List Value)
  | tuple xs => some xs
  | list xs => some xs
  | table kvs => some (kvs.map fun kv => str kv.1)
  | str s => some (s.map fun c => str [c])
  | _ => Option.none

end Value

/-- The dict of the values, by the names of the fields. -/
abbrev Values := Dict PyStr Value

/-- What a path leads to: nothing, a file that `_load_toml` cannot read, or one with a document. -/
inductive File where
  | missing
  | unreadable
  | document (values : Values)

/-- What `load_config` finds around it, and the conversions of the interpreter it uses. -/
structure Surroundings where
  /-- the files, by path -/
  file : PyStr → File
  /-- `os.environ` -/
  environ : Dict PyStr PyStr
  /-- `platform.system().lower()` -/
  os : PyStr
  /-- `_normalize_arch(platform.machine())` -/
  arch : PyStr
  /-- `int(text)`; `none` where it raises `ValueError` -/
  int : PyStr → Option ℤ
  /-- `float(text)`; `none` where it raises `ValueError` -/
  float : PyStr → Option PyFloat
  /-- `str(value)`, for a value that is not a string -/
  repr : Value → PyStr
  /-- `urlsplit` raises `ValueError` for the network location -/
  badNetloc : PyStr → Bool

/-- What `load_config` raises. `wrongType` is a `TypeError` or an `AttributeError`, `conversion` a `ValueError` of
`int` or `float`, and `url` one of `urlparse`. -/
inductive ConfigError where
  | file (path : PyStr)
  | conversion (key : PyStr)
  | boolean (text : PyStr)
  | unknownKeys (keys : List PyStr)
  | wrongType (key : PyStr)
  | maxConcurrency
  | notPositive (key : PyStr)
  | imageManifestVersion
  | images
  | emptyOrigin
  | url
  | backendUrl
  | storageOrigins
  deriving DecidableEq

/-- The texts of the engine's own exceptions. -/
def ConfigError.text? : ConfigError → Option PyStr
  | file _ => none
  | conversion _ => none
  | boolean text => some (py "Invalid boolean value: " ++ text)
  | unknownKeys keys => some (py "Unknown configuration keys: " ++ join (py ", ") keys)
  | wrongType _ => none
  | maxConcurrency => some (py "max_concurrency must be between 1 and 16")
  | notPositive key => some (key ++ py " must be positive")
  | imageManifestVersion => some (py "image_manifest_version must not be empty")
  | images => some (py "at least one builder image must be configured")
  | emptyOrigin => some (py "storage_origins must contain non-empty origins")
  | url => none
  | backendUrl => some (py "backend_url must use HTTPS")
  | storageOrigins => some (py "storage_origins must use HTTPS")

/-! ### Origins -/

/-- `str.lower` of the ASCII letters. -/
def lowerAscii (c : CodePoint) : CodePoint := if 65 ≤ c.val ∧ c.val ≤ 90 then c + 32 else c

/-- An ASCII letter. -/
def isAsciiAlpha (c : CodePoint) : Bool := (65 ≤ c.val && c.val ≤ 90) || (97 ≤ c.val && c.val ≤ 122)

/-- `scheme_chars` -/
def isSchemeChar (c : CodePoint) : Bool :=
  isAsciiAlpha c || isDigit c || c = ch '+' || c = ch '-' || c = ch '.'

/-- The scheme of an address and what follows it. -/
def splitScheme (url : PyStr) : PyStr × PyStr :=
  let scheme := url.takeWhile (· ≠ ch ':')
  if scheme.length < url.length && (scheme.head?.any isAsciiAlpha) && scheme.all isSchemeChar then
    (scheme.map lowerAscii, url.drop (scheme.length + 1))
  else ([], url)

/-- The network location of what follows the scheme. -/
def netloc (rest : PyStr) : PyStr :=
  if (py "//").isPrefixOf rest then
    (rest.drop 2).takeWhile fun c => !(decide (c = ch '/') || decide (c = ch '?') || decide (c = ch '#'))
  else []

/-- The characters `urlsplit` works on: leading control characters and blanks are dropped, and tabs and line ends
everywhere. -/
def cleanUrl (url : PyStr) : PyStr :=
  (url.dropWhile fun c => c.val ≤ 32).filter fun c => !(decide (c = ch '\t') || decide (c = ch '\r') ||
    decide (c = ch '\n'))

/-- `_is_secure_origin`, for a string; `none` where `urlparse` raises. -/
def isSecureOrigin (w : Surroundings) (value : PyStr) : Option Bool :=
  let parts := splitScheme (cleanUrl value)
  if w.badNetloc (netloc parts.2) then none
  else some (decide (parts.1 = py "https") && decide (netloc parts.2 ≠ []))

/-! ### The checks of `__post_init__` -/

/-- The fields that must be positive, in the order of their checks. -/
def positiveFields : List PyStr :=
  [py "heartbeat_interval_seconds", py "build_timeout_seconds", py "sigterm_grace_seconds", py "artifact_max_bytes",
    py "cache_site_max_bytes", py "cache_ttl_days", py "lease_seconds", py "outbox_max_bytes",
    py "state_retention_days"]

/-- `if value <= 0: raise` -/
def checkPositive (key : PyStr) (value : Value) : Except ConfigError Unit :=
  match value.number? with
  | none => .error (.wrongType key)
  | some x => if PyFloat.le x (PyFloat.finite 0) then .error (.notPositive key) else .ok ()

/-- `if not 1 <= self.max_concurrency <= 16: raise` -/
def checkConcurrency (value : Value) : Except ConfigError Unit :=
  match value.number? with
  | none => .error (.wrongType (py "max_concurrency"))
  | some x =>
    if PyFloat.le (PyFloat.finite 1) x ∧ PyFloat.le x (PyFloat.finite 16) then .ok () else .error .maxConcurrency

/-- A condition that must not hold. -/
def reject (bad : Bool) (e : ConfigError) : Except ConfigError Unit := if bad then .error e else .ok ()

/-- `not isinstance(origin, str) or not origin` -/
def isBadOrigin : Value → Bool
  | .str s => s = []
  | _ => true

/-- `_is_secure_origin` of a field: a false value that is no string is parsed like an empty text, and any other
value that is no string has no `decode`. -/
def checkSecure (w : Surroundings) (key : PyStr) (insecure : ConfigError) (value : Value) : Except ConfigError Unit :=
  match value with
  | .str s =>
    match isSecureOrigin w s with
    | none => .error .url
    | some true => .ok ()
    | some false => .error insecure
  | value => if value.falsy then .error insecure else .error (.wrongType key)

/-- The check of `backend_url`. -/
def checkBackendUrl (w : Surroundings) (value : Value) : Except ConfigError Unit :=
  match value with
  | .none => .ok ()
  | value => checkSecure w (py "backend_url") .backendUrl value

/-- The origins a loop over `storage_origins` goes through. -/
def originsOf (value : Value) : Except ConfigError (List Value) :=
  match value.items? with
  | none => .error (.wrongType (py "storage_origins"))
  | some xs => .ok xs

/-- `__post_init__`, for the attributes `self`. -/
def postInit (w : Surroundings) (self : PyStr → Value) : Except ConfigError Unit := do
  checkConcurrency (self (py "max_concurrency"))
  positiveFields.forM fun key => checkPositive key (self key)
  checkPositive (py "container_cpus") (self (py "container_cpus"))
  reject (self (py "image_manifest_version")).falsy .imageManifestVersion
  reject (self (py "images")).falsy .images
  let origins ← originsOf (self (py "storage_origins"))
  reject (origins.any isBadOrigin) .emptyOrigin
  checkBackendUrl w (self (py "backend_url"))
  origins.forM fun origin => checkSecure w (py "storage_origins") .storageOrigins origin

/-! ### The fields -/

/-- The fields of `EngineConfig` with their defaults. -/
def configDefaults (w : Surroundings) : Values :=
  [(py "backend_url", .none), (py "name", .none), (py "max_concurrency", .int 2),
    (py "heartbeat_interval_seconds", .int 15), (py "build_timeout_seconds", .int 600),
    (py "sigterm_grace_seconds", .int 10), (py "container_memory", .str (py "2g")),
    (py "container_cpus", .float (PyFloat.finite 1)), (py "artifact_max_bytes", .int 524288000),
    (py "cache_site_max_bytes", .int 5368709120), (py "cache_ttl_days", .int 30),
    (py "credentials_path", .path (py "/etc/mincemeat/build-engine/credentials.toml")),
    (py "state_dir", .path (py "/var/lib/build-engine")), (py "image_manifest_version", .str (py "1.0.0")),
    (py "images", .tuple [.str (py "node:22"), .str (py "hugo:latest")]), (py "storage_origins", .tuple []),
    (py "lease_seconds", .int 120), (py "outbox_max_bytes", .int 268435456), (py "state_retention_days", .int 7),
    (py "allow_local_source_urls", .bool false), (py "os", .str w.os), (py "arch", .str w.arch)]

/-- The names of the fields, in their order. -/
def fieldNames : List PyStr :=
  [py "backend_url", py "name", py "max_concurrency", py "heartbeat_interval_seconds", py "build_timeout_seconds",
    py "sigterm_grace_seconds", py "container_memory", py "container_cpus", py "artifact_max_bytes",
    py "cache_site_max_bytes", py "cache_ttl_days", py "credentials_path", py "state_dir",
    py "image_manifest_version", py "images", py "storage_origins", py "lease_seconds", py "outbox_max_bytes",
    py "state_retention_days", py "allow_local_source_urls", py "os", py "arch"]

theorem map_fst_configDefaults (w : Surroundings) : (configDefaults w).map Prod.fst = fieldNames := rfl

theorem nodup_fieldNames : fieldNames.Nodup := by decide +kernel

/-- `values[key]`, for a key that is there. -/
def field (values : Values) (key : PyStr) : Value := (Dict.get? values key).getD .none

/-- An `EngineConfig`: the values of its fields, which `__post_init__` has let through. -/
structure EngineConfig (w : Surroundings) where
  values : Values
  known : ∀ key ∈ values.map Prod.fst, key ∈ fieldNames
  checked : postInit w (field values) = .ok ()

/-! ### Coercion -/

/-- `_path_value` -/
def pathValue (w : Surroundings) : Value → PyStr
  | .path text => text
  | .str s => s
  | value => w.repr value

/-- `str(item)` -/
def strOf (w : Surroundings) : Value → PyStr
  | .str s => s
  | value => w.repr value

/-- `_split_csv` -/
def splitCsv (value : PyStr) : List PyStr :=
  ((splitOn (py ",") value).map strip).filter fun part => part ≠ []

/-- `_bool_value` -/
def boolValue (value : PyStr) : Except ConfigError Bool :=
  let normalized := (strip value).map lowerAscii
  if normalized ∈ [py "1", py "true", py "yes", py "on"] then .ok true
  else if normalized ∈ [py "0", py "false", py "no", py "off"] then .ok false
  else .error (.boolean value)

/-- A list or a comma-separated text becomes a tuple of strings. -/
def coerceTuple (w : Surroundings) : Value → Value
  | .list xs => .tuple (xs.map fun x => .str (strOf w x))
  | .str s => .tuple ((splitCsv s).map .str)
  | value => value

/-- A text becomes a boolean. -/
def coerceBool : Value → Except ConfigError Value
  | .str s => (boolValue s).map .bool
  | value => .ok value

/-- `_coerce_config_values` -/
def coerceConfigValues (w : Surroundings) (values : Values) : Except ConfigError Values := do
  let allow ← coerceBool (field values (py "allow_local_source_urls"))
  return values ++
    [(py "credentials_path", .path (pathValue w (field values (py "credentials_path")))),
      (py "state_dir", .path (pathValue w (field values (py "state_dir")))),
      (py "images", coerceTuple w (field values (py "images"))),
      (py "storage_origins", coerceTuple w (field values (py "storage_origins"))),
      (py "allow_local_source_urls", allow)]

/-! ### The environment -/

/-- The fields whose variable is an integer. -/
def intFields : List PyStr := py "max_concurrency" :: positiveFields

/-- `_coerce_env_value` -/
def coerceEnvValue (w : Surroundings) (key value : PyStr) : Except ConfigError Value :=
  if key ∈ intFields then
    match w.int value with
    | none => .error (.conversion key)
    | some n => .ok (.int n)
  else if key = py "container_cpus" then
    match w.float value with
    | none => .error (.conversion key)
    | some x => .ok (.float x)
  else if key = py "allow_local_source_urls" then (boolValue value).map .bool
  else if key ∈ [py "images", py "storage_origins"] then .ok (.tuple ((splitCsv value).map .str))
  else if (py "_path").isSuffixOf key || (py "_dir").isSuffixOf key then .ok (.path value)
  else .ok (.str value)

/-- `key.upper()`, for the name of a field. -/
def upperAscii (c : CodePoint) : CodePoint := if 97 ≤ c.val ∧ c.val ≤ 122 then c - 32 else c

/-- The variable of a field. -/
def envName (key : PyStr) : PyStr := py "BUILD_ENGINE_" ++ key.map upperAscii

/-- The loop of `_env_overrides`. -/
def envOverrides (w : Surroundings) (env : Dict PyStr PyStr) : List PyStr → Except ConfigError Values
  | [] => .ok []
  | key :: keys =>
    match Dict.get? env (envName key) with
    | none => envOverrides w env keys
    | some text => do
      let value ← coerceEnvValue w key text
      let rest ← envOverrides w env keys
      return (key, value) :: rest

/-! ### Loading -/

/-- The arguments of `load_config`. -/
structure LoadArgs where
  configPath : Option PyStr := none
  credentialsPath : Option PyStr := none
  env : Option (Dict PyStr PyStr) := none
  overrides : Option Values := none

/-- `DEFAULT_CONFIG_PATH` -/
def defaultConfigPath : PyStr := py "/etc/mincemeat/build-engine/config.toml"

/-- `env or os.environ` -/
def LoadArgs.environment (args : LoadArgs) (w : Surroundings) : Dict PyStr PyStr :=
  match args.env with
  | none => w.environ
  | some env => if env = [] then w.environ else env

/-- `value is not None` -/
def Value.isSet : Value → Bool
  | none => false
  | _ => true

/-- The overrides that are set. -/
def LoadArgs.given (args : LoadArgs) : Values :=
  let overrides := args.overrides.getD []
  (overrides.map Prod.fst).filterMap fun key =>
    ((Dict.get? overrides key).filter Value.isSet).map fun value => (key, value)

/-- The document of a file that is there; a file that is missing adds nothing. -/
def readFile (w : Surroundings) (path : PyStr) : Except ConfigError Values :=
  match w.file path with
  | .missing => .ok []
  | .unreadable => .error (.file path)
  | .document values => .ok values

/-- The layer of the configuration file. -/
def fileLayer (w : Surroundings) (args : LoadArgs) : Except ConfigError Values :=
  readFile w (args.configPath.getD defaultConfigPath)

/-- The values after the configuration file and the argument for the path of the credentials. -/
def lowerLayers (w : Surroundings) (args : LoadArgs) (file : Values) : Values :=
  let values := configDefaults w ++ file
  let values := values ++ args.credentialsPath.toList.map fun path => (py "credentials_path", .path path)
  values ++ [(py "credentials_path", .path (pathValue w (field values (py "credentials_path"))))]

/-- `active_credentials_path` -/
def activeCredentialsPath (w : Surroundings) (args : LoadArgs) (file : Values) : PyStr :=
  pathValue w (field (lowerLayers w args file) (py "credentials_path"))

/-- The keys taken from the credentials file, where it has them. -/
def credentialsLayer (document : Values) : Values :=
  [py "backend_url", py "name"].flatMap fun key => ((Dict.get? document key).map fun v => (key, v)).toList

/-- `sorted(set(values) - known_fields)` -/
def unknownFields (values : Values) : List PyStr :=
  ((values.map Prod.fst).filter fun key => key ∉ fieldNames).dedup.mergeSort

/-- The environment and the overrides on top of `values`. -/
def upperLayers (w : Surroundings) (args : LoadArgs) (values : Values) : Except ConfigError Values := do
  let env ← envOverrides w (args.environment w) fieldNames
  return values ++ env ++ args.given

/-- `EngineConfig(**values)` -/
def EngineConfig.make (w : Surroundings) (values : Values) : Except ConfigError (EngineConfig w) :=
  if known : ∀ key ∈ values.map Prod.fst, key ∈ fieldNames then
    match checked : postInit w (field values) with
    | .error e => .error e
    | .ok () => .ok ⟨values, known, checked⟩
  else .error (.unknownKeys (unknownFields values))

/-- What `load_config` does with the layers below the environment. -/
def construct (w : Surroundings) (args : LoadArgs) (values : Values) : Except ConfigError (EngineConfig w) := do
  let values ← upperLayers w args values
  if unknownFields values ≠ [] then .error (.unknownKeys (unknownFields values))
  else
    let values ← coerceConfigValues w values
    EngineConfig.make w values

/-- `load_config` -/
def loadConfig (w : Surroundings) (args : LoadArgs) : Except ConfigError (EngineConfig w) := do
  let file ← fileLayer w args
  let document ← readFile w (activeCredentialsPath w args file)
  construct w args (lowerLayers w args file ++ credentialsLayer document)

end BuildEngine.Config
