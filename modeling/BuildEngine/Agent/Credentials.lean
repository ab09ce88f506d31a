import BuildEngine.Base.Toml

/-! # The credentials file

`EngineCredentials`, `write_credentials` and `load_credentials` of `config.py`. The file is the text of six
lines, each value written by `json.dumps` and read back by `tomllib`; it has only ASCII characters, so that
the text and its bytes are the same. -/

namespace BuildEngine.Agent.Credentials

open BuildEngine.Base BuildEngine.Base.Json

/-- The credentials persisted after registration. -/
structure EngineCredentials where
  engineId : PyStr
  engineSecret : PyStr
  sessionJwt : PyStr
  sessionJwtExpiresAt : PyStr
  backendUrl : Option PyStr
  name : Option PyStr
  deriving DecidableEq

/-- `value or ""` -/
def orEmpty (value : Option PyStr) : PyStr := value.getD []

/-- The keys of the file and their values, in the order of its lines. -/
def EngineCredentials.entries (c : EngineCredentials) : List (PyStr × PyStr) :=
  [(py "engine_id", c.engineId), (py "engine_secret", c.engineSecret), (py "session_jwt", c.sessionJwt),
    (py "session_jwt_expires_at", c.sessionJwtExpiresAt), (py "backend_url", orEmpty c.backendUrl),
    (py "name", orEmpty c.name)]

/-- The content `write_credentials` gives the file. -/
def writeCredentials (c : EngineCredentials) : PyStr :=
  [ch '\n'].intercalate ((c.entries.map fun kv => kv.1 ++ py " = " ++ strText kv.2) ++ [[]])

/-- What `load_credentials` raises on a file that is there. -/
inductive LoadError where
  | toml (e : Toml.Error)
  | missing (keys : List PyStr)
  | notUuid
  deriving DecidableEq

/-- The text of the exception; the errors of `tomllib` have texts of their own. -/
def LoadError.text? : LoadError → Option PyStr
  | .toml _ => none
  | .missing keys => some (py "Credentials file is missing required keys: " ++ (py ", ").intercalate keys)
  | .notUuid => some (py "Credentials engine_id must be a UUID")

/-- The keys without which `load_credentials` refuses a file. -/
def required : List PyStr :=
  [py "engine_id", py "engine_secret", py "session_jwt", py "session_jwt_expires_at"]

/-- `raw.get(key)`, with `""` for a key that is not there: both are falsy. -/
def get (raw : List (PyStr × PyStr)) (key : PyStr) : PyStr :=
  ((raw.find? fun kv => kv.1 = key).map Prod.snd).getD []

/-- `str(raw[key]) if raw.get(key) else None` -/
def optional (raw : List (PyStr × PyStr)) (key : PyStr) : Option PyStr :=
  if get raw key = [] then none else some (get raw key)

/-- `load_credentials`. `uuid text` says that `uuid.UUID(text)` does not raise `ValueError`. -/
def loadCredentials (uuid : PyStr → Bool) (content : PyStr) : Except LoadError EngineCredentials :=
  match Toml.loads content with
  | .error e => .error (.toml e)
  | .ok raw =>
    let missing := required.filter fun key => get raw key = []
    if missing ≠ [] then .error (.missing missing)
    else if !uuid (get raw (py "engine_id")) then .error .notUuid
    else .ok
      { engineId := get raw (py "engine_id")
        engineSecret := get raw (py "engine_secret")
        sessionJwt := get raw (py "session_jwt")
        sessionJwtExpiresAt := get raw (py "session_jwt_expires_at")
        backendUrl := optional raw (py "backend_url")
        name := optional raw (py "name") }

/-! ### Credentials that can be written -/

/-- An optional text that is there is not empty. -/
def Proper (value : Option PyStr) : Prop := value ≠ some []

/-- The credentials registration writes: the required texts and the identity are there, and every text is
made of characters that have an encoding. -/
structure Registered (uuid : PyStr → Bool) (c : EngineCredentials) : Prop where
  engineId : c.engineId ≠ []
  engineSecret : c.engineSecret ≠ []
  sessionJwt : c.sessionJwt ≠ []
  sessionJwtExpiresAt : c.sessionJwtExpiresAt ≠ []
  identity : uuid c.engineId = true
  backendUrl : Proper c.backendUrl
  name : Proper c.name
  scalar : ∀ kv ∈ c.entries, ∀ x ∈ kv.2, Scalar x

/-- No text has a character above `U+FFFF`. -/
def BasicPlane (c : EngineCredentials) : Prop := ∀ kv ∈ c.entries, Toml.Basic kv.2

instance (c : EngineCredentials) : Decidable (BasicPlane c) :=
  inferInstanceAs (Decidable (∀ kv ∈ c.entries, Toml.Basic kv.2))

/-! ### The text -/

theorem writeCredentials_eq (c : EngineCredentials) : writeCredentials c = c.entries.flatMap Toml.line := by
  simp [writeCredentials, EngineCredentials.entries, List.intercalate, List.intersperse, Toml.line]

/-- The file is its own encoding. -/
theorem ascii_writeCredentials (c : EngineCredentials) : Ascii (writeCredentials c) := by
  have hkeys : ∀ kv ∈ c.entries, Ascii kv.1 := by
    simp only [EngineCredentials.entries, List.forall_mem_cons]
    exact ⟨by decide, by decide, by decide, by decide, by decide, by decide, by simp⟩
  rw [writeCredentials_eq]
  intro x hx
  obtain ⟨kv, hkv, hx⟩ := List.mem_flatMap.mp hx
  exact ascii_append (ascii_append (ascii_append (hkeys kv hkv) (by decide)) (ascii_strText _)) (by decide) x hx

theorem bareKey_entries (c : EngineCredentials) : ∀ kv ∈ c.entries, Toml.BareKey kv.1 := by
  simp only [EngineCredentials.entries, List.forall_mem_cons]
  exact ⟨⟨by decide, by decide⟩, ⟨by decide, by decide⟩, ⟨by decide, by decide⟩, ⟨by decide, by decide⟩,
    ⟨by decide, by decide⟩, ⟨by decide, by decide⟩, by simp⟩

/-- What `tomllib` makes of the file, whatever the texts of the credentials. -/
theorem loads_entries (c : EngineCredentials) : Toml.loads (writeCredentials c) =
    if ∀ kv ∈ c.entries, Toml.Plain kv.2 then .ok c.entries else .error .decode := by
  rw [writeCredentials_eq]
  exact Toml.loads_lines (bareKey_entries c) (by
    simp only [EngineCredentials.entries, List.map_cons, List.map_nil]
    decide)

theorem loads_writeCredentials {c : EngineCredentials} (h : ∀ kv ∈ c.entries, ∀ x ∈ kv.2, Scalar x) :
    Toml.loads (writeCredentials c) = if BasicPlane c then .ok c.entries else .error .decode := by
  have hplain : (∀ kv ∈ c.entries, Toml.Plain kv.2) ↔ BasicPlane c :=
    forall₂_congr fun kv hkv => Toml.plain_iff (h kv hkv)
  rw [loads_entries]
  simp only [hplain]

/-! ### Reading the text back -/

theorem optional_orEmpty {value : Option PyStr} (h : Proper value) :
    (if orEmpty value = [] then none else some (orEmpty value)) = value := by
  rcases value with _ | s
  · rfl
  · have hs : s ≠ [] := fun heq => h (by rw [heq])
    show (if s = [] then none else some s) = some s
    rw [if_neg hs]

theorem loadCredentials_write {uuid : PyStr → Bool} {c : EngineCredentials} (h : Registered uuid c) :
    loadCredentials uuid (writeCredentials c) =
      if BasicPlane c then .ok c else .error (.toml .decode) := by
  unfold loadCredentials
  rw [loads_writeCredentials h.scalar]
  by_cases hbasic : BasicPlane c
  · have hget : get c.entries (py "engine_id") = c.engineId ∧
        get c.entries (py "engine_secret") = c.engineSecret ∧
        get c.entries (py "session_jwt") = c.sessionJwt ∧
        get c.entries (py "session_jwt_expires_at") = c.sessionJwtExpiresAt ∧
        get c.entries (py "backend_url") = orEmpty c.backendUrl ∧
        get c.entries (py "name") = orEmpty c.name := ⟨rfl, rfl, rfl, rfl, rfl, rfl⟩
    obtain ⟨h1, h2, h3, h4, h5, h6⟩ := hget
    rw [if_pos hbasic, if_pos hbasic]
    dsimp only
    have hmissing : required.filter (fun key => decide (get c.entries key = [])) = [] := by
      simp [required, h1, h2, h3, h4, h.engineId, h.engineSecret, h.sessionJwt, h.sessionJwtExpiresAt]
    rw [hmissing, if_neg (fun hne => hne rfl), h1, h.identity, if_neg (by decide), h2, h3, h4]
    unfold optional
    rw [h5, h6, optional_orEmpty h.backendUrl, optional_orEmpty h.name]
  · rw [if_neg hbasic, if_neg hbasic]

/-- **The credentials file round trip** holds exactly in the basic plane: the text written for credentials of a
registration is a TOML document that is read back as the same credentials if and only if none of their texts
has a character above `U+FFFF`. -/
theorem credentials_round_trip_iff {uuid : PyStr → Bool} {c : EngineCredentials} (h : Registered uuid c) :
    ((∃ raw, Toml.loads (writeCredentials c) = .ok raw) ∧ loadCredentials uuid (writeCredentials c) = .ok c) ↔
      BasicPlane c := by
  rw [loads_writeCredentials h.scalar, loadCredentials_write h]
  constructor
  · rintro ⟨-, hload⟩
    by_contra hbasic
    rw [if_neg hbasic] at hload
    cases hload
  · intro hbasic
    rw [if_pos hbasic, if_pos hbasic]
    exact ⟨⟨_, rfl⟩, rfl⟩

/-- The credentials of an engine with a name and no backend URL. -/
def sampleCredentials (name : PyStr) : EngineCredentials where
  engineId := py "00000000-0000-0000-0000-000000000001"
  engineSecret := py "secret"
  sessionJwt := py "a.b.c"
  sessionJwtExpiresAt := py "2026-01-01T00:00:00+00:00"
  backendUrl := none
  name := some name

theorem registered_sample {name : PyStr} (hne : name ≠ []) (hname : ∀ x ∈ name, Scalar x) :
    Registered isUuid (sampleCredentials name) := by
  have huuid : isUuid (py "00000000-0000-0000-0000-000000000001") = true := by decide +kernel
  refine ⟨List.cons_ne_nil _ _, List.cons_ne_nil _ _, List.cons_ne_nil _ _, List.cons_ne_nil _ _, huuid, ?_, ?_, ?_⟩
  · exact fun heq => (by cases heq)
  · exact fun heq => hne (Option.some.inj heq)
  · simp only [EngineCredentials.entries, sampleCredentials, List.forall_mem_cons]
    exact ⟨scalar_of_ascii (by decide), scalar_of_ascii (by decide), scalar_of_ascii (by decide),
      scalar_of_ascii (by decide), scalar_of_ascii (by decide), hname, by simp⟩

/-- A name with a quote, a tab and an accent is read back. -/
theorem credentials_round_trip_name :
    (∃ raw, Toml.loads (writeCredentials (sampleCredentials [34, 9, 233])) = .ok raw) ∧
    loadCredentials isUuid (writeCredentials (sampleCredentials [34, 9, 233])) =
      .ok (sampleCredentials [34, 9, 233]) :=
  (credentials_round_trip_iff (registered_sample (by decide) (by simp [scalar_iff]))).mpr (by decide)

/-- The name U+1F600 makes a file that is no TOML document. -/
theorem credentials_lost :
    Registered isUuid (sampleCredentials [0x1f600]) ∧
    Toml.loads (writeCredentials (sampleCredentials [0x1f600])) = .error .decode ∧
    loadCredentials isUuid (writeCredentials (sampleCredentials [0x1f600])) = .error (.toml .decode) ∧
    ¬ ((∃ raw, Toml.loads (writeCredentials (sampleCredentials [0x1f600])) = .ok raw) ∧
      loadCredentials isUuid (writeCredentials (sampleCredentials [0x1f600])) =
        .ok (sampleCredentials [0x1f600])) := by
  have hregistered : Registered isUuid (sampleCredentials [0x1f600]) :=
    registered_sample (by decide) (by simp [scalar_iff])
  have hbasic : ¬ BasicPlane (sampleCredentials [0x1f600]) := by decide
  have hload := loadCredentials_write hregistered
  have htoml := loads_writeCredentials hregistered.scalar
  rw [if_neg hbasic] at hload htoml
  refine ⟨hregistered, htoml, hload, ?_⟩
  rintro ⟨-, hsame⟩
  rw [hload] at hsame
  cases hsame

end BuildEngine.Agent.Credentials
