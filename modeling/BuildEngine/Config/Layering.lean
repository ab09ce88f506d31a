import BuildEngine.Agent.Credentials
import BuildEngine.Config.EngineConfig

/-! # The layers of the configuration

`backend_url` and `name` come from the overrides, the environment, the credentials file, the configuration file or
the defaults, and the first of these in which they are set counts. The credentials file says `""` for a value that
is not set: there `load_config` takes the empty text for the value, and `__post_init__` refuses an empty
`backend_url`. -/

namespace BuildEngine.Config

open BuildEngine.Base BuildEngine.Agent.Credentials

/-- The credentials file, as `_load_toml` reads what `write_credentials` has written. -/
def credentialsFile (c : EngineCredentials) : File :=
  match Toml.loads (writeCredentials c) with
  | .error _ => .unreadable
  | .ok kvs => .document (kvs.map fun kv => (kv.1, .str kv.2))

/-! ### The documented layers -/

/-- The values of the credentials that are set. -/
def setValues (c : EngineCredentials) : Values :=
  (c.backendUrl.toList.map fun url => (py "backend_url", .str url)) ++
    (c.name.toList.map fun name => (py "name", .str name))

variable (w : Surroundings) (args : LoadArgs)

/-- The override of a field. -/
def overrideOf (key : PyStr) : Option Value := (Dict.get? (args.overrides.getD []) key).filter Value.isSet

/-- The variable of a field that is a text. -/
def variableOf (key : PyStr) : Option Value := (Dict.get? (args.environment w) (envName key)).map .str

/-- The values of a field in the layers, the first one first. -/
def layersOf (file : Values) (c : EngineCredentials) (key : PyStr) : List (Option Value) :=
  [overrideOf args key, variableOf w args key, Dict.get? (setValues c) key, Dict.get? file key,
    Dict.get? (configDefaults w) key]

/-- The values pass the checks: the variables can be converted, no key is unknown, and `__post_init__` raises
nothing. -/
def Valid (values : Values) : Prop :=
  ∃ upper coerced, upperLayers w args values = .ok upper ∧ unknownFields upper = [] ∧
    coerceConfigValues w upper = .ok coerced ∧ postInit w (field coerced) = .ok ()

/-- The configuration is loaded from the layers: a field that is loaded has the value of the first layer that sets
it, and loading does not fail if the values that are set pass the checks. -/
structure Layered (c : EngineCredentials) (file : Values) : Prop where
  value : ∀ config, loadConfig w args = .ok config → ∀ key ∈ [py "backend_url", py "name"],
    some (field config.values key) = (layersOf w args file c key).findSome? id
  loads : Valid w args (lowerLayers w args file ++ setValues c) → ∃ config, loadConfig w args = .ok config

/-- A layer above the credentials sets the field. -/
def SetAbove (key : PyStr) : Prop := overrideOf args key ≠ none ∨ variableOf w args key ≠ none

/-- Nothing of the credentials that is not set can be seen: the file is read, and for each of the two fields a layer
above or the credentials set it; a name that is not set may also be the empty text below. -/
structure NothingMissing (c : EngineCredentials) (file : Values) : Prop where
  plain : ∀ kv ∈ c.entries, Toml.Plain kv.2
  backendUrl : SetAbove w args (py "backend_url") ∨ c.backendUrl ≠ none
  name : SetAbove w args (py "name") ∨ c.name ≠ none ∨ Dict.get? file (py "name") = some (.str [])

variable {w args}

/-! ### The upper layers -/

theorem get?_given (key : PyStr) : Dict.get? args.given key = overrideOf args key := by
  have hgeneral : ∀ l : List PyStr, Dict.get? (l.filterMap fun k => (overrideOf args k).map fun v => (k, v)) key =
      if key ∈ l then overrideOf args key else none := by
    intro l
    induction l with
    | nil => rfl
    | cons k l ih =>
      rcases hk : overrideOf args k with _ | v
      · rw [List.filterMap_cons, hk]
        dsimp only [Option.map_none]
        rw [ih]
        by_cases hkey : key = k
        · subst hkey
          simp [hk]
        · simp [hkey]
      · rw [List.filterMap_cons, hk]
        dsimp only [Option.map_some]
        rw [Dict.get?_cons, ih]
        by_cases hkey : k = key
        · subst hkey
          by_cases hmem : k ∈ l
          · simp [hk, hmem]
          · simp [hk, hmem]
        · have hne : key ≠ k := fun heq => hkey heq.symm
          simp [hkey, hne]
  have hmissing : key ∉ (args.overrides.getD []).map Prod.fst → overrideOf args key = none := by
    intro hmem
    unfold overrideOf
    rw [Dict.get?_eq_none.mpr hmem]
    rfl
  show Dict.get? (((args.overrides.getD []).map Prod.fst).filterMap fun k =>
    (overrideOf args k).map fun v => (k, v)) key = _
  rw [hgeneral]
  split_ifs with hmem
  · rfl
  · exact (hmissing hmem).symm

/-- What the environment says about a field. -/
def variableValue (w : Surroundings) (env : Dict PyStr PyStr) (key : PyStr) : Option Value :=
  (Dict.get? env (envName key)).bind fun text => (coerceEnvValue w key text).toOption

theorem envOverrides_cons {env : Dict PyStr PyStr} {key : PyStr} {keys : List PyStr} {result : Values}
    (h : envOverrides w env (key :: keys) = .ok result) : ∃ rest, envOverrides w env keys = .ok rest ∧
      ∀ k, Dict.get? result k = (Dict.get? rest k).or (if key = k then variableValue w env key else none) := by
  unfold variableValue
  rw [envOverrides] at h
  rcases henv : Dict.get? env (envName key) with _ | text
  · rw [henv] at h
    refine ⟨result, h, fun k => ?_⟩
    rw [Option.bind_none, ite_self, Option.or_none]
  · rw [henv] at h
    obtain ⟨value, hvalue, h⟩ := bind_ok h
    obtain ⟨rest, hrest, h⟩ := bind_ok h
    cases h
    refine ⟨rest, hrest, fun k => ?_⟩
    rw [Dict.get?_cons, Option.bind_some, hvalue]
    rfl

/-- A variable counts for the field it is named after. -/
theorem get?_envOverrides {env : Dict PyStr PyStr} {keys : List PyStr} {result : Values}
    (h : envOverrides w env keys = .ok result) (k : PyStr) :
    Dict.get? result k = if k ∈ keys then variableValue w env k else none := by
  induction keys generalizing result with
  | nil =>
    cases h
    rfl
  | cons key keys ih =>
    obtain ⟨rest, hrest, hget⟩ := envOverrides_cons h
    rw [hget, ih hrest]
    by_cases hkey : key = k
    · subst hkey
      by_cases hmem : key ∈ keys
      · simp [hmem]
      · simp [hmem]
    · have hne : k ≠ key := fun heq => hkey heq.symm
      simp [hkey, hne]

/-- The two fields of the credentials are texts. -/
theorem coerceEnvValue_text {key : PyStr} (h : key ∈ [py "backend_url", py "name"]) (text : PyStr) :
    coerceEnvValue w key text = .ok (.str text) := by
  have hplain : ∀ key ∈ [py "backend_url", py "name"], key ∉ intFields ∧ key ≠ py "container_cpus" ∧
      key ≠ py "allow_local_source_urls" ∧ key ∉ [py "images", py "storage_origins"] ∧
      ((py "_path").isSuffixOf key || (py "_dir").isSuffixOf key) = false := by decide +kernel
  obtain ⟨h1, h2, h3, h4, h5⟩ := hplain key h
  unfold coerceEnvValue
  rw [if_neg h1, if_neg h2, if_neg h3, if_neg h4, h5, if_neg Bool.false_ne_true]

theorem mem_fieldNames {key : PyStr} (h : key ∈ [py "backend_url", py "name"]) : key ∈ fieldNames := by
  have hall : ∀ key ∈ [py "backend_url", py "name"], key ∈ fieldNames := by decide +kernel
  exact hall key h

/-- The upper layers are the same whatever is below them. -/
theorem upperLayers_ok {values upper : Values} (h : upperLayers w args values = .ok upper) :
    ∃ top, upperLayers w args [] = .ok top ∧ upper = values ++ top := by
  unfold upperLayers at h ⊢
  obtain ⟨env, henv, h⟩ := bind_ok h
  cases h
  refine ⟨env ++ args.given, ?_, List.append_assoc _ _ _⟩
  rw [henv]
  rfl

theorem upperLayers_of_top {top : Values} (h : upperLayers w args [] = .ok top) (values : Values) :
    upperLayers w args values = .ok (values ++ top) := by
  unfold upperLayers at h ⊢
  obtain ⟨env, henv, h⟩ := bind_ok h
  cases h
  rw [henv, List.nil_append, ← List.append_assoc]
  rfl

/-- What the upper layers say about one of the two fields. -/
theorem get?_top {top : Values} (h : upperLayers w args [] = .ok top) {key : PyStr}
    (hkey : key ∈ [py "backend_url", py "name"]) :
    Dict.get? top key = (overrideOf args key).or (variableOf w args key) := by
  unfold upperLayers at h
  obtain ⟨env, henv, h⟩ := bind_ok h
  cases h
  have hvariable : Dict.get? env key = variableOf w args key := by
    rw [get?_envOverrides henv, if_pos (mem_fieldNames hkey)]
    unfold variableOf variableValue
    rcases Dict.get? (args.environment w) (envName key) with _ | text
    · rfl
    · rw [Option.bind_some, coerceEnvValue_text hkey]
      rfl
  rw [List.nil_append, Dict.get?_append, get?_given, hvariable]

/-! ### The checks -/

theorem forM_congr {α ε : Type} {f g : α → Except ε Unit} {l : List α} (h : ∀ x ∈ l, f x = g x) :
    l.forM f = l.forM g := by
  induction l with
  | nil => rfl
  | cons x l ih =>
    have hhead := h x List.mem_cons_self
    have htail := ih fun y hy => h y (List.mem_cons_of_mem _ hy)
    show (f x >>= fun _ => l.forM f) = (g x >>= fun _ => l.forM g)
    rw [hhead, htail]

/-- The name is not checked. -/
theorem postInit_congr {self self' : PyStr → Value} (h : ∀ key, key ≠ py "name" → self key = self' key) :
    postInit w self = postInit w self' := by
  have hpositive : ∀ key ∈ positiveFields, key ≠ py "name" := by decide +kernel
  have hforM : (positiveFields.forM fun key => checkPositive key (self key)) =
      positiveFields.forM fun key => checkPositive key (self' key) :=
    forM_congr fun key hkey => by rw [h key (hpositive key hkey)]
  unfold postInit
  rw [hforM, h (py "max_concurrency") (by decide), h (py "container_cpus") (by decide),
    h (py "image_manifest_version") (by decide), h (py "images") (by decide), h (py "storage_origins") (by decide),
    h (py "backend_url") (by decide)]

/-- The check of the address is one of the checks. -/
theorem checkBackendUrl_of_postInit {self : PyStr → Value} (h : postInit w self = .ok ()) :
    checkBackendUrl w (self (py "backend_url")) = .ok () := by
  unfold postInit at h
  obtain ⟨-, -, h⟩ := bind_ok h
  obtain ⟨-, -, h⟩ := bind_ok h
  obtain ⟨-, -, h⟩ := bind_ok h
  obtain ⟨-, -, h⟩ := bind_ok h
  obtain ⟨-, -, h⟩ := bind_ok h
  obtain ⟨origins, -, h⟩ := bind_ok h
  obtain ⟨-, -, h⟩ := bind_ok h
  obtain ⟨⟨⟩, hurl, -⟩ := bind_ok h
  exact hurl

/-- The empty text is no secure origin. -/
theorem checkBackendUrl_empty : checkBackendUrl w (.str []) ≠ .ok () := by
  have hsplit : isSecureOrigin w [] = if w.badNetloc [] then none else some false := rfl
  show checkSecure w (py "backend_url") .backendUrl (.str []) ≠ .ok ()
  unfold checkSecure
  dsimp only
  rw [hsplit]
  by_cases hbad : w.badNetloc [] = true
  · rw [if_pos hbad]
    exact fun h => (by cases h)
  · rw [if_neg hbad]
    exact fun h => (by cases h)

/-- Every key that is set is a field. -/
theorem unknownFields_eq_nil {values : Values} :
    unknownFields values = [] ↔ ∀ key, Dict.get? values key ≠ none → key ∈ fieldNames := by
  unfold unknownFields
  rw [← List.length_eq_zero_iff, List.length_mergeSort, List.length_eq_zero_iff, List.dedup_eq_nil,
    List.filter_eq_nil_iff]
  refine forall_congr' fun key => ?_
  rw [Ne, Dict.get?_eq_none, not_not, decide_eq_true_eq, not_not]

theorem coerce_append {values coerced : Values} (h : coerceConfigValues w values = .ok coerced) :
    ∃ tail, coerced = values ++ tail ∧ (∀ key ∈ [py "backend_url", py "name"], Dict.get? tail key = none) ∧
      (∀ key ∈ tail.map Prod.fst, key ∈ fieldNames) ∧
      ∀ {values' : Values}, (∀ key, key ≠ py "name" → Dict.get? values key = Dict.get? values' key) →
        coerceConfigValues w values' = .ok (values' ++ tail) := by
  unfold coerceConfigValues at h
  obtain ⟨allow, hallow, h⟩ := bind_ok h
  cases h
  refine ⟨_, rfl, ?_, ?_, ?_⟩
  · have hkeys : ∀ key ∈ [py "backend_url", py "name"], key ∉ [py "credentials_path", py "state_dir", py "images",
        py "storage_origins", py "allow_local_source_urls"] := by decide +kernel
    exact fun key hkey => Dict.get?_eq_none.mpr (hkeys key hkey)
  · have hkeys : ∀ key ∈ [py "credentials_path", py "state_dir", py "images", py "storage_origins",
        py "allow_local_source_urls"], key ∈ fieldNames := by decide +kernel
    exact hkeys
  · intro values' hsame
    have hfield : ∀ key, key ≠ py "name" → field values' key = field values key := by
      intro key hkey
      rw [field, field, hsame key hkey]
    have h1 := hfield (py "credentials_path") (by decide)
    have h2 := hfield (py "state_dir") (by decide)
    have h3 := hfield (py "images") (by decide)
    have h4 := hfield (py "storage_origins") (by decide)
    have h5 := hfield (py "allow_local_source_urls") (by decide)
    unfold coerceConfigValues
    rw [h1, h2, h3, h4, h5, hallow]
    rfl

/-! ### Construction -/

/-- A configuration that is constructed has the values that passed the checks. -/
theorem construct_ok {values : Values} {config : EngineConfig w} (h : construct w args values = .ok config) :
    ∃ upper, upperLayers w args values = .ok upper ∧ unknownFields upper = [] ∧
      coerceConfigValues w upper = .ok config.values ∧ postInit w (field config.values) = .ok () := by
  unfold construct at h
  obtain ⟨upper, hupper, h⟩ := bind_ok h
  split_ifs at h with hunknown
  obtain ⟨coerced, hcoerced, h⟩ := bind_ok h
  unfold EngineConfig.make at h
  split_ifs at h with hknown
  split at h
  · cases h
  · next hpost =>
    cases h
    exact ⟨upper, hupper, not_not.mp hunknown, hcoerced, hpost⟩

/-- Values that pass the checks make a configuration. -/
theorem construct_of_valid {values : Values} (h : Valid w args values) :
    ∃ config, construct w args values = .ok config := by
  obtain ⟨upper, coerced, hupper, hunknown, hcoerced, hpost⟩ := h
  obtain ⟨tail, rfl, -, htail, -⟩ := coerce_append hcoerced
  have hknown : ∀ key ∈ (upper ++ tail).map Prod.fst, key ∈ fieldNames := by
    intro key hkey
    rw [List.map_append, List.mem_append] at hkey
    rcases hkey with hkey | hkey
    · refine unknownFields_eq_nil.mp hunknown key ?_
      rw [Ne, Dict.get?_eq_none, not_not]
      exact hkey
    · exact htail key hkey
  have hmake : ∃ config, EngineConfig.make w (upper ++ tail) = .ok config := by
    unfold EngineConfig.make
    rw [dif_pos hknown]
    split
    · next e herror =>
      rw [hpost] at herror
      cases herror
    · exact ⟨_, rfl⟩
  obtain ⟨config, hconfig⟩ := hmake
  refine ⟨config, ?_⟩
  unfold construct
  rw [hupper]
  show (if unknownFields upper ≠ [] then _ else _) = _
  rw [if_neg (not_not.mpr hunknown), hcoerced]
  exact hconfig

theorem valid_of_construct {values : Values} {config : EngineConfig w}
    (h : construct w args values = .ok config) : Valid w args values := by
  obtain ⟨upper, hupper, hunknown, hcoerced, hpost⟩ := construct_ok h
  exact ⟨upper, config.values, hupper, hunknown, hcoerced, hpost⟩

/-- The value of a field under the upper layers. -/
def seen (w : Surroundings) (args : LoadArgs) (values : Values) (key : PyStr) : Option Value :=
  (overrideOf args key).or ((variableOf w args key).or (Dict.get? values key))

/-- The value of one of the two fields of a configuration. -/
theorem field_construct {values : Values} {config : EngineConfig w} (h : construct w args values = .ok config)
    {key : PyStr} (hkey : key ∈ [py "backend_url", py "name"]) :
    field config.values key = (seen w args values key).getD .none := by
  obtain ⟨upper, hupper, -, hcoerced, -⟩ := construct_ok h
  obtain ⟨top, htop, rfl⟩ := upperLayers_ok hupper
  obtain ⟨tail, hvalues, htail, -, -⟩ := coerce_append hcoerced
  rw [field, hvalues, Dict.get?_append, htail key hkey, Option.none_or, Dict.get?_append, get?_top htop hkey, seen,
    Option.or_assoc]

/-- The checks do not depend on the name: values that differ in it only, under the upper layers, are valid or not
together. -/
theorem valid_congr {values values' : Values} (h : Valid w args values)
    (hsame : ∀ top, upperLayers w args [] = .ok top → ∀ key, key ≠ py "name" →
      (Dict.get? top key).or (Dict.get? values key) = (Dict.get? top key).or (Dict.get? values' key)) :
    Valid w args values' := by
  obtain ⟨upper, coerced, hupper, hunknown, hcoerced, hpost⟩ := h
  obtain ⟨top, htop, rfl⟩ := upperLayers_ok hupper
  have hkeys : ∀ key, key ≠ py "name" → Dict.get? (values ++ top) key = Dict.get? (values' ++ top) key := by
    intro key hname
    rw [Dict.get?_append, Dict.get?_append, hsame top htop key hname]
  obtain ⟨tail, rfl, -, -, hother⟩ := coerce_append hcoerced
  refine ⟨values' ++ top, _, upperLayers_of_top htop values', ?_, hother hkeys, ?_⟩
  · rw [unknownFields_eq_nil] at hunknown ⊢
    intro key hset
    by_cases hname : key = py "name"
    · rw [hname]
      exact mem_fieldNames (by simp)
    · exact hunknown key (by rwa [hkeys key hname])
  · rw [← hpost]
    refine postInit_congr fun key hname => ?_
    rw [field, field, Dict.get?_append, Dict.get?_append _ tail, hkeys key hname]

/-- An address that is loaded is not the empty text. -/
theorem seen_backendUrl {values : Values} (h : Valid w args values) :
    seen w args values (py "backend_url") ≠ some (.str []) := by
  intro hempty
  obtain ⟨config, hconfig⟩ := construct_of_valid h
  have hkey : py "backend_url" ∈ [py "backend_url", py "name"] := List.mem_cons_self
  have hfield := field_construct hconfig hkey
  rw [hempty, Option.getD_some] at hfield
  have hcheck := checkBackendUrl_of_postInit config.checked
  rw [hfield] at hcheck
  exact checkBackendUrl_empty hcheck

/-! ### The credentials file -/

/-- What the credentials file says about the two fields. -/
def fileValues (c : EngineCredentials) : Values :=
  [(py "backend_url", .str (orEmpty c.backendUrl)), (py "name", .str (orEmpty c.name))]

theorem readFile_credentials {c : EngineCredentials} {path : PyStr} (h : w.file path = credentialsFile c) :
    readFile w path = if ∀ kv ∈ c.entries, Toml.Plain kv.2 then
      .ok (c.entries.map fun kv => (kv.1, .str kv.2)) else .error (.file path) := by
  unfold readFile
  rw [h, credentialsFile, loads_entries]
  by_cases hplain : ∀ kv ∈ c.entries, Toml.Plain kv.2
  · rw [if_pos hplain, if_pos hplain]
  · rw [if_neg hplain, if_neg hplain]

theorem loadConfig_eq {c : EngineCredentials} {file : Values} (hfile : fileLayer w args = .ok file)
    (hc : w.file (activeCredentialsPath w args file) = credentialsFile c) : loadConfig w args =
      if ∀ kv ∈ c.entries, Toml.Plain kv.2 then construct w args (lowerLayers w args file ++ fileValues c)
      else .error (.file (activeCredentialsPath w args file)) := by
  unfold loadConfig
  rw [hfile]
  show readFile w (activeCredentialsPath w args file) >>= _ = _
  rw [readFile_credentials hc]
  by_cases hplain : ∀ kv ∈ c.entries, Toml.Plain kv.2
  · rw [if_pos hplain, if_pos hplain]
    rfl
  · rw [if_neg hplain, if_neg hplain]
    rfl

/-- The layers below the credentials. -/
theorem get?_lowerLayers (file : Values) {key : PyStr} (hkey : key ∈ [py "backend_url", py "name"]) :
    Dict.get? (lowerLayers w args file) key = (Dict.get? file key).or (Dict.get? (configDefaults w) key) := by
  have hne : py "credentials_path" ≠ key := by
    rintro rfl
    exact absurd hkey (by decide)
  unfold lowerLayers
  dsimp only
  rw [Dict.get?_concat, if_neg hne]
  rcases args.credentialsPath with _ | path
  · rw [Option.toList_none, List.map_nil, List.append_nil, Dict.get?_append]
  · rw [Option.toList_some, List.map_singleton, Dict.get?_concat, if_neg hne, Dict.get?_append]

theorem get?_setValues_other {c : EngineCredentials} {key : PyStr} (hkey : key ∉ [py "backend_url", py "name"]) :
    Dict.get? (setValues c) key = none := by
  have hsub : ∀ k ∈ (setValues c).map Prod.fst, k ∈ [py "backend_url", py "name"] := by
    rcases c with ⟨_, _, _, _, _ | url, _ | name⟩ <;> simp [setValues]
  exact Dict.get?_eq_none.mpr fun hmem => hkey (hsub key hmem)

theorem get?_setValues_url (c : EngineCredentials) :
    Dict.get? (setValues c) (py "backend_url") = c.backendUrl.map .str := by
  rcases c with ⟨_, _, _, _, _ | url, _ | name⟩ <;> rfl

theorem get?_setValues_name (c : EngineCredentials) : Dict.get? (setValues c) (py "name") = c.name.map .str := by
  rcases c with ⟨_, _, _, _, _ | url, _ | name⟩ <;> rfl

theorem get?_fileValues_url (c : EngineCredentials) :
    Dict.get? (fileValues c) (py "backend_url") = some (.str (orEmpty c.backendUrl)) := rfl

theorem get?_fileValues_name (c : EngineCredentials) :
    Dict.get? (fileValues c) (py "name") = some (.str (orEmpty c.name)) := rfl

theorem get?_fileValues_other {c : EngineCredentials} {key : PyStr} (hkey : key ∉ [py "backend_url", py "name"]) :
    Dict.get? (fileValues c) key = none := Dict.get?_eq_none.mpr hkey

/-! ### What can be seen of it -/

theorem seen_of_setAbove {key : PyStr} (h : SetAbove w args key) (values values' : Values) :
    seen w args values key = seen w args values' key := by
  unfold seen
  rcases h with h | h
  · obtain ⟨v, hv⟩ := Option.ne_none_iff_exists'.mp h
    rw [hv, Option.some_or, Option.some_or]
  · obtain ⟨v, hv⟩ := Option.ne_none_iff_exists'.mp h
    rw [hv, Option.some_or, Option.some_or]

theorem seen_of_not_setAbove {key : PyStr} (h : ¬ SetAbove w args key) (values : Values) :
    seen w args values key = Dict.get? values key := by
  unfold SetAbove at h
  rw [not_or, not_not, not_not] at h
  rw [seen, h.1, h.2, Option.none_or, Option.none_or]

section

variable (c : EngineCredentials) (base : Values)

/-- The address of the file is that of the credentials, if a layer above or the credentials set it. -/
theorem seen_url (h : SetAbove w args (py "backend_url") ∨ c.backendUrl ≠ none) :
    seen w args (base ++ fileValues c) (py "backend_url") = seen w args (base ++ setValues c) (py "backend_url") := by
  rcases h with h | h
  · exact seen_of_setAbove h _ _
  · obtain ⟨url, hurl⟩ := Option.ne_none_iff_exists'.mp h
    rw [seen, seen, Dict.get?_append, Dict.get?_append, get?_fileValues_url, get?_setValues_url, hurl]
    rfl

/-- The name of the file is that of the credentials under the same condition, and also if the name below is the
empty text, which the file has for a name that is not set. -/
theorem seen_name (h : SetAbove w args (py "name") ∨ c.name ≠ none ∨
      Dict.get? base (py "name") = some (.str [])) :
    seen w args (base ++ fileValues c) (py "name") = seen w args (base ++ setValues c) (py "name") := by
  rcases h with h | h
  · exact seen_of_setAbove h _ _
  · rw [seen, seen, Dict.get?_append, Dict.get?_append, get?_fileValues_name, get?_setValues_name]
    rcases hname : c.name with _ | name
    · rcases h with h | h
      · exact absurd hname h
      · rw [h]
        rfl
    · rfl

/-- The file and what is set in the credentials are valid together, if the address is set. -/
theorem valid_fileValues_iff (h : SetAbove w args (py "backend_url") ∨ c.backendUrl ≠ none) :
    Valid w args (base ++ fileValues c) ↔ Valid w args (base ++ setValues c) := by
  have hsame : ∀ top, upperLayers w args [] = .ok top → ∀ key, key ≠ py "name" →
      (Dict.get? top key).or (Dict.get? (base ++ fileValues c) key) =
        (Dict.get? top key).or (Dict.get? (base ++ setValues c) key) := by
    intro top htop key hname
    by_cases hurl : key = py "backend_url"
    · have hseen := seen_url c base h
      unfold seen at hseen
      rw [hurl, get?_top htop (by simp), Option.or_assoc, Option.or_assoc, hseen]
    · have hkey : key ∉ [py "backend_url", py "name"] := by simp [hurl, hname]
      rw [Dict.get?_append, Dict.get?_append base, get?_fileValues_other hkey, get?_setValues_other hkey]
  exact ⟨fun hvalid => valid_congr hvalid hsame,
    fun hvalid => valid_congr hvalid fun top htop key hkey => (hsame top htop key hkey).symm⟩

/-- With the file, the address must be set. -/
theorem url_of_valid (h : Valid w args (base ++ fileValues c)) :
    SetAbove w args (py "backend_url") ∨ c.backendUrl ≠ none := by
  by_contra hnone
  rw [not_or, not_not] at hnone
  refine seen_backendUrl h ?_
  rw [seen_of_not_setAbove hnone.1, Dict.get?_append, get?_fileValues_url, hnone.2]
  rfl

end

/-! ### The result -/

theorem findSome_id_cons {α : Type} (x : Option α) (l : List (Option α)) :
    (x :: l).findSome? id = x.or (l.findSome? id) := by
  rcases x with _ | a <;> rfl

/-- The first layer that sets one of the two fields. -/
theorem layersOf_eq (c : EngineCredentials) (file : Values) {key : PyStr}
    (hkey : key ∈ [py "backend_url", py "name"]) : (layersOf w args file c key).findSome? id =
      seen w args (lowerLayers w args file ++ setValues c) key := by
  unfold layersOf seen
  rw [Dict.get?_append, get?_lowerLayers file hkey]
  simp only [findSome_id_cons, List.findSome?_nil, Option.or_none]

theorem default_none {key : PyStr} (hkey : key ∈ [py "backend_url", py "name"]) :
    Dict.get? (configDefaults w) key = some .none := by
  rcases List.mem_cons.mp hkey with rfl | hkey
  · rfl
  · rw [List.mem_singleton.mp hkey]
    rfl

/-- The two fields are set in some layer. -/
theorem some_getD_seen {file upper : Values} {key : PyStr} (hkey : key ∈ [py "backend_url", py "name"]) :
    some ((seen w args (lowerLayers w args file ++ upper) key).getD .none) =
      seen w args (lowerLayers w args file ++ upper) key := by
  unfold seen
  rw [Dict.get?_append, get?_lowerLayers file hkey, default_none hkey]
  rcases overrideOf args key with _ | v
  · rcases variableOf w args key with _ | v
    · rcases Dict.get? upper key with _ | v
      · rcases Dict.get? file key with _ | v <;> rfl
      · rfl
    · rfl
  · rfl

/-- **The layers of the configuration**: for a configuration file that can be read and a credentials file that
`write_credentials` has written, `backend_url` and `name` come from the first layer that sets them, and values that
are not set do not make loading fail, exactly if the values that are set are refused anyway or no value that is not
set can be seen. -/
theorem layering_iff (c : EngineCredentials) (file : Values) (hfile : fileLayer w args = .ok file)
    (hc : w.file (activeCredentialsPath w args file) = credentialsFile c) :
    Layered w args c file ↔
      ¬ Valid w args (lowerLayers w args file ++ setValues c) ∨ NothingMissing w args c file := by
  have hload := loadConfig_eq hfile hc
  have hfield : ∀ config, loadConfig w args = .ok config → (∀ kv ∈ c.entries, Toml.Plain kv.2) ∧
      Valid w args (lowerLayers w args file ++ fileValues c) ∧ ∀ key ∈ [py "backend_url", py "name"],
        some (field config.values key) = seen w args (lowerLayers w args file ++ fileValues c) key := by
    intro config hconfig
    rw [hload] at hconfig
    split_ifs at hconfig with hplain
    refine ⟨hplain, valid_of_construct hconfig, fun key hkey => ?_⟩
    rw [field_construct hconfig hkey, some_getD_seen hkey]
  constructor
  · intro h
    by_cases hvalid : Valid w args (lowerLayers w args file ++ setValues c)
    · obtain ⟨config, hconfig⟩ := h.loads hvalid
      obtain ⟨hplain, hvalid', hvalues⟩ := hfield config hconfig
      refine Or.inr ⟨hplain, url_of_valid c _ hvalid', ?_⟩
      by_contra hname
      rw [not_or, not_or, not_not] at hname
      obtain ⟨habove, hcname, hbelow⟩ := hname
      have hvalue := h.value config hconfig (py "name") (by simp)
      rw [hvalues (py "name") (by simp), layersOf_eq c file (by simp), seen_of_not_setAbove habove,
        seen_of_not_setAbove habove, Dict.get?_append, Dict.get?_append, get?_fileValues_name, get?_setValues_name,
        hcname, get?_lowerLayers file (by simp), default_none (by simp)] at hvalue
      rcases hfileName : Dict.get? file (py "name") with _ | v
      · rw [hfileName] at hvalue
        cases hvalue
      · rw [hfileName] at hvalue
        cases hvalue
        exact hbelow hfileName
    · exact Or.inl hvalid
  · intro h
    refine ⟨fun config hconfig key hkey => ?_, fun hvalid => ?_⟩
    · obtain ⟨hplain, hvalid', hvalues⟩ := hfield config hconfig
      have hurl := url_of_valid c _ hvalid'
      rcases h with h | h
      · exact absurd ((valid_fileValues_iff c _ hurl).mp hvalid') h
      · rw [hvalues key hkey, layersOf_eq c file hkey]
        have hname : SetAbove w args (py "name") ∨ c.name ≠ none ∨
            Dict.get? (lowerLayers w args file) (py "name") = some (.str []) := by
          refine h.name.imp_right fun hn => hn.imp_right fun hbelow => ?_
          rw [get?_lowerLayers file (by simp), hbelow, Option.some_or]
        rcases List.mem_cons.mp hkey with rfl | hkey
        · exact seen_url c _ hurl
        · rw [List.mem_singleton.mp hkey]
          exact seen_name c _ hname
    · rcases h with h | h
      · exact absurd hvalid h
      · rw [hload, if_pos h.plain]
        exact construct_of_valid ((valid_fileValues_iff c _ h.backendUrl).mpr hvalid)

/-! ### Two machines -/

/-- Surroundings with a configuration file and a credentials file at their default paths. -/
def sampleSurroundings (file : Values) (c : EngineCredentials) : Surroundings where
  file path :=
    if path = defaultConfigPath then .document file
    else if path = py "/etc/mincemeat/build-engine/credentials.toml" then credentialsFile c
    else .missing
  environ := []
  os := py "linux"
  arch := py "amd64"
  int text := (intOfDigits text).map Int.ofNat
  float text := (intOfDigits text).map fun n => PyFloat.finite n
  repr value := match value with
    | .int n => intText n
    | .path text => text
    | .time text => text
    | _ => []
  badNetloc _ := false

/-- A configuration file with the address of the backend. -/
def sampleFile : Values := [(py "backend_url", .str (py "https://backend.example"))]

/-- Credentials with an address and a name. -/
def fullCredentials : EngineCredentials :=
  { sampleCredentials (py "engine") with backendUrl := some (py "https://other.example") }

theorem activePath_sample (c : EngineCredentials) :
    (sampleSurroundings sampleFile c).file (activeCredentialsPath (sampleSurroundings sampleFile c) {} sampleFile) =
      credentialsFile c := rfl

/-- Credentials with both values take the place of the configuration file. -/
theorem layering_full : Layered (sampleSurroundings sampleFile fullCredentials) {} fullCredentials sampleFile :=
  (layering_iff fullCredentials sampleFile rfl (activePath_sample fullCredentials)).mpr
    (Or.inr ⟨by decide +kernel, Or.inr (by decide), Or.inr (Or.inl (by decide))⟩)

/-- Without an address in the credentials the configuration file is enough, and every check passes. -/
theorem valid_sample : Valid (sampleSurroundings sampleFile (sampleCredentials (py "engine"))) {}
    (lowerLayers (sampleSurroundings sampleFile (sampleCredentials (py "engine"))) {} sampleFile ++
      setValues (sampleCredentials (py "engine"))) := by
  refine ⟨_, _, rfl, ?_, rfl, ?_⟩
  · rw [unknownFields_eq_nil]
    intro key hkey
    rw [Ne, Dict.get?_eq_none, not_not] at hkey
    have hall : ∀ key ∈ (lowerLayers (sampleSurroundings sampleFile (sampleCredentials (py "engine"))) {} sampleFile ++
        setValues (sampleCredentials (py "engine"))).map Prod.fst, key ∈ fieldNames := by decide +kernel
    exact hall key hkey
  · decide +kernel

/-- The address of the configuration file is lost: the credentials have no address, and loading fails although the
values that are set are valid. -/
theorem absent_url_fails :
    Valid (sampleSurroundings sampleFile (sampleCredentials (py "engine"))) {}
      (lowerLayers (sampleSurroundings sampleFile (sampleCredentials (py "engine"))) {} sampleFile ++
        setValues (sampleCredentials (py "engine"))) ∧
    (∀ config, loadConfig (sampleSurroundings sampleFile (sampleCredentials (py "engine"))) {} ≠ .ok config) ∧
    ¬ Layered (sampleSurroundings sampleFile (sampleCredentials (py "engine"))) {} (sampleCredentials (py "engine"))
      sampleFile := by
  have hfails : ∀ config,
      loadConfig (sampleSurroundings sampleFile (sampleCredentials (py "engine"))) {} ≠ .ok config := by
    intro config hconfig
    have hlayer : fileLayer (sampleSurroundings sampleFile (sampleCredentials (py "engine"))) {} = .ok sampleFile := rfl
    rw [loadConfig_eq hlayer (activePath_sample _)] at hconfig
    split_ifs at hconfig
    have hurl := url_of_valid _ _ (valid_of_construct hconfig)
    exact absurd hurl (by
      rw [not_or]
      exact ⟨by unfold SetAbove; decide +kernel, by decide⟩)
  refine ⟨valid_sample, hfails, fun h => ?_⟩
  obtain ⟨config, hconfig⟩ := h.loads valid_sample
  exact hfails config hconfig

end BuildEngine.Config
