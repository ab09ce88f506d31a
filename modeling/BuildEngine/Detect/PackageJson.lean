import BuildEngine.Base.Json
import BuildEngine.Base.Outcome
import BuildEngine.Base.Replace
import BuildEngine.Base.Utf8
import BuildEngine.Detect.Errors

/-! # `package.json`

`detect/package_json.py`. The interpreter's limit on the nesting of a JSON text is the parameter `tooDeep`: the
texts on which `json.loads` raises `RecursionError`. -/

namespace BuildEngine.Detect

open BuildEngine.Base

/-- The fields of a `package.json` that build planning reads. -/
structure PackageJson where
  scripts : List (PyStr × PyStr)
  dependencies : List (PyStr × PyStr)
  devDependencies : List (PyStr × PyStr)
  optionalDependencies : List (PyStr × PyStr)
  peerDependencies : List (PyStr × PyStr)
  packageManager : Option PyStr
  enginesNode : Option PyStr
  deriving DecidableEq

namespace PackageJson

/-- `name in all_dependencies` -/
def dependsOn (p : PackageJson) (name : PyStr) : Bool :=
  [p.peerDependencies, p.optionalDependencies, p.devDependencies, p.dependencies].any fun map =>
    map.any fun kv => kv.1 = name

/-- `has_dependency` -/
def hasDependency (p : PackageJson) (names : List PyStr) : Bool := names.any p.dependsOn

/-- `script`: a command that is there and not empty. -/
def script (p : PackageJson) (name : PyStr) : Option PyStr :=
  ((p.scripts.find? fun kv => kv.1 = name).map Prod.snd).filter (· ≠ [])

end PackageJson

/-! ### Fields -/

/-- The members of an object of strings. -/
def strings : List (PyStr × Json) → Option (List (PyStr × PyStr))
  | [] => some []
  | (key, .str item) :: kvs => (strings kvs).map ((key, item) :: ·)
  | _ :: _ => none

/-- `_string_map` -/
def stringMap (raw : List (PyStr × Json)) (field : PyStr) : Except PackageJsonError (List (PyStr × PyStr)) :=
  match Json.get? raw field with
  | none | some .null => .ok []
  | some (.obj kvs) =>
    match strings kvs with
    | some map => .ok map
    | none => .error (.fieldNotStrings field)
  | some _ => .error (.fieldNotObject field)

/-- `_optional_string` -/
def optionalString (raw : List (PyStr × Json)) (field : PyStr) : Except PackageJsonError (Option PyStr) :=
  match Json.get? raw field with
  | none | some .null => .ok none
  | some (.str s) => .ok (some s)
  | some _ => .error (.fieldNotString field)

/-- `_engine_node` -/
def engineNode (raw : List (PyStr × Json)) : Except PackageJsonError (Option PyStr) :=
  match Json.get? raw (py "engines") with
  | none | some .null => .ok none
  | some (.obj engines) =>
    match Json.get? engines (py "node") with
    | none | some .null => .ok none
    | some (.str node) => .ok (some node)
    | some _ => .error (.fieldNotString (py "engines.node"))
  | some _ => .error (.fieldNotObject (py "engines"))

/-- The fields of an object, read in the order of `load_package_json`. -/
def readFields (raw : List (PyStr × Json)) : Except PackageJsonError PackageJson := do
  let scripts ← stringMap raw (py "scripts")
  let dependencies ← stringMap raw (py "dependencies")
  let devDependencies ← stringMap raw (py "devDependencies")
  let optionalDependencies ← stringMap raw (py "optionalDependencies")
  let peerDependencies ← stringMap raw (py "peerDependencies")
  let packageManager ← optionalString raw (py "packageManager")
  let enginesNode ← engineNode raw
  return ⟨scripts, dependencies, devDependencies, optionalDependencies, peerDependencies, packageManager, enginesNode⟩

/-! ### The file -/

/-- The newlines of a text file are read as `\n`. -/
def universalNewlines (s : PyStr) : PyStr := replace (py "\r") (py "\n") (replace (py "\r\n") (py "\n") s)

/-- The object of a file, and its fields. -/
def parsePackageJson (tooDeep : PyStr → Bool) (data : List Byte) : Except Exc PackageJson :=
  match decodeStrict data with
  | none => .error (.builtin .unicodeDecode)
  | some text =>
    if tooDeep (universalNewlines text) then .error (.builtin .recursion)
    else match Json.loads (universalNewlines text) with
      | .error .decode => .error (.packageJson .notJson)
      | .error .tooManyDigits => .error (.builtin .intDigits)
      | .ok (.obj raw) =>
        match readFields raw with
        | .error e => .error (.packageJson e)
        | .ok p => .ok p
      | .ok _ => .error (.packageJson .notObject)

/-- `load_package_json` of a project; `file` is the content of `package.json`, if there is one. -/
def loadPackageJson (tooDeep : PyStr → Bool) (file : Option (List Byte)) : Except Exc (Option PackageJson) :=
  match file with
  | none => .ok none
  | some data =>
    match parsePackageJson tooDeep data with
    | .error e => .error e
    | .ok p => .ok (some p)

/-! ### What a file must be -/

/-- A map of strings, or nothing. -/
def IsStringMap (value : Option Json) : Prop :=
  value = none ∨ value = some .null ∨ ∃ kvs, value = some (.obj kvs) ∧ ∀ kv ∈ kvs, ∃ s, kv.2 = .str s

/-- A string, or nothing. -/
def IsOptionalString (value : Option Json) : Prop :=
  value = none ∨ value = some .null ∨ ∃ s, value = some (.str s)

/-- The fields of a `package.json` have the types build planning wants. -/
structure Typed (raw : List (PyStr × Json)) : Prop where
  maps : ∀ field ∈ [py "scripts", py "dependencies", py "devDependencies", py "optionalDependencies",
    py "peerDependencies"], IsStringMap (Json.get? raw field)
  packageManager : IsOptionalString (Json.get? raw (py "packageManager"))
  engines : Json.get? raw (py "engines") = none ∨ Json.get? raw (py "engines") = some .null ∨
    ∃ kvs, Json.get? raw (py "engines") = some (.obj kvs) ∧ IsOptionalString (Json.get? kvs (py "node"))

/-- A file build planning can read: UTF-8, not nested too deeply, and an object with typed fields. -/
def Readable (tooDeep : PyStr → Bool) (data : List Byte) : Prop :=
  ∃ text raw, decodeStrict data = some text ∧ tooDeep (universalNewlines text) = false ∧
    Json.loads (universalNewlines text) = .ok (.obj raw) ∧ Typed raw

theorem strings_isSome_iff (kvs : List (PyStr × Json)) :
    (∃ map, strings kvs = some map) ↔ ∀ kv ∈ kvs, ∃ s, kv.2 = .str s := by
  induction kvs with
  | nil => simp [strings]
  | cons kv kvs ih =>
    obtain ⟨key, value⟩ := kv
    rw [List.forall_mem_cons, ← ih]
    cases value with
    | str s =>
      rw [strings]
      constructor
      · rintro ⟨map, hmap⟩
        obtain ⟨rest, hsome, -⟩ := Option.map_eq_some_iff.mp hmap
        exact ⟨⟨s, rfl⟩, rest, hsome⟩
      · rintro ⟨-, rest, hsome⟩
        exact ⟨_, by rw [hsome]; rfl⟩
    | null | bool | int | float | arr | obj => simp [strings]

theorem stringMap_ok_iff (raw : List (PyStr × Json)) (field : PyStr) :
    (∃ map, stringMap raw field = .ok map) ↔ IsStringMap (Json.get? raw field) := by
  unfold stringMap IsStringMap
  rcases Json.get? raw field with _ | value
  · simp
  · cases value with
    | obj kvs =>
      have hstrings := strings_isSome_iff kvs
      simp only [reduceCtorEq, Option.some.injEq, false_or, Json.obj.injEq, exists_eq_left']
      rw [← hstrings]
      rcases strings kvs with _ | map
      · simp
      · simp
    | null | bool | int | float | str | arr => simp

theorem optionalString_ok_iff (raw : List (PyStr × Json)) (field : PyStr) :
    (∃ s, optionalString raw field = .ok s) ↔ IsOptionalString (Json.get? raw field) := by
  unfold optionalString IsOptionalString
  rcases Json.get? raw field with _ | value
  · simp
  · cases value <;> simp

theorem engineNode_ok_iff (raw : List (PyStr × Json)) : (∃ s, engineNode raw = .ok s) ↔
    Json.get? raw (py "engines") = none ∨ Json.get? raw (py "engines") = some .null ∨
      ∃ kvs, Json.get? raw (py "engines") = some (.obj kvs) ∧ IsOptionalString (Json.get? kvs (py "node")) := by
  unfold engineNode IsOptionalString
  rcases Json.get? raw (py "engines") with _ | value
  · simp
  · cases value with
    | obj kvs =>
      simp only [reduceCtorEq, Option.some.injEq, false_or, Json.obj.injEq, exists_eq_left']
      rcases Json.get? kvs (py "node") with _ | node
      · simp
      · cases node <;> simp
    | null | bool | int | float | str | arr => simp

/-- The fields are read exactly if they are typed. -/
theorem readFields_ok_iff (raw : List (PyStr × Json)) : (∃ p, readFields raw = .ok p) ↔ Typed raw := by
  have hmap := stringMap_ok_iff raw
  have hmanager := optionalString_ok_iff raw (py "packageManager")
  have hengine := engineNode_ok_iff raw
  unfold readFields
  constructor
  · intro h
    obtain ⟨m₁, h₁, h⟩ := (bind_ok_iff _ _).mp h
    obtain ⟨m₂, h₂, h⟩ := (bind_ok_iff _ _).mp h
    obtain ⟨m₃, h₃, h⟩ := (bind_ok_iff _ _).mp h
    obtain ⟨m₄, h₄, h⟩ := (bind_ok_iff _ _).mp h
    obtain ⟨m₅, h₅, h⟩ := (bind_ok_iff _ _).mp h
    obtain ⟨m₆, h₆, h⟩ := (bind_ok_iff _ _).mp h
    obtain ⟨m₇, h₇, -⟩ := (bind_ok_iff _ _).mp h
    refine ⟨?_, hmanager.mp ⟨m₆, h₆⟩, hengine.mp ⟨m₇, h₇⟩⟩
    simp only [List.forall_mem_cons]
    exact ⟨(hmap _).mp ⟨m₁, h₁⟩, (hmap _).mp ⟨m₂, h₂⟩, (hmap _).mp ⟨m₃, h₃⟩, (hmap _).mp ⟨m₄, h₄⟩,
      (hmap _).mp ⟨m₅, h₅⟩, by simp⟩
  · rintro ⟨hmaps, hm, he⟩
    simp only [List.forall_mem_cons] at hmaps
    obtain ⟨h₁, h₂, h₃, h₄, h₅, -⟩ := hmaps
    obtain ⟨m₁, h₁⟩ := (hmap _).mpr h₁
    obtain ⟨m₂, h₂⟩ := (hmap _).mpr h₂
    obtain ⟨m₃, h₃⟩ := (hmap _).mpr h₃
    obtain ⟨m₄, h₄⟩ := (hmap _).mpr h₄
    obtain ⟨m₅, h₅⟩ := (hmap _).mpr h₅
    obtain ⟨m₆, h₆⟩ := hmanager.mpr hm
    obtain ⟨m₇, h₇⟩ := hengine.mpr he
    rw [h₁, h₂, h₃, h₄, h₅, h₆, h₇]
    exact ⟨_, rfl⟩

/-- A file is parsed exactly if it is readable. -/
theorem parsePackageJson_ok_iff (tooDeep : PyStr → Bool) (data : List Byte) :
    (∃ p, parsePackageJson tooDeep data = .ok p) ↔ Readable tooDeep data := by
  unfold parsePackageJson Readable
  rcases decodeStrict data with _ | text
  · simp
  · rcases hdeep : tooDeep (universalNewlines text) with _ | _
    · rcases hloads : Json.loads (universalNewlines text) with e | j
      · cases e <;> simp [hdeep, hloads]
      · cases j with
        | obj raw =>
          have hfields := readFields_ok_iff raw
          simp only [Option.some.injEq, exists_and_left, exists_eq_left', hdeep, hloads, Except.ok.injEq,
            Json.obj.injEq, true_and]
          rw [← hfields]
          rcases readFields raw with e | p
          · simp
          · simp
        | null | bool | int | float | str | arr => simp [hdeep, hloads]
    · simp [hdeep]

end BuildEngine.Detect
