import BuildEngine.Detect.PackageJson

/-! # Package managers and lockfiles

`detect/lockfiles.py`. A project is its path, the content of its `package.json`, if there is one, and the names of
the other files that exist. -/

namespace BuildEngine.Detect

open BuildEngine.Base

/-- `PackageManager` -/
inductive PackageManager where
  | npm | pnpm | none
  deriving DecidableEq

/-- The text of a package manager. -/
def PackageManager.text : PackageManager → PyStr
  | .npm => py "npm"
  | .pnpm => py "pnpm"
  | .none => py "none"

/-- `LOCKFILE_PRIORITY` -/
def lockfilePriority : List (PyStr × PackageManager) :=
  [(py "pnpm-lock.yaml", .pnpm), (py "package-lock.json", .npm), (py "npm-shrinkwrap.json", .npm)]

/-- `UNSUPPORTED_LOCKFILES` -/
def unsupportedLockfiles : List PyStr := [py "bun.lockb", py "bun.lock", py "yarn.lock"]

/-- A project directory. -/
structure Project where
  path : PyStr
  packageJson : Option (List Byte)
  present : PyStr → Bool

/-- `PackageManagerDetection`: the lockfile is the name of the file. -/
structure PackageManagerDetection where
  manager : PackageManager
  source : PyStr
  version : Option PyStr
  lockfile : Option PyStr
  deriving DecidableEq

/-- `value.partition("@")`: what is before the first `@`, and what is after it, if there is one. -/
def partitionAt : PyStr → PyStr × Option PyStr
  | [] => ([], none)
  | c :: s => if c = ch '@' then ([], some s) else (c :: (partitionAt s).1, (partitionAt s).2)

/-- `parse_package_manager` -/
def parsePackageManager (value : PyStr) :
    Except PackageManagerDetectionError (PackageManager × Option PyStr) :=
  let (name, rest) := partitionAt value
  let version := rest.filter (· ≠ [])
  if name = [] then .error .unnamed
  else if name = py "npm" then .ok (.npm, version)
  else if name = py "pnpm" then .ok (.pnpm, version)
  else .error (.unsupported name)

/-- The package manager a `package.json` names. -/
def declaredManager (pkg : Option PackageJson) : Option PyStr :=
  (pkg.bind PackageJson.packageManager).filter (· ≠ [])

/-- `detect_package_manager`; `pkg` is what `load_package_json` returns for the project. -/
def detectPackageManager (root : Project) (pkg : Option PackageJson) :
    Except PackageManagerDetectionError PackageManagerDetection :=
  match declaredManager pkg with
  | some value =>
    match parsePackageManager value with
    | .error e => .error e
    | .ok (manager, version) => .ok ⟨manager, py "packageManager", version, none⟩
  | none =>
    match lockfilePriority.find? fun l => root.present l.1 with
    | some (filename, manager) => .ok ⟨manager, py "lockfile", none, some filename⟩
    | none =>
      match unsupportedLockfiles.find? root.present with
      | some filename => .error (.unsupportedLockfile filename)
      | none => .ok ⟨.npm, py "fallback", none, none⟩

/-- `install_command` -/
def installCommand (manager : PackageManager) (root : Project) : PyStr :=
  match manager with
  | .none => []
  | .npm =>
    if root.present (py "package-lock.json") || root.present (py "npm-shrinkwrap.json") then py "npm ci"
    else py "npm install"
  | .pnpm => py "pnpm install --frozen-lockfile"

/-- `run_script_command` -/
def runScriptCommand (manager : PackageManager) (name : PyStr) : Except PackageManagerDetectionError PyStr :=
  match manager with
  | .none => .error .noManager
  | .npm => .ok (py "npm run " ++ name)
  | .pnpm => .ok (py "pnpm run " ++ name)

/-! ### What a project must have -/

/-- The package manager is npm or pnpm: the one `package.json` names, or, if it names none, the one of a lockfile;
without either, there is no lockfile of another. -/
def Supported (root : Project) (pkg : Option PackageJson) : Prop :=
  match declaredManager pkg with
  | some value => (partitionAt value).1 = py "npm" ∨ (partitionAt value).1 = py "pnpm"
  | none => (∃ l ∈ lockfilePriority, root.present l.1 = true) ∨ ∀ f ∈ unsupportedLockfiles, root.present f = false

theorem parsePackageManager_ok_iff (value : PyStr) : (∃ m, parsePackageManager value = .ok m) ↔
    (partitionAt value).1 = py "npm" ∨ (partitionAt value).1 = py "pnpm" := by
  have hnpm : py "npm" ≠ [] := by decide
  have hpnpm : py "pnpm" ≠ [] := by decide
  dsimp only [parsePackageManager]
  split_ifs with hempty h₁ h₂
  · rw [hempty]
    simp [hnpm.symm, hpnpm.symm]
  · simp [h₁]
  · simp [h₂]
  · simp [h₁, h₂]

/-- The package manager is detected exactly if the project has a supported one. -/
theorem detectPackageManager_ok_iff (root : Project) (pkg : Option PackageJson) :
    (∃ d, detectPackageManager root pkg = .ok d) ↔ Supported root pkg := by
  unfold detectPackageManager Supported
  rcases declaredManager pkg with _ | value
  · dsimp only
    rcases hfind : lockfilePriority.find? (fun l => root.present l.1) with _ | ⟨filename, manager⟩
    · rw [hfind]
      have hnone : ¬ ∃ l ∈ lockfilePriority, root.present l.1 = true := by
        rintro ⟨l, hl, hpresent⟩
        exact List.find?_eq_none.mp hfind l hl hpresent
      rcases hother : unsupportedLockfiles.find? root.present with _ | f
      · dsimp only
        have hall : ∀ f ∈ unsupportedLockfiles, root.present f = false := fun f hf => by
          simpa using List.find?_eq_none.mp hother f hf
        exact ⟨fun _ => Or.inr hall, fun _ => ⟨_, rfl⟩⟩
      · have hthere := List.find?_some hother
        dsimp only
        refine ⟨fun ⟨d, hd⟩ => (by cases hd), ?_⟩
        rintro (hsome | hall)
        · exact absurd hsome hnone
        · rw [hall f (List.mem_of_find?_eq_some hother)] at hthere
          cases hthere
    · rw [hfind]
      have hthere := List.find?_some hfind
      exact ⟨fun _ => Or.inl ⟨_, List.mem_of_find?_eq_some hfind, hthere⟩, fun _ => ⟨_, rfl⟩⟩
  · have hparse := parsePackageManager_ok_iff value
    dsimp only
    rw [← hparse]
    rcases parsePackageManager value with e | ⟨manager, version⟩
    · simp
    · exact ⟨fun _ => ⟨_, rfl⟩, fun _ => ⟨_, rfl⟩⟩

/-- A detected package manager is npm or pnpm. -/
theorem manager_ne_none {root : Project} {pkg : Option PackageJson} {d : PackageManagerDetection}
    (h : detectPackageManager root pkg = .ok d) : d.manager ≠ .none := by
  unfold detectPackageManager at h
  split at h
  · next value _ =>
    split at h
    · cases h
    · next manager version hparse =>
      rw [← Except.ok.inj h]
      dsimp only [parsePackageManager] at hparse
      split_ifs at hparse
      · obtain ⟨rfl, -⟩ := Prod.mk.inj (Except.ok.inj hparse)
        exact PackageManager.noConfusion
      · obtain ⟨rfl, -⟩ := Prod.mk.inj (Except.ok.inj hparse)
        exact PackageManager.noConfusion
  · split at h
    · next filename manager hfind =>
      have hall : ∀ l ∈ lockfilePriority, l.2 ≠ PackageManager.none := by decide
      rw [← Except.ok.inj h]
      exact hall _ (List.mem_of_find?_eq_some hfind)
    · split at h
      · cases h
      · rw [← Except.ok.inj h]
        exact PackageManager.noConfusion

end BuildEngine.Detect
