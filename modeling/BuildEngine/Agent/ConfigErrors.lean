import BuildEngine.Agent.JobLoop
import BuildEngine.Detect.Planning

/-! # Which configuration errors are the user's

`execute_job` turns a `DetectionError` of `plan_build` into a `USER_CONFIG_INVALID` failure; whatever else
`plan_build` raises reaches `_worker` as a crash. -/

namespace BuildEngine.Agent.ConfigErrors

open BuildEngine.Base BuildEngine.Agent.JobLoop BuildEngine.Detect

/-- What `execute_job` makes of an exception of `plan_build`: of its classes, the handlers list `DetectionError`
only. `repr` is Python's; `message` gives the messages of its own exceptions. -/
def raised (repr : PyStr → PyStr) (message : Builtin → PyStr) (root : Project) : Exc → Raised
  | .detection e => .config (py "DetectionError") (e.text repr)
  | .packageManager e => .other (e.text repr)
  | .packageJson e => .other (e.text (root.path ++ py "/package.json"))
  | .builtin e => .other (message e)

/-- The project is built with Node: the override names such a profile, or, without an override or a configuration
of Hugo, a dependency or a script of `package.json` does, and no dependency names a deferred framework. -/
def NodeBuild (root : Project) (pkg : Option PackageJson) (override : Option PyStr) : Prop :=
  match given override with
  | some id => id ∈ supportedFrameworkIds ∧ id ≠ py "hugo"
  | none => (∀ config ∈ hugoConfigs, root.present config = false) ∧
    ∃ p, pkg = some p ∧ p.hasDependency deferredDependencies = false ∧ ∃ profile ∈ detectionOrder,
      p.hasDependency profile.dependencyMarkers = true ∨ profile.scriptMarkers.any (scriptContainsCommand p) = true

section
variable {S : Type} (tooDeep : PyStr → Bool) (pk : Packaging S)

/-- A configuration whose errors are reported as such. -/
structure Sound (root : Project) (opts : PlanOptions) : Prop where
  /-- `package.json` can be read. -/
  readable : ∀ data, root.packageJson = some data → Readable tooDeep data
  /-- The package manager is npm or pnpm. -/
  manager : ∀ pkg, loadPackageJson tooDeep root.packageJson = .ok pkg → Supported root pkg
  /-- The range of Node versions has no integer of too many digits. -/
  node : ∀ pkg, loadPackageJson tooDeep root.packageJson = .ok pkg → NodeBuild root pkg opts.frameworkOverride →
    NodeSound pk pkg opts.nodeVersion

end

/-! ### The errors of each step -/

/-- A `DetectionError`. -/
def IsDetection (e : Exc) : Prop := ∃ d, e = .detection d

theorem raises_detection {α : Type} (x : Except DetectionError α) : Raises IsDetection (x.mapError Exc.detection) :=
  (raises_mapError Exc.detection x).mpr fun d _ => ⟨d, rfl⟩

theorem raises_packageManager {α : Type} (x : Except PackageManagerDetectionError α) :
    Raises IsDetection (x.mapError Exc.packageManager) ↔ ∃ a, x = .ok a := by
  have hnot : ∀ e, IsDetection (.packageManager e) ↔ False := fun e => iff_of_false (fun ⟨d, hd⟩ => by cases hd) id
  simp only [raises_mapError, hnot, raises_false_iff]

/-- No error of `package.json` is a `DetectionError`. -/
theorem parse_error_ne {tooDeep : PyStr → Bool} {data : List Byte} {e : Exc}
    (h : parsePackageJson tooDeep data = .error e) (d : DetectionError) : e ≠ .detection d := by
  rintro rfl
  unfold parsePackageJson at h
  split at h
  · cases h
  · split_ifs at h
    · cases h
    · split at h
      · cases h
      · cases h
      · split at h
        · cases h
        · cases h
      · cases h

theorem raises_load (tooDeep : PyStr → Bool) (file : Option (List Byte)) :
    Raises IsDetection (loadPackageJson tooDeep file) ↔ ∀ data, file = some data → Readable tooDeep data := by
  rcases file with _ | data
  · simp [loadPackageJson, raises_ok]
  · have hparse := parsePackageJson_ok_iff tooDeep data
    simp only [Option.some.injEq, forall_eq', ← hparse, loadPackageJson]
    rcases hfile : parsePackageJson tooDeep data with e | p
    · have hne := parse_error_ne hfile
      constructor
      · intro h
        obtain ⟨d, hd⟩ := h e rfl
        exact absurd hd (hne d)
      · rintro ⟨p, hp⟩
        cases hp
    · simp [raises_ok]

/-- The choice of a Node version raises nothing but `DetectionError` exactly if the range is sound. -/
theorem raises_selectNodeVersion {S : Type} (pk : Packaging S) (pkg : Option PackageJson)
    (override : Option PyStr) : Raises IsDetection (selectNodeVersion pk pkg override) ↔ NodeSound pk pkg override := by
  unfold selectNodeVersion NodeSound
  rcases hrequested : (requestedNode pkg override).map strip with _ | requested
  · simp [raises_ok]
  · rcases requested with _ | ⟨c, requested⟩
    · simp [raises_ok]
    · have hmajors := satisfyingMajors_ne_none pk (c :: requested) supportedNodeMajors
      simp only [Option.some.injEq, forall_eq', ne_eq, reduceCtorEq, not_false_eq_true, forall_const]
      rw [← hmajors]
      rcases satisfyingMajors pk (c :: requested) supportedNodeMajors with _ | majors
      · simp [IsDetection]
      · rcases majors with _ | ⟨major, majors⟩
        · simp [IsDetection]
        · simp [raises_ok]

theorem raises_selectNode {S : Type} (pk : Packaging S) (profile : FrameworkProfile) (pkg : Option PackageJson)
    (override : Option PyStr) :
    Raises IsDetection (selectNode pk profile pkg override) ↔ (profile.nodeBased = true → NodeSound pk pkg override) := by
  unfold selectNode
  split_ifs with hnode
  · rw [raises_bind, raises_selectNodeVersion]
    simp only [hnode, forall_const]
    exact and_iff_left fun a _ => raises_ok (some a)
  · exact ⟨fun _ hyes => absurd hyes hnode, fun _ => raises_ok none⟩

/-! ### The profile of a project -/

/-- The detected profile is built with Node exactly if the project says so. -/
theorem detectFramework_node_iff (root : Project) (pkg : Option PackageJson) (override : Option PyStr) :
    (∃ detected, detectFramework root pkg override = .ok detected ∧ detected.profile.nodeBased = true) ↔
      NodeBuild root pkg override := by
  unfold detectFramework NodeBuild
  rcases given override with _ | id
  · dsimp only
    by_cases hconfig : hugoConfigs.any root.present = true
    · have hnot : ¬ ∀ config ∈ hugoConfigs, root.present config = false := fun hall => by
        obtain ⟨config, hmem, hpresent⟩ := List.any_eq_true.mp hconfig
        rw [hall config hmem] at hpresent
        cases hpresent
      rw [if_pos hconfig]
      refine ⟨fun ⟨detected, hdetected, hnode⟩ => ?_, fun h => absurd h.1 hnot⟩
      rw [← Except.ok.inj hdetected] at hnode
      cases hnode
    · have hall : ∀ config ∈ hugoConfigs, root.present config = false := by simpa using hconfig
      rw [if_neg hconfig]
      rcases pkg with _ | p
      · simp
      · have hof := frameworkOf_node_iff p
        simp only [Option.some.injEq, exists_eq_left']
        rw [hof]
        exact (and_iff_right hall).symm
  · dsimp only
    rcases hfind : frameworkProfiles.find? (fun profile => profile.id = id) with _ | profile
    · have hnot : id ∉ supportedFrameworkIds := fun hmem => by
        obtain ⟨profile, hprofile, hid⟩ := List.mem_map.mp hmem
        exact List.find?_eq_none.mp hfind profile hprofile (by simpa using hid)
      rw [hfind]
      exact ⟨fun ⟨_, herr, _⟩ => (by cases herr), fun h => absurd h.1 hnot⟩
    · have hmem := List.mem_of_find?_eq_some hfind
      have hid : profile.id = id := by simpa using List.find?_some hfind
      have hnode := nodeBased_iff hmem
      rw [hid] at hnode
      rw [hfind]
      constructor
      · rintro ⟨detected, hdetected, hyes⟩
        rw [← Except.ok.inj hdetected] at hyes
        exact ⟨List.mem_map.mpr ⟨profile, hmem, hid⟩, hnode.mp hyes⟩
      · rintro ⟨-, hne⟩
        exact ⟨_, rfl, hnode.mpr hne⟩

/-! ### The plan -/

section
variable {S : Type} (tooDeep : PyStr → Bool) (pk : Packaging S)

/-- `plan_build` raises nothing but `DetectionError` exactly if the configuration is sound. -/
theorem raises_planBuild (root : Project) (opts : PlanOptions) :
    Raises IsDetection (planBuild tooDeep pk root opts) ↔ Sound tooDeep pk root opts := by
  have hload := raises_load tooDeep root.packageJson
  unfold planBuild
  simp only [raises_bind, raises_packageManager, raises_detection, raises_selectNode, mapError_ok_iff,
    true_and, detectPackageManager_ok_iff]
  constructor
  · rintro ⟨hread, h⟩
    refine ⟨hload.mp hread, fun pkg hpkg => (h pkg hpkg).1, fun pkg hpkg hnode => ?_⟩
    obtain ⟨hmanager, hrest⟩ := h pkg hpkg
    obtain ⟨detected, hdetected⟩ := (detectPackageManager_ok_iff root pkg).mpr hmanager
    obtain ⟨framework, hframework, hbased⟩ := (detectFramework_node_iff root pkg opts.frameworkOverride).mpr hnode
    have hrequire := requireManager_ok framework.profile (manager_ne_none hdetected)
    exact (hrest detected hdetected framework hframework () hrequire).1 hbased
  · rintro ⟨hread, hmanager, hnode⟩
    refine ⟨hload.mpr hread, fun pkg hpkg => ⟨hmanager pkg hpkg, ?_⟩⟩
    intro detected _ framework hframework _ hrequire
    refine ⟨fun hbased => ?_, fun _ _ _ _ => ?_⟩
    · exact hnode pkg hpkg ((detectFramework_node_iff root pkg opts.frameworkOverride).mp ⟨framework, hframework, hbased⟩)
    · exact ⟨selectBuildCommand_ok hrequire pkg opts.buildCommand, fun _ _ => raises_ok _⟩

/-- `plan_build` returns a plan, or raises what is reported to the user as an invalid configuration; a crash of the
worker is not among it. -/
def Reported (repr : PyStr → PyStr) (message : Builtin → PyStr) (root : Project) (opts : PlanOptions) : Prop :=
  ∀ e, planBuild tooDeep pk root opts = .error e → ∃ name text,
    (raised repr message root e).failure = .build ⟨py "USER_CONFIG_INVALID", name, text⟩

theorem failure_build_iff (repr : PyStr → PyStr) (message : Builtin → PyStr) (root : Project) (e : Exc) :
    (∃ name text, (raised repr message root e).failure = .build ⟨py "USER_CONFIG_INVALID", name, text⟩) ↔
      ∃ d, e = .detection d := by
  cases e with
  | detection d => exact ⟨fun _ => ⟨d, rfl⟩, fun _ => ⟨_, _, rfl⟩⟩
  | packageJson | packageManager | builtin => simp [raised, Raised.failure]

/-- **Which configuration errors are reported as the user's.** They all are exactly if `package.json` can be read,
its package manager or lockfile is one of npm or pnpm, and its range of Node versions has no integer of too many
digits. -/
theorem config_errors_iff (repr : PyStr → PyStr) (message : Builtin → PyStr) (root : Project) (opts : PlanOptions) :
    Reported tooDeep pk repr message root opts ↔ Sound tooDeep pk root opts := by
  rw [← raises_planBuild]
  unfold Reported Raises IsDetection
  simp only [failure_build_iff]

end

/-- The project of a user of Yarn: a lockfile and no `package.json`. -/
def yarnProject : Project := ⟨py "/project", none, fun name => name = py "yarn.lock"⟩

/-- The lockfile of Yarn makes the worker crash. -/
theorem yarn_lock_crashes : ¬ Reported (fun _ => false) (S := Unit) ⟨fun _ => .ok (), fun _ _ => some true⟩
    (fun s => py "'" ++ s ++ py "'") (fun _ => []) yarnProject ⟨none, none, none, none, none⟩ := by
  intro h
  obtain ⟨name, text, hfailure⟩ := h (.packageManager (.unsupportedLockfile (py "yarn.lock"))) (by decide)
  simp [raised, Raised.failure] at hfailure

end BuildEngine.Agent.ConfigErrors
