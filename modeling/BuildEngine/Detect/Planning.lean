import BuildEngine.Base.JsonSize
import BuildEngine.Detect.Framework

/-! # What a plan needs

`plan_build` read step by step: when each step succeeds (`planBuild_ok_iff`), and what a plan says of the steps that
led to it (`of_planBuild`). -/

namespace BuildEngine.Detect

open BuildEngine.Base

/-! ### The profile of a project -/

/-- Only Hugo is built without Node. -/
theorem nodeBased_iff {profile : FrameworkProfile} (h : profile ∈ frameworkProfiles) :
    profile.nodeBased = true ↔ profile.id ≠ py "hugo" := by
  have hall : ∀ p ∈ frameworkProfiles, p.nodeBased = true ↔ p.id ≠ py "hugo" := by decide
  exact hall profile h

theorem nodeBased_of_order {profile : FrameworkProfile} (h : profile ∈ detectionOrder) : profile.nodeBased = true := by
  have hall : ∀ p ∈ detectionOrder, p.nodeBased = true := by decide
  exact hall profile h

/-- What the dependencies or the scripts name is a profile that is built with Node. -/
theorem frameworkOf_node_iff (p : PackageJson) :
    (∃ detected, frameworkOf p = .ok detected ∧ detected.profile.nodeBased = true) ↔
      p.hasDependency deferredDependencies = false ∧ ∃ profile ∈ detectionOrder,
        p.hasDependency profile.dependencyMarkers = true ∨ profile.scriptMarkers.any (scriptContainsCommand p) = true := by
  unfold frameworkOf
  split_ifs with hdeferred
  · simp [hdeferred]
  · rcases hdependency : detectionOrder.find? (fun q => p.hasDependency q.dependencyMarkers) with _ | profile
    · rcases hscript : detectionOrder.find? (fun q => q.scriptMarkers.any (scriptContainsCommand p)) with _ | profile
      · rw [hdependency, hscript]
        refine ⟨fun ⟨_, herr, _⟩ => (by cases herr), ?_⟩
        rintro ⟨-, profile, hmem, hdep | hscr⟩
        · exact absurd hdep (List.find?_eq_none.mp hdependency profile hmem)
        · exact absurd hscr (List.find?_eq_none.mp hscript profile hmem)
      · have hmem := List.mem_of_find?_eq_some hscript
        have hscr := List.find?_some hscript
        rw [hdependency, hscript]
        exact ⟨fun _ => ⟨by simpa using hdeferred, profile, hmem, Or.inr hscr⟩,
          fun _ => ⟨_, rfl, nodeBased_of_order hmem⟩⟩
    · have hmem := List.mem_of_find?_eq_some hdependency
      have hdep := List.find?_some hdependency
      rw [hdependency]
      exact ⟨fun _ => ⟨by simpa using hdeferred, profile, hmem, Or.inl hdep⟩,
        fun _ => ⟨_, rfl, nodeBased_of_order hmem⟩⟩

/-- A detected profile is one of the eight. -/
theorem detectFramework_mem {root : Project} {pkg : Option PackageJson} {override : Option PyStr}
    {detected : FrameworkDetection} (h : detectFramework root pkg override = .ok detected) :
    detected.profile ∈ frameworkProfiles := by
  have horder : ∀ p ∈ detectionOrder, p ∈ frameworkProfiles := by decide
  unfold detectFramework at h
  split at h
  · split at h
    · next profile hfind =>
      rw [← Except.ok.inj h]
      exact List.mem_of_find?_eq_some hfind
    · cases h
  · split_ifs at h
    · rw [← Except.ok.inj h]
      decide
    · split at h
      · unfold frameworkOf at h
        split_ifs at h
        split at h
        · next profile hfind =>
          rw [← Except.ok.inj h]
          exact horder profile (List.mem_of_find?_eq_some hfind)
        · split at h
          · next profile hfind =>
            rw [← Except.ok.inj h]
            exact horder profile (List.mem_of_find?_eq_some hfind)
          · cases h
      · cases h

/-! ### The file -/

/-- A file `json.dumps` has written is read back. -/
theorem load_dumps {raw : List (PyStr × Json)} {p : PackageJson} (hwf : (Json.obj raw).WF)
    (hline : ch '\r' ∉ Json.dumps (.obj raw)) (hfields : readFields raw = .ok p) :
    loadPackageJson (fun _ => false) (some (asciiBytes (Json.dumps (.obj raw)))) = .ok (some p) := by
  have hdecode := decodeStrict_asciiBytes (Json.ascii_dumps (.obj raw))
  have hlines : universalNewlines (Json.dumps (.obj raw)) = Json.dumps (.obj raw) := by
    unfold universalNewlines
    rw [replace_of_not_mem (c := ch '\r') (by decide) hline, replace_of_not_mem (c := ch '\r') (by decide) hline]
  have hloads := Json.loads_dumps hwf
  simp only [loadPackageJson, parsePackageJson, hdecode, hlines, hloads, hfields]
  rfl

/-! ### The package manager and the command -/

theorem requireManager_ok (profile : FrameworkProfile) {manager : PackageManager} (h : manager ≠ .none) :
    requireManager profile manager = .ok () := by
  simp [requireManager, h]

/-- With a package manager, or a profile that needs none, the build command is found. -/
theorem selectBuildCommand_ok {profile : FrameworkProfile} {manager : PackageManager}
    (h : requireManager profile manager = .ok ()) (pkg : Option PackageJson) (command : Option PyStr) :
    ∃ text, selectBuildCommand profile manager pkg command = .ok text := by
  unfold requireManager at h
  unfold selectBuildCommand defaultBuildCommand
  rcases given command with _ | text
  · by_cases hnode : profile.nodeBased = true
    · rcases pkg.bind (preferredScript profile) with _ | name
      · simp [hnode]
      · cases manager with
        | none => simp [hnode] at h
        | npm | pnpm => simp [hnode, runScriptCommand]
    · simp [hnode]
  · simp

/-! ### The version of Node -/

section
variable {S : Type} (tooDeep : PyStr → Bool) (pk : Packaging S)

/-- The range that is asked for, if one is, is read for every supported version, and one of them satisfies it. -/
def SelectsNode (pkg : Option PackageJson) (override : Option PyStr) : Prop :=
  ∀ requested, (requestedNode pkg override).map strip = some requested → requested ≠ [] →
    (∀ major ∈ supportedNodeMajors, nodeMajorSatisfies pk major requested ≠ none) ∧
      ∃ major ∈ supportedNodeMajors, nodeMajorSatisfies pk major requested = some true

/-- The versions that satisfy a range are found exactly if every version can be compared with it. -/
theorem satisfyingMajors_eq_some (requested : PyStr) : ∀ majors : List ℕ,
    (∀ major ∈ majors, nodeMajorSatisfies pk major requested ≠ none) →
      satisfyingMajors pk requested majors = some (majors.filter fun m => nodeMajorSatisfies pk m requested = some true)
  | [], _ => rfl
  | major :: majors, h => by
    obtain ⟨hmajor, hmajors⟩ := List.forall_mem_cons.mp h
    have hrest := satisfyingMajors_eq_some requested majors hmajors
    rw [satisfyingMajors, hrest]
    rcases hsat : nodeMajorSatisfies pk major requested with _ | satisfied
    · exact absurd hsat hmajor
    · cases satisfied with
      | true => simp [hsat]
      | false => simp [hsat]

/-- A version of Node is selected exactly if one satisfies the range. -/
theorem selectNodeVersion_ok_iff (pkg : Option PackageJson) (override : Option PyStr) :
    (∃ node, selectNodeVersion pk pkg override = .ok node) ↔ SelectsNode pk pkg override := by
  unfold selectNodeVersion SelectsNode
  rcases hrequested : (requestedNode pkg override).map strip with _ | requested
  · simp
  · rcases requested with _ | ⟨c, requested⟩
    · simp
    · have hnone := satisfyingMajors_ne_none pk (c :: requested) supportedNodeMajors
      simp only [← major_ne_none] at hnone
      simp only [Option.some.injEq, forall_eq', ne_eq, reduceCtorEq, not_false_eq_true, forall_const]
      by_cases hall : ∀ major ∈ supportedNodeMajors, nodeMajorSatisfies pk major (c :: requested) ≠ none
      · have hsome := satisfyingMajors_eq_some pk (c :: requested) supportedNodeMajors hall
        rw [hsome]
        rcases hmajors : supportedNodeMajors.filter fun m => nodeMajorSatisfies pk m (c :: requested) = some true with
          _ | ⟨major, majors⟩
        · have hno : ¬ ∃ major ∈ supportedNodeMajors, nodeMajorSatisfies pk major (c :: requested) = some true := by
            rintro ⟨major, hmem, hsat⟩
            exact List.filter_eq_nil_iff.mp hmajors major hmem (decide_eq_true hsat)
          exact ⟨fun ⟨_, herr⟩ => (by cases herr), fun h => absurd h.2 hno⟩
        · have hin : major ∈ supportedNodeMajors.filter fun m => nodeMajorSatisfies pk m (c :: requested) = some true := by
            rw [hmajors]
            exact List.mem_cons_self
          obtain ⟨hmem, hsat⟩ := List.mem_filter.mp hin
          exact ⟨fun _ => ⟨hall, major, hmem, of_decide_eq_true hsat⟩, fun _ => ⟨_, rfl⟩⟩
      · have hmajors : satisfyingMajors pk (c :: requested) supportedNodeMajors = none := by
          by_contra hne
          exact hall (hnone.mp hne)
        rw [hmajors]
        exact ⟨fun ⟨_, herr⟩ => (by cases herr), fun h => absurd h.1 hall⟩

theorem selectNode_ok_iff (profile : FrameworkProfile) (pkg : Option PackageJson) (override : Option PyStr) :
    (∃ node, selectNode pk profile pkg override = .ok node) ↔
      (profile.nodeBased = true → SelectsNode pk pkg override) := by
  unfold selectNode
  split_ifs with hnode
  · rw [bind_ok_iff, ← selectNodeVersion_ok_iff]
    simp [hnode, pure, Except.pure]
  · simp [hnode, pure, Except.pure]

/-- A selected version gives the image of a profile. -/
theorem selectImage_ok {profile : FrameworkProfile} {pkg : Option PackageJson} {override : Option PyStr}
    {node : Option NodeSelection} (h : selectNode pk profile pkg override = .ok node) :
    ∃ image, selectImage profile node = .ok image := by
  unfold selectNode at h
  unfold selectImage
  split_ifs at h with hnode
  · obtain ⟨selection, -, hselection⟩ := bind_ok h
    rw [← Except.ok.inj hselection]
    simp [hnode]
  · simp [hnode]

/-! ### The plan -/

/-- **What a plan needs.** -/
theorem planBuild_ok_iff (root : Project) (opts : PlanOptions) :
    (∃ plan, planBuild tooDeep pk root opts = .ok plan) ↔
      ∃ pkg, loadPackageJson tooDeep root.packageJson = .ok pkg ∧ Supported root pkg ∧
        ∃ framework, detectFramework root pkg opts.frameworkOverride = .ok framework ∧
          (framework.profile.nodeBased = true → SelectsNode pk pkg opts.nodeVersion) := by
  unfold planBuild
  simp only [bind_ok_iff, mapError_ok_iff]
  constructor
  · rintro ⟨pkg, hpkg, detected, hdetected, framework, hframework, -, -, node, hnode, -⟩
    exact ⟨pkg, hpkg, (detectPackageManager_ok_iff root pkg).mp ⟨detected, hdetected⟩, framework, hframework,
      (selectNode_ok_iff pk framework.profile pkg opts.nodeVersion).mp ⟨node, hnode⟩⟩
  · rintro ⟨pkg, hpkg, hsupported, framework, hframework, hselects⟩
    obtain ⟨detected, hdetected⟩ := (detectPackageManager_ok_iff root pkg).mpr hsupported
    obtain ⟨node, hnode⟩ := (selectNode_ok_iff pk framework.profile pkg opts.nodeVersion).mpr hselects
    obtain ⟨image, himage⟩ := selectImage_ok pk hnode
    have hrequire := requireManager_ok framework.profile (manager_ne_none hdetected)
    obtain ⟨command, hcommand⟩ := selectBuildCommand_ok hrequire pkg opts.buildCommand
    exact ⟨pkg, hpkg, detected, hdetected, framework, hframework, (), hrequire, node, hnode, image, himage, command,
      hcommand, _, rfl⟩

variable {tooDeep pk}

/-- **What a plan says of its steps.** -/
theorem of_planBuild {root : Project} {opts : PlanOptions} {plan : BuildPlan}
    (h : planBuild tooDeep pk root opts = .ok plan) :
    ∃ pkg detected framework, loadPackageJson tooDeep root.packageJson = .ok pkg ∧
      detectPackageManager root pkg = .ok detected ∧
      detectFramework root pkg opts.frameworkOverride = .ok framework ∧
      plan.frameworkId = framework.profile.id ∧
      selectBuildCommand framework.profile detected.manager pkg opts.buildCommand = .ok plan.buildCommand ∧
      plan.outputDir = ((given opts.outputDir).or (given opts.detectedOutputDir)).or
        (profileOutputDir framework.profile plan.buildCommand) := by
  obtain ⟨pkg, hpkg, h⟩ := bind_ok h
  obtain ⟨detected, hdetected, h⟩ := bind_ok h
  obtain ⟨framework, hframework, h⟩ := bind_ok h
  obtain ⟨-, -, h⟩ := bind_ok h
  obtain ⟨node, -, h⟩ := bind_ok h
  obtain ⟨image, -, h⟩ := bind_ok h
  obtain ⟨command, hcommand, h⟩ := bind_ok h
  have hplan := Except.ok.inj h
  rw [mapError_ok_iff] at hdetected hframework hcommand
  subst hplan
  exact ⟨pkg, detected, framework, hpkg, hdetected, hframework, rfl, hcommand, rfl⟩

end

/-! ### Instances -/

/-- The options of a plan when none is given. -/
def noOptions : PlanOptions := ⟨none, none, none, none, none⟩

/-- A library whose version sets hold everything. -/
def anyVersion : Packaging Unit := ⟨fun _ => .ok (), fun _ _ => some true⟩

end BuildEngine.Detect
