import BuildEngine.Detect.Planning

/-! # Projects of a deferred framework

`detect_framework` refuses the dependencies it lists, which are not all the packages of the deferred frameworks:
Remix is deferred, but none of its packages is listed. -/

namespace BuildEngine.Detect

open BuildEngine.Base

/-- A package of Next, Nuxt, SvelteKit, Angular or Remix. -/
def IsDeferredPackage (name : PyStr) : Prop :=
  name ∈ deferredDependencies ∨ name = py "remix" ∨ py "@remix-run/" <+: name

/-- A dependency of the project is a package of a deferred framework. -/
def DeclaresDeferred (p : PackageJson) : Prop := ∃ name, p.dependsOn name = true ∧ IsDeferredPackage name

/-- A dependency or a script names a certified framework. -/
def MarksCertified (p : PackageJson) : Prop :=
  ∃ profile ∈ detectionOrder,
    p.hasDependency profile.dependencyMarkers = true ∨ profile.scriptMarkers.any (scriptContainsCommand p) = true

/-- Whatever `frameworkOf` finds is built with Node. -/
theorem frameworkOf_node {p : PackageJson} {detected : FrameworkDetection} (h : frameworkOf p = .ok detected) :
    detected.profile.nodeBased = true := by
  unfold frameworkOf at h
  split_ifs at h
  split at h
  · next profile hfind =>
    rw [← Except.ok.inj h]
    exact nodeBased_of_order (List.mem_of_find?_eq_some hfind)
  · split at h
    · next profile hfind =>
      rw [← Except.ok.inj h]
      exact nodeBased_of_order (List.mem_of_find?_eq_some hfind)
    · cases h

theorem frameworkOf_ok_iff (p : PackageJson) :
    (∃ detected, frameworkOf p = .ok detected) ↔ p.hasDependency deferredDependencies = false ∧ MarksCertified p := by
  unfold MarksCertified
  rw [← frameworkOf_node_iff p]
  constructor
  · rintro ⟨detected, h⟩
    exact ⟨detected, h, frameworkOf_node h⟩
  · rintro ⟨detected, h, -⟩
    exact ⟨detected, h⟩

/-- Without an override or a configuration of Hugo, the framework is the one `package.json` names. -/
theorem detectFramework_of_package {root : Project} {p : PackageJson} {override : Option PyStr}
    (hugo : ∀ config ∈ hugoConfigs, root.present config = false) (hoverride : given override = none) :
    detectFramework root (some p) override = frameworkOf p := by
  have hconfig : ¬ hugoConfigs.any root.present = true := by simpa using hugo
  unfold detectFramework
  rw [hoverride]
  exact if_neg hconfig

section
variable {S : Type} (tooDeep : PyStr → Bool) (pk : Packaging S)

/-- `plan_build` raises, whatever it raises. -/
def Refused (root : Project) (opts : PlanOptions) : Prop := ∀ plan, planBuild tooDeep pk root opts ≠ .ok plan

/-- **When a project of a deferred framework is refused.** It is exactly if a dependency is one of those listed, or
the package manager is not npm or pnpm, or nothing in `package.json` names a certified framework, or no supported
version of Node is selected. -/
theorem deferred_refused_iff {root : Project} {opts : PlanOptions} {p : PackageJson}
    (hugo : ∀ config ∈ hugoConfigs, root.present config = false) (hoverride : given opts.frameworkOverride = none)
    (hload : loadPackageJson tooDeep root.packageJson = .ok (some p)) (_ : DeclaresDeferred p) :
    Refused tooDeep pk root opts ↔ p.hasDependency deferredDependencies = true ∨ ¬ Supported root (some p) ∨
      ¬ MarksCertified p ∨ ¬ SelectsNode pk (some p) opts.nodeVersion := by
  have hof := frameworkOf_ok_iff p
  have hplan : (∃ plan, planBuild tooDeep pk root opts = .ok plan) ↔ Supported root (some p) ∧
      (p.hasDependency deferredDependencies = false ∧ MarksCertified p) ∧ SelectsNode pk (some p) opts.nodeVersion := by
    rw [planBuild_ok_iff, ← hof]
    constructor
    · rintro ⟨pkg, hpkg, hsupported, framework, hframework, hselects⟩
      obtain rfl : some p = pkg := Except.ok.inj (hload.symm.trans hpkg)
      rw [detectFramework_of_package hugo hoverride] at hframework
      exact ⟨hsupported, ⟨framework, hframework⟩, hselects (frameworkOf_node hframework)⟩
    · rintro ⟨hsupported, ⟨framework, hframework⟩, hselects⟩
      refine ⟨some p, hload, hsupported, framework, ?_, fun _ => hselects⟩
      rw [detectFramework_of_package hugo hoverride]
      exact hframework
  have hrefused : Refused tooDeep pk root opts ↔ ¬ ∃ plan, planBuild tooDeep pk root opts = .ok plan := by
    unfold Refused
    exact not_exists.symm
  rw [hrefused, hplan]
  rcases p.hasDependency deferredDependencies with _ | _
  · simp only [Bool.false_eq_true, true_and, false_or]
    tauto
  · simp

end

/-! ### A project of Remix -/

/-- A `package.json` of Remix, which is built with Vite. -/
def remixPackage : List (PyStr × Json) :=
  [(py "dependencies", .obj [(py "@remix-run/react", .str (py "2.9.0"))]),
    (py "devDependencies", .obj [(py "vite", .str (py "5.1.0"))])]

/-- The project with it. -/
def remixProject : Project :=
  ⟨py "/project", some (asciiBytes (Json.dumps (.obj remixPackage))), fun name => name = py "package-lock.json"⟩

/-- What is read of it. -/
def remixFields : PackageJson :=
  ⟨[], [(py "@remix-run/react", py "2.9.0")], [(py "vite", py "5.1.0")], [], [], none, none⟩

theorem load_remixProject : loadPackageJson (fun _ => false) remixProject.packageJson = .ok (some remixFields) :=
  load_dumps (by unfold Json.WF; decide) (by decide) (by decide)

theorem remix_declares : DeclaresDeferred remixFields :=
  ⟨py "@remix-run/react", by decide, Or.inr (Or.inr (by decide))⟩

/-- The project of Remix gets the plan of a Vite site. -/
theorem remix_falls_back : DeclaresDeferred remixFields ∧
    (∀ config ∈ hugoConfigs, remixProject.present config = false) ∧
    loadPackageJson (fun _ => false) remixProject.packageJson = .ok (some remixFields) ∧
    ∃ plan, planBuild (fun _ => false) anyVersion remixProject noOptions = .ok plan ∧
      plan.frameworkId = py "vite" := by
  refine ⟨remix_declares, by decide, load_remixProject, ?_⟩
  obtain ⟨plan, hplan⟩ : ∃ plan, planBuild (fun _ => false) anyVersion remixProject noOptions = .ok plan :=
    (planBuild_ok_iff _ _ _ _).mpr ⟨_, load_remixProject, (detectPackageManager_ok_iff _ _).mp ⟨_, rfl⟩,
      ⟨vite, py "dependency"⟩, by decide, fun _ requested h => by cases h⟩
  obtain ⟨pkg, -, framework, hpkg, -, hframework, hid, -, -⟩ := of_planBuild hplan
  obtain rfl : some remixFields = pkg := Except.ok.inj (load_remixProject.symm.trans hpkg)
  have hvite : detectFramework remixProject (some remixFields) noOptions.frameworkOverride =
      .ok ⟨vite, py "dependency"⟩ := by decide
  rw [hvite] at hframework
  refine ⟨plan, hplan, ?_⟩
  rw [hid, ← Except.ok.inj hframework]
  rfl

/-- The condition, for that project. -/
theorem deferred_refused_remix : Refused (fun _ => false) anyVersion remixProject noOptions ↔
    remixFields.hasDependency deferredDependencies = true ∨ ¬ Supported remixProject (some remixFields) ∨
      ¬ MarksCertified remixFields ∨ ¬ SelectsNode anyVersion (some remixFields) noOptions.nodeVersion :=
  deferred_refused_iff _ _ (by decide) rfl load_remixProject remix_declares

end BuildEngine.Detect
