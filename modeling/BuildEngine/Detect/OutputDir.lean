import BuildEngine.Detect.Planning

/-! # The output directory of VitePress and VuePress

`plan_build` looks for a build of the docs subdirectory in the command it runs. Where that command is the one it has
made to run a script of `package.json`, the text of the script is not in it: only the name of the script is. -/

namespace BuildEngine.Detect

open BuildEngine.Base

/-- The output directory of a build of the docs subdirectory. -/
def docsDir (id : PyStr) : PyStr :=
  if id = py "vitepress" then py "docs/.vitepress/dist" else py "docs/.vuepress/dist"

/-- VitePress and VuePress. -/
def BuildsDocs (profile : FrameworkProfile) : Prop := profile.id = py "vitepress" ∨ profile.id = py "vuepress"

/-- The directory is the one under docs exactly if the command builds the docs subdirectory. -/
theorem profileOutputDir_docs_iff {profile : FrameworkProfile} (h : profile ∈ frameworkProfiles)
    (hdocs : BuildsDocs profile) (command : PyStr) :
    profileOutputDir profile command = some (docsDir profile.id) ↔ buildTargetsDocs command = true := by
  have hall : ∀ p ∈ frameworkProfiles, p.outputDir ≠ some (docsDir p.id) := by decide
  have hne : py "vuepress" ≠ py "vitepress" := by decide
  have hother := hall profile h
  unfold profileOutputDir
  rcases hdocs with hid | hid
  · by_cases htargets : buildTargetsDocs command = true
    · simp [hid, htargets, docsDir]
    · simp only [hid, htargets] at hother ⊢
      simpa using hother
  · by_cases htargets : buildTargetsDocs command = true
    · simp [hid, htargets, docsDir, hne]
    · simp only [hid, htargets] at hother ⊢
      simpa using hother

theorem profileOutputDir_eq_iff {profile : FrameworkProfile} (h : profile ∈ frameworkProfiles)
    (hdocs : BuildsDocs profile) (command command' : PyStr) :
    profileOutputDir profile command = profileOutputDir profile command' ↔
      (buildTargetsDocs command = true ↔ buildTargetsDocs command' = true) := by
  have hfirst := profileOutputDir_docs_iff h hdocs command
  have hsecond := profileOutputDir_docs_iff h hdocs command'
  constructor
  · intro heq
    rw [← hfirst, ← hsecond, heq]
  · intro hiff
    have hsame : buildTargetsDocs command = buildTargetsDocs command' := Bool.eq_iff_iff.mpr hiff
    unfold profileOutputDir
    rw [hsame]

theorem preferredScript_name {profile : FrameworkProfile} {p : PackageJson} {name : PyStr}
    (h : preferredScript profile p = some name) : name = py "build" ∨ name = py "docs:build" := by
  unfold preferredScript at h
  split at h
  · next found hfind =>
    rw [← Option.some.inj h]
    simpa using List.mem_of_find?_eq_some hfind
  · split_ifs at h
    exact Or.inr (Option.some.inj h).symm

/-- Of a command that runs a script, only the name of the script counts. -/
theorem targetsDocs_runScript {manager : PackageManager} {name command : PyStr}
    (hname : name = py "build" ∨ name = py "docs:build") (h : runScriptCommand manager name = .ok command) :
    buildTargetsDocs command = true ↔ name = py "docs:build" := by
  have hnpm : buildTargetsDocs (py "npm run " ++ py "build") = false := by decide
  have hpnpm : buildTargetsDocs (py "pnpm run " ++ py "build") = false := by decide
  have hnpmDocs : buildTargetsDocs (py "npm run " ++ py "docs:build") = true := by decide
  have hpnpmDocs : buildTargetsDocs (py "pnpm run " ++ py "docs:build") = true := by decide
  have hne : py "build" ≠ py "docs:build" := by decide
  cases manager with
  | none => cases h
  | npm =>
    rw [← Except.ok.inj h]
    rcases hname with rfl | rfl
    · simp [hnpm, hne]
    · simp [hnpmDocs]
  | pnpm =>
    rw [← Except.ok.inj h]
    rcases hname with rfl | rfl
    · simp [hpnpm, hne]
    · simp [hpnpmDocs]

section
variable {S : Type} (tooDeep : PyStr → Bool) (pk : Packaging S)

/-- The plan of a VitePress or VuePress project runs the script `name`, whose command is `text`. -/
structure SelectsScript (root : Project) (opts : PlanOptions) (name text : PyStr) : Prop where
  planned : ∃ plan, planBuild tooDeep pk root opts = .ok plan
  noCommand : given opts.buildCommand = none
  script : ∃ p framework, loadPackageJson tooDeep root.packageJson = .ok (some p) ∧
    detectFramework root (some p) opts.frameworkOverride = .ok framework ∧ BuildsDocs framework.profile ∧
    preferredScript framework.profile p = some name ∧ p.script name = some text

/-- The plan that runs a script has the output directory of the plan that runs the text of the script: without one
that is given, the directory under docs exactly if the text builds the docs subdirectory. -/
def SameOutputDir (root : Project) (opts : PlanOptions) (text : PyStr) : Prop :=
  ∃ plan direct, planBuild tooDeep pk root opts = .ok plan ∧
    planBuild tooDeep pk root { opts with buildCommand := some text } = .ok direct ∧
    plan.outputDir = direct.outputDir ∧
    (given opts.outputDir = none → given opts.detectedOutputDir = none →
      (plan.outputDir = some (docsDir plan.frameworkId) ↔ buildTargetsDocs text = true))

theorem given_script {p : PackageJson} {name text : PyStr} (h : p.script name = some text) :
    given (some text) = some text := by
  obtain ⟨-, hne⟩ := Option.filter_eq_some_iff.mp h
  exact Option.filter_some_pos hne

/-- **The output directory and the way a build is invoked.** If no output directory is given, the plans agree exactly
if the selected script is named `docs:build` just when its text builds the docs subdirectory. -/
theorem output_dir_iff {root : Project} {opts : PlanOptions} {name text : PyStr}
    (h : SelectsScript tooDeep pk root opts name text) : SameOutputDir tooDeep pk root opts text ↔
      (given opts.outputDir).isSome ∨ (given opts.detectedOutputDir).isSome ∨
        (name = py "docs:build" ↔ buildTargetsDocs text = true) := by
  obtain ⟨⟨plan, hplan⟩, hcommand, p, framework, hload, hframework, hdocs, hname, htext⟩ := h
  have hmem := detectFramework_mem hframework
  have hgiven := given_script htext
  -- what the plan needs does not depend on the command
  obtain ⟨direct, hdirect⟩ : ∃ direct, planBuild tooDeep pk root { opts with buildCommand := some text } = .ok direct :=
    (planBuild_ok_iff tooDeep pk root _).mpr ((planBuild_ok_iff tooDeep pk root opts).mp ⟨plan, hplan⟩)
  obtain ⟨pkg, detected, framework₁, hpkg, -, hfound, hid, hbuild, hout⟩ := of_planBuild hplan
  obtain ⟨pkg', detected', framework₂, hpkg', -, hfound', -, hbuild', hout'⟩ := of_planBuild hdirect
  obtain rfl : some p = pkg := Except.ok.inj (hload.symm.trans hpkg)
  obtain rfl : some p = pkg' := Except.ok.inj (hload.symm.trans hpkg')
  obtain rfl : framework = framework₁ := Except.ok.inj (hframework.symm.trans hfound)
  obtain rfl : framework = framework₂ := Except.ok.inj (hframework.symm.trans hfound')
  -- the command of the one runs the script, the command of the other is its text
  have hrun : runScriptCommand detected.manager name = .ok plan.buildCommand := by
    have hnode : framework.profile.nodeBased ≠ false := by
      have hall : ∀ q ∈ frameworkProfiles, BuildsDocs q → q.nodeBased ≠ false := by
        unfold BuildsDocs
        decide
      exact hall framework.profile hmem hdocs
    simpa only [selectBuildCommand, hcommand, defaultBuildCommand, if_neg hnode, Option.bind_some, hname] using hbuild
  have hdirectCommand : direct.buildCommand = text := by
    simp only [selectBuildCommand, hgiven] at hbuild'
    exact (Except.ok.inj hbuild').symm
  have htargets := targetsDocs_runScript (preferredScript_name hname) hrun
  have hsame := profileOutputDir_eq_iff hmem hdocs plan.buildCommand text
  rw [htargets] at hsame
  rw [hdirectCommand] at hout'
  have hunder := profileOutputDir_docs_iff hmem hdocs plan.buildCommand
  rw [htargets] at hunder
  unfold SameOutputDir
  constructor
  · rintro ⟨plan₁, direct₁, hplan₁, hdirect₁, heq, -⟩
    obtain rfl : plan = plan₁ := Except.ok.inj (hplan.symm.trans hplan₁)
    obtain rfl : direct = direct₁ := Except.ok.inj (hdirect.symm.trans hdirect₁)
    rw [hout, hout'] at heq
    rcases hgivenOut : given opts.outputDir with _ | out
    · rcases hgivenDetected : given opts.detectedOutputDir with _ | out
      · simp only [hgivenOut, hgivenDetected, Option.none_or] at heq
        exact Or.inr (Or.inr (hsame.mp heq))
      · exact Or.inr (Or.inl rfl)
    · exact Or.inl rfl
  · intro hcond
    refine ⟨plan, direct, hplan, hdirect, ?_, fun hnone hnone' => ?_⟩
    · rw [hout, hout']
      rcases hgivenOut : given opts.outputDir with _ | out
      · rcases hgivenDetected : given opts.detectedOutputDir with _ | out
        · have hiff : name = py "docs:build" ↔ buildTargetsDocs text = true := by
            simpa [hgivenOut, hgivenDetected] using hcond
          simp only [Option.none_or]
          exact hsame.mpr hiff
        · rfl
      · rfl
    · have hiff : name = py "docs:build" ↔ buildTargetsDocs text = true := by
        simpa [hnone, hnone'] using hcond
      rw [hout, hid, hnone, hnone', Option.none_or, Option.none_or, hunder, hiff]

end

/-! ### A script that builds the docs subdirectory -/

/-- A `package.json` of a VitePress site in docs. -/
def docsPackage : List (PyStr × Json) :=
  [(py "scripts", .obj [(py "build", .str (py "vitepress build docs"))]),
    (py "devDependencies", .obj [(py "vitepress", .str (py "1.0.0"))])]

/-- The project with it. -/
def docsProject : Project :=
  ⟨py "/project", some (asciiBytes (Json.dumps (.obj docsPackage))), fun name => name = py "package-lock.json"⟩

/-- What is read of it. -/
def docsFields : PackageJson :=
  ⟨[(py "build", py "vitepress build docs")], [], [(py "vitepress", py "1.0.0")], [], [], none, none⟩

theorem load_docsProject : loadPackageJson (fun _ => false) docsProject.packageJson = .ok (some docsFields) :=
  load_dumps (by unfold Json.WF; decide) (by decide) (by decide)

theorem selects_docsProject :
    SelectsScript (fun _ => false) anyVersion docsProject noOptions (py "build") (py "vitepress build docs") where
  planned := (planBuild_ok_iff _ _ _ _).mpr ⟨_, load_docsProject,
    (detectPackageManager_ok_iff _ _).mp ⟨_, rfl⟩, ⟨vitepress, py "dependency"⟩, by decide, fun _ requested h => by cases h⟩
  noCommand := rfl
  script := ⟨docsFields, ⟨vitepress, py "dependency"⟩, load_docsProject, by decide, Or.inl rfl, by decide, by decide⟩

/-- The script builds the docs subdirectory; the plan that runs it looks for the output elsewhere. -/
theorem docs_script_mismatch :
    SelectsScript (fun _ => false) anyVersion docsProject noOptions (py "build") (py "vitepress build docs") ∧
      ¬ SameOutputDir (fun _ => false) anyVersion docsProject noOptions (py "vitepress build docs") := by
  refine ⟨selects_docsProject, ?_⟩
  rintro ⟨plan, direct, hplan, -, -, hdocs⟩
  have hout : (planBuild (fun _ => false) anyVersion docsProject noOptions).map BuildPlan.outputDir =
      .ok (some (py ".vitepress/dist")) := by
    unfold planBuild
    rw [load_docsProject]
    decide
  have hid : (planBuild (fun _ => false) anyVersion docsProject noOptions).map BuildPlan.frameworkId =
      .ok (py "vitepress") := by
    unfold planBuild
    rw [load_docsProject]
    decide
  rw [hplan] at hout hid
  rw [Except.ok.inj hout, Except.ok.inj hid] at hdocs
  exact absurd ((hdocs rfl rfl).mpr (by decide)) (by decide)

/-- The condition, for that project. -/
theorem output_dir_docsProject :
    SameOutputDir (fun _ => false) anyVersion docsProject noOptions (py "vitepress build docs") ↔
      (given noOptions.outputDir).isSome ∨ (given noOptions.detectedOutputDir).isSome ∨
        (py "build" = py "docs:build" ↔ buildTargetsDocs (py "vitepress build docs") = true) :=
  output_dir_iff _ _ selects_docsProject

end BuildEngine.Detect
