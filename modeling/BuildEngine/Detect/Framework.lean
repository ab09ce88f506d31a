import BuildEngine.Detect.Lockfiles
import BuildEngine.Detect.NodeRange

/-! # Frameworks and build plans

`detect/framework.py` and `detect/compatibility.py`: the profiles, the detection of one of them, and the build plan
of a project. -/

namespace BuildEngine.Detect

open BuildEngine.Base

/-- `FrameworkProfile` -/
structure FrameworkProfile where
  id : PyStr
  defaultCommand : PyStr
  outputDir : Option PyStr
  dependencyMarkers : List PyStr
  scriptMarkers : List PyStr
  nodeBased : Bool
  deriving DecidableEq

/-- `FrameworkDetection` -/
structure FrameworkDetection where
  profile : FrameworkProfile
  source : PyStr
  deriving DecidableEq

/-- A profile of a framework that is built with Node. -/
def nodeProfile (id command outputDir : String) (dependencies scripts : List String) : FrameworkProfile :=
  ⟨py id, py command, some (py outputDir), dependencies.map py, scripts.map py, true⟩

/-- `astro` -/
def astro : FrameworkProfile := nodeProfile "astro" "astro build" "dist" ["astro"] ["astro build"]

/-- `vite` -/
def vite : FrameworkProfile := nodeProfile "vite" "vite build" "dist" ["vite"] ["vite build"]

/-- `eleventy` -/
def eleventy : FrameworkProfile :=
  nodeProfile "eleventy" "eleventy" "_site" ["@11ty/eleventy", "eleventy"] ["eleventy"]

/-- `docusaurus` -/
def docusaurus : FrameworkProfile :=
  nodeProfile "docusaurus" "docusaurus build" "build" ["@docusaurus/core"] ["docusaurus build"]

/-- `vitepress` -/
def vitepress : FrameworkProfile :=
  nodeProfile "vitepress" "vitepress build" ".vitepress/dist" ["vitepress"] ["vitepress build"]

/-- `vuepress` -/
def vuepress : FrameworkProfile :=
  nodeProfile "vuepress" "vuepress build" "dist" ["vuepress", "vuepress-vite"] ["vuepress build"]

/-- `gatsby` -/
def gatsby : FrameworkProfile := nodeProfile "gatsby" "gatsby build" "public" ["gatsby"] ["gatsby build"]

/-- `hugo` -/
def hugo : FrameworkProfile := ⟨py "hugo", py "hugo", some (py "public"), [], [], false⟩

/-- `FRAMEWORK_PROFILES` -/
def frameworkProfiles : List FrameworkProfile :=
  [astro, vite, eleventy, docusaurus, vitepress, vuepress, gatsby, hugo]

/-- `SUPPORTED_FRAMEWORK_IDS` -/
def supportedFrameworkIds : List PyStr := frameworkProfiles.map FrameworkProfile.id

/-- `DEFERRED_FRAMEWORK_IDS` -/
def deferredFrameworkIds : List PyStr :=
  [py "bun", py "yarn", py "zola", py "generic", py "angular", py "remix", py "next", py "nuxt", py "sveltekit"]

/-- `DETECTION_ORDER` -/
def detectionOrder : List FrameworkProfile := [astro, docusaurus, vitepress, vuepress, gatsby, eleventy, vite]

/-- The configuration files of Hugo. -/
def hugoConfigs : List PyStr := [py "hugo.toml", py "hugo.yaml", py "hugo.json"]

/-- The dependencies of the deferred frameworks. -/
def deferredDependencies : List PyStr := [py "next", py "nuxt", py "@sveltejs/kit", py "@angular/core"]

/-! ### Commands -/

/-- `_shell_tokens` -/
def shellTokens (value : PyStr) : List PyStr := (shlexSplit value).getD (splitSpace value)

/-- `_command_tokens_match`: the words of the command follow one another in the script. -/
def commandTokensMatch (script command : PyStr) : Bool :=
  let scriptTokens := shellTokens script
  let commandTokens := shellTokens command
  if commandTokens = [] || scriptTokens.length < commandTokens.length then false
  else (List.range (scriptTokens.length - commandTokens.length + 1)).any fun index =>
    (scriptTokens.drop index).take commandTokens.length = commandTokens

/-- `_script_contains_command` -/
def scriptContainsCommand (pkg : PackageJson) (command : PyStr) : Bool :=
  pkg.scripts.any fun kv => commandTokensMatch kv.2 command

/-- `marker.rsplit("/", maxsplit=1)[-1]` -/
def baseName (marker : PyStr) : PyStr := (splitOn (py "/") marker).getLastD []

/-- `_script_matches_profile` -/
def scriptMatchesProfile (profile : FrameworkProfile) (script : PyStr) : Bool :=
  let commands := profile.scriptMarkers ++ profile.defaultCommand :: profile.dependencyMarkers.map baseName
  (commands.filter (· ≠ [])).any (commandTokensMatch script)

/-- `_preferred_script` -/
def preferredScript (profile : FrameworkProfile) (pkg : PackageJson) : Option PyStr :=
  match [py "build", py "docs:build"].find? fun name => (pkg.script name).any (scriptMatchesProfile profile) with
  | some name => some name
  | none =>
    if (profile.id = py "vitepress" || profile.id = py "vuepress") && (pkg.script (py "docs:build")).isSome then
      some (py "docs:build")
    else none

/-- The text after a word and the white space that must follow it. -/
def afterWord (word s : PyStr) : Option PyStr :=
  if word.isPrefixOf s && ((s.drop word.length).head?.any isWhitespace) then
    some ((s.drop word.length).dropWhile isWhitespace)
  else none

/-- The regular expression of `_build_targets_docs`, at the start of a text. -/
def startsDocsBuild (s : PyStr) : Bool :=
  [py "vitepress", py "vuepress"].any fun tool =>
    (((afterWord tool s).bind (afterWord (py "build"))).any fun rest =>
      (py "docs").isPrefixOf rest && ((rest.drop 4).head?.all isWhitespace))

/-- `_build_targets_docs` -/
def buildTargetsDocs (buildCommand : PyStr) : Bool :=
  buildCommand.tails.any fun s => (py "docs:build").isPrefixOf s || startsDocsBuild s

/-- `_profile_output_dir` -/
def profileOutputDir (profile : FrameworkProfile) (buildCommand : PyStr) : Option PyStr :=
  if profile.id = py "vitepress" && buildTargetsDocs buildCommand then some (py "docs/.vitepress/dist")
  else if profile.id = py "vuepress" && buildTargetsDocs buildCommand then some (py "docs/.vuepress/dist")
  else profile.outputDir

example : buildTargetsDocs (py "npx vitepress  build docs ") = true := by decide

/-! ### Compatibility -/

/-- `Guidance` -/
structure Guidance where
  code : PyStr
  title : PyStr
  whatWeSaw : PyStr
  howToFix : PyStr
  docsUrl : PyStr
  deriving DecidableEq

/-- `CompatibilityResult` -/
structure CompatibilityResult where
  compatible : Bool
  guidance : List Guidance
  deriving DecidableEq

/-- `check_static_compatibility`; without `supported`, every framework is supported. -/
def checkStaticCompatibility (frameworkId : PyStr) (supported : Option (List PyStr)) : CompatibilityResult :=
  if supported.all fun ids => frameworkId ∈ ids then ⟨true, []⟩
  else ⟨false, [{
    code := py "FRAMEWORK_NOT_CERTIFIED"
    title := py "Framework is not certified for this build engine release"
    whatWeSaw := py "Detected framework profile: " ++ frameworkId
    howToFix := py "Choose one of the certified static-site profiles for this release."
    docsUrl := py "https://docs.mincemeat.id/static-sites/frameworks/" ++ frameworkId }]⟩

/-! ### Plans -/

/-- The keyword arguments of `plan_build`; `nodeVersion` is `str(node_version)`. -/
structure PlanOptions where
  frameworkOverride : Option PyStr
  buildCommand : Option PyStr
  outputDir : Option PyStr
  detectedOutputDir : Option PyStr
  nodeVersion : Option PyStr

/-- `BuildPlan` -/
structure BuildPlan where
  root : PyStr
  frameworkId : PyStr
  packageManager : PackageManager
  packageManagerSource : PyStr
  installCommand : PyStr
  buildCommand : PyStr
  outputDir : Option PyStr
  detectedOutputDir : Option PyStr
  image : PyStr
  nodeVersion : Option ℕ
  compatibility : CompatibilityResult
  deriving DecidableEq

/-- An argument of `or`: an empty text counts as none. -/
def given (value : Option PyStr) : Option PyStr := value.filter (· ≠ [])

/-- The framework the dependencies name, or else the scripts. -/
def frameworkOf (pkg : PackageJson) : Except DetectionError FrameworkDetection :=
  if pkg.hasDependency deferredDependencies then .error .deferredFramework
  else match detectionOrder.find? fun profile => pkg.hasDependency profile.dependencyMarkers with
    | some profile => .ok ⟨profile, py "dependency"⟩
    | none =>
      match detectionOrder.find? fun profile => profile.scriptMarkers.any (scriptContainsCommand pkg) with
      | some profile => .ok ⟨profile, py "script"⟩
      | none => .error .noFramework

/-- `detect_framework`; `pkg` is what `load_package_json` returns for the project. -/
def detectFramework (root : Project) (pkg : Option PackageJson) (override : Option PyStr) :
    Except DetectionError FrameworkDetection :=
  match given override with
  | some id =>
    match frameworkProfiles.find? fun profile => profile.id = id with
    | some profile => .ok ⟨profile, py "override"⟩
    | none => .error (if id ∈ deferredFrameworkIds then .deferredOverride id else .unknownOverride id)
  | none =>
    if hugoConfigs.any root.present then .ok ⟨hugo, py "config"⟩
    else match pkg with
      | some pkg => frameworkOf pkg
      | none => .error .noFramework

/-- The check of `plan_build` that a profile built with Node has a package manager. -/
def requireManager (profile : FrameworkProfile) (manager : PackageManager) : Except DetectionError Unit :=
  if profile.nodeBased && manager = .none then .error .managerNotCertified else .ok ()

/-- `_select_image` -/
def selectImage (profile : FrameworkProfile) (node : Option NodeSelection) : Except DetectionError PyStr :=
  if profile.nodeBased = false then .ok (py "hugo:latest")
  else match node with
    | none => .error .nodeMissing
    | some node => .ok node.image

/-- `_default_build_command` -/
def defaultBuildCommand (profile : FrameworkProfile) (manager : PackageManager) (pkg : Option PackageJson) :
    Except PackageManagerDetectionError PyStr :=
  if profile.nodeBased = false then .ok profile.defaultCommand
  else match pkg.bind (preferredScript profile) with
    | some name => runScriptCommand manager name
    | none => .ok profile.defaultCommand

section
variable {S : Type} (tooDeep : PyStr → Bool) (pk : Packaging S)

/-- The Node version of a plan, if the profile has one. -/
def selectNode (profile : FrameworkProfile) (pkg : Option PackageJson) (override : Option PyStr) :
    Except Exc (Option NodeSelection) :=
  if profile.nodeBased then do
    let node ← selectNodeVersion pk pkg override
    return some node
  else return none

/-- The command of a plan: the one that is given, or the default. -/
def selectBuildCommand (profile : FrameworkProfile) (manager : PackageManager) (pkg : Option PackageJson)
    (command : Option PyStr) : Except PackageManagerDetectionError PyStr :=
  match given command with
  | some command => .ok command
  | none => defaultBuildCommand profile manager pkg

/-- `plan_build` -/
def planBuild (root : Project) (opts : PlanOptions) : Except Exc BuildPlan := do
  let pkg ← loadPackageJson tooDeep root.packageJson
  let detected ← (detectPackageManager root pkg).mapError Exc.packageManager
  let framework ← (detectFramework root pkg opts.frameworkOverride).mapError Exc.detection
  let profile := framework.profile
  (requireManager profile detected.manager).mapError Exc.detection
  let manager := if profile.nodeBased then detected.manager else .none
  let node ← selectNode pk profile pkg opts.nodeVersion
  let image ← (selectImage profile node).mapError Exc.detection
  let command ← (selectBuildCommand profile detected.manager pkg opts.buildCommand).mapError Exc.packageManager
  return {
    root := root.path
    frameworkId := profile.id
    packageManager := manager
    packageManagerSource := if profile.nodeBased then detected.source else py "profile"
    installCommand := installCommand manager root
    buildCommand := command
    outputDir := ((given opts.outputDir).or (given opts.detectedOutputDir)).or (profileOutputDir profile command)
    detectedOutputDir := opts.detectedOutputDir
    image := image
    nodeVersion := node.map NodeSelection.major
    compatibility := checkStaticCompatibility profile.id (some supportedFrameworkIds) }

end

end BuildEngine.Detect
