import BuildEngine.Base.OptionArgs
import BuildEngine.Executor.Ceilings
import BuildEngine.Executor.EnvFile

/-! # The arguments of docker run

`load_image_manifest`, `resolve_image_reference`, `_require_pinned_image` and `docker_run_args` of
`executor/docker_runner.py` with `network_args` of `executor/network.py`, and the container that Docker starts for the
arguments. Docker reads options first and the image after them, so an image is read as one exactly if it does not
begin with a hyphen; a volume is split at its colons and a variable at its first `=`. Nothing of the source checks
these three, and apart from them the container is the one the specification describes (`docker_run_container`). The
image of the container is one of the manifest under its digest (`resolved_image_pinned`). -/

namespace BuildEngine.Executor.DockerRun

open BuildEngine.Base BuildEngine.Base.Json BuildEngine.Base.OptionArgs
open BuildEngine.Executor.Ceilings
open BuildEngine.Executor.EnvFile (SecretEnv itemLe cut)

/-- What the functions raise. -/
inductive Error where
  | dockerError (message : PyStr)
  | networkPolicyError (message : PyStr)
  deriving DecidableEq

/-! ### The image manifest -/

/-- `re.fullmatch(r"sha256:[0-9a-f]{64}", s)` -/
def isDigest (s : PyStr) : Bool := (py "sha256:").isPrefixOf s && s.length = 71 && (s.drop 7).all isLowerHex

/-- `ImageManifestEntry`, as `_parse_image_manifest` builds it. -/
structure ImageManifestEntry where
  tag : PyStr
  digest : PyStr
  frameworks : List PyStr
  tag_ne : tag ≠ []
  digest_ok : isDigest digest = true
  deriving DecidableEq

/-- `ImageManifestEntry.reference` -/
def ImageManifestEntry.reference (entry : ImageManifestEntry) : PyStr := entry.tag ++ py "@" ++ entry.digest

/-- `isinstance(value, str) and value` -/
def nonEmptyStr? : Json → Option PyStr
  | .str s => if s = [] then none else some s
  | _ => none

/-- The error of an entry that lacks a field. -/
def missing (key : PyStr) (field : String) : Error :=
  .dockerError (py "Image manifest entry " ++ key ++ py " is missing " ++ py field)

/-- The body of the loop of `_parse_image_manifest`. -/
def parseEntry (key : PyStr) : Json → Except Error ImageManifestEntry
  | .obj entry =>
    match get? entry (py "tag") with
    | some (.str tag) =>
      if htag : tag = [] then .error (missing key "tag")
      else
        match get? entry (py "digest") with
        | some (.str digest) =>
          if hdigest : isDigest digest = true then
            match get? entry (py "frameworks") with
            | some (.arr items) =>
              match items.mapM nonEmptyStr? with
              | some frameworks => .ok ⟨tag, digest, frameworks, htag, hdigest⟩
              | none => .error (missing key "frameworks")
            | _ => .error (missing key "frameworks")
          else .error (missing key "digest")
        | _ => .error (missing key "digest")
    | _ => .error (missing key "tag")
  | _ => .error (.dockerError (py "Image manifest entries must be objects"))

/-- The check of a manifest of the package. -/
def checkProtocol (decoded : List (PyStr × Json)) : Except Error Unit := do
  if (get? decoded (py "version")).bind nonEmptyStr? = none then
    throw (.dockerError (py "Image manifest must contain a version"))
  match get? decoded (py "engine_compat") with
  | some (.obj compatibility) =>
    if ((get? compatibility (py "proto_min")).getD .null).eqInt 2 &&
        ((get? compatibility (py "proto_max")).getD .null).eqInt 2 then .ok ()
    else .error (.dockerError (py "Image manifest is not compatible with protocol v2"))
  | _ => .error (.dockerError (py "Image manifest is not compatible with protocol v2"))

/-- `version is not None and (not isinstance(version, str) or not version)` -/
def badVersion (version : Json) : Bool :=
  match version with
  | .null => false
  | version => nonEmptyStr? version = none

/-- The checks of the version, before the images are read. -/
def checkVersion (requireProtocolV2 : Bool) (decoded : List (PyStr × Json)) : Except Error Unit := do
  if requireProtocolV2 then checkProtocol decoded
  if badVersion ((get? decoded (py "version")).getD .null) then
    throw (.dockerError (py "Image manifest version must be a non-empty string"))

/-- A manifest: the items of the `dict` in order. -/
abbrev Manifest := List (PyStr × ImageManifestEntry)

/-- `_parse_image_manifest` -/
def parseImageManifest (requireProtocolV2 : Bool) : Json → Except Error Manifest
  | .obj decoded => do
    checkVersion requireProtocolV2 decoded
    match get? decoded (py "images") with
    | some (.obj (image :: images)) =>
      (image :: images).mapM fun kv => (parseEntry kv.1 kv.2).map fun entry => (kv.1, entry)
    | _ => .error (.dockerError (py "Image manifest must contain images"))
  | _ => .error (.dockerError (py "Image manifest must be a JSON object"))

/-- `load_bundled_image_manifest`, for the text of the resource; `none` where it cannot be read. -/
def loadBundledImageManifest (resource : Option PyStr) : Except Error Manifest :=
  match resource.map loads with
  | some (.ok decoded) => parseImageManifest true decoded
  | _ => .error (.dockerError (py "Bundled builder image manifest is unavailable"))

/-! ### Pinned images -/

/-- `re.fullmatch(r"[^\s@]+@sha256:[0-9a-f]{64}", image)` -/
def isPinned (image : PyStr) : Bool :=
  image.takeWhile (· ≠ ch '@') ≠ [] && (image.takeWhile (· ≠ ch '@')).all (!isWhitespace ·) &&
    (image.dropWhile (· ≠ ch '@')).head? = some (ch '@') && isDigest (image.dropWhile (· ≠ ch '@')).tail

/-- `_require_pinned_image` -/
def requirePinnedImage (image : PyStr) : Except Error Unit :=
  if isPinned image then .ok ()
  else .error (.dockerError (py "Docker images must use an immutable tag@sha256:digest reference"))

/-- The loop of `resolve_image_reference`: the first entry with the tag or the reference. -/
def findEntry (image : PyStr) (manifest : Manifest) : Option ImageManifestEntry :=
  (manifest.find? fun kv => image = kv.2.tag || image = kv.2.reference).map Prod.snd

/-- `resolve_image_reference` -/
def resolveImageReference (image : PyStr) : Option Manifest → Except Error PyStr
  | none => do
    requirePinnedImage image
    return image
  | some manifest =>
    match manifest.find? (·.1 = image), findEntry image manifest with
    | some kv, _ => .ok kv.2.reference
    | none, some entry => .ok entry.reference
    | none, none => .error (.dockerError (py "Image " ++ image ++ py " is not present in the builder manifest"))

/-! ### The arguments -/

/-- `network_args` -/
def networkArgs (mode : PyStr) : Except Error (List PyStr) :=
  if mode = py "bridge" then .ok [py "--network", py "bridge"]
  else .error (.networkPolicyError (py "Build containers must use the unrestricted bridge network"))

/-- `CacheMount` -/
structure CacheMount where
  hostPath : PyStr
  containerPath : PyStr

/-- The fields of a `DockerRunSpec` that `docker_run_args` reads. -/
structure DockerRunSpec where
  image : PyStr
  projectRoot : PyStr
  command : PyStr
  config : LocalLimits
  networkMode : PyStr
  sourceRoot : Option PyStr
  outputRoot : Option PyStr
  buildManifest : Option (List (PyStr × Json))
  environment : SecretEnv
  cacheMounts : List CacheMount
  containerLabel : PyStr
  hostUid : ℕ
  hostGid : ℕ
  limits : SpecLimits

/-- The paths `run_container` passes on. -/
structure RunFiles where
  envFile : Option PyStr
  buildManifest : Option PyStr
  cidfile : Option PyStr

/-- What the arguments take from the interpreter: the paths of the host, and the text of a `float`. -/
structure Host where
  resolve : PyStr → PyStr
  /-- `path.parent / "out"` -/
  siblingOut : PyStr → PyStr
  floatText : PyFloat → PyStr

section Arguments
variable (host : Host) (spec : DockerRunSpec) (files : RunFiles)

/-- The limits after `--memory`, `--memory-swap`, `--cpus` and `--pids-limit`. -/
def DockerRunSpec.applied : AppliedLimits := appliedLimits spec.limits spec.config

/-- The arguments for the project, in both layouts. -/
def projectVolumes : Except Error (List PyStr) :=
  if spec.buildManifest.isSome then
    match files.buildManifest with
    | none => .error (.dockerError (py "build_manifest_path is required when build_manifest is set"))
    | some path =>
      .ok [py "--volume", host.resolve path ++ py ":/build/manifest.json:ro",
        py "--volume", host.resolve (spec.sourceRoot.getD spec.projectRoot) ++ py ":/workspace/src:rw",
        py "--volume", host.resolve (spec.outputRoot.getD (host.siblingOut spec.projectRoot)) ++
          py ":/workspace/out:rw"]
  else .ok [py "--volume", host.resolve spec.projectRoot ++ py ":/workspace:rw"]

/-- `docker_run_args` -/
def dockerRunArgs (dockerBin : PyStr) : Except Error (List PyStr) := do
  requirePinnedImage spec.image
  let network ← networkArgs spec.networkMode
  let args := [dockerBin, py "run", py "--rm", py "--init", py "--label", spec.containerLabel,
    py "--memory", spec.applied.memory, py "--memory-swap", spec.applied.memory,
    py "--cpus", host.floatText spec.applied.cpus, py "--pids-limit", intText spec.applied.pids,
    py "--read-only", py "--user", natText spec.hostUid ++ py ":" ++ natText spec.hostGid,
    py "--cap-drop", py "ALL", py "--security-opt", py "no-new-privileges",
    py "--tmpfs", py "/tmp:rw,noexec,nosuid,size=512m"] ++ network ++
    [py "--workdir", if spec.buildManifest.isSome then py "/workspace/src" else py "/workspace"]
  let volumes ← projectVolumes host spec files
  let caches := spec.cacheMounts.flatMap fun mount =>
    [py "--volume", host.resolve mount.hostPath ++ py ":" ++ mount.containerPath ++ py ":rw"]
  let environment := spec.environment.sorted.flatMap fun kv => [py "--env", kv.1 ++ py "=" ++ kv.2]
  let envFile := match files.envFile with
    | none => []
    | some path => [py "--env-file", path]
  let cidfile := match files.cidfile with
    | none => []
    | some path => [py "--cidfile", path]
  return args ++ volumes ++ caches ++ environment ++ envFile ++ cidfile ++
    if spec.buildManifest.isSome then [spec.image] else [spec.image, py "sh", py "-c", spec.command]

end Arguments

/-! ### What Docker reads -/

/-- The options of `docker run` that are used. -/
inductive RunOption where
  | rm | init | readOnly
  | label | memory | memorySwap | cpus | pidsLimit | user | capDrop | securityOpt | tmpfs | network | workdir
  | volume | env | envFile | cidfile
  deriving DecidableEq

namespace RunOption

/-- The text of an option. -/
def text : RunOption → PyStr
  | rm => py "--rm"
  | init => py "--init"
  | readOnly => py "--read-only"
  | label => py "--label"
  | memory => py "--memory"
  | memorySwap => py "--memory-swap"
  | cpus => py "--cpus"
  | pidsLimit => py "--pids-limit"
  | user => py "--user"
  | capDrop => py "--cap-drop"
  | securityOpt => py "--security-opt"
  | tmpfs => py "--tmpfs"
  | network => py "--network"
  | workdir => py "--workdir"
  | volume => py "--volume"
  | env => py "--env"
  | envFile => py "--env-file"
  | cidfile => py "--cidfile"

/-- The first three are switches. -/
def takesValue : RunOption → Bool
  | rm => false
  | init => false
  | readOnly => false
  | _ => true

end RunOption

/-- The options of `docker run`: those that are used, and the others, which are not of interest. -/
structure DockerOptions (μ : Type) extends Options (RunOption ⊕ μ) where
  text_used : ∀ n, text (.inl n) = n.text
  takesValue_used : ∀ n, takesValue (.inl n) = n.takesValue

/-- A volume: the path on the host, the path in the container and the mode. -/
structure Volume where
  source : PyStr
  target : PyStr
  mode : PyStr
  deriving DecidableEq

/-- The text of a volume. -/
def Volume.text (v : Volume) : PyStr := v.source ++ py ":" ++ v.target ++ py ":" ++ v.mode

/-- The container that is started. -/
structure Container (μ : Type) where
  image : PyStr
  command : List PyStr
  removed : Bool
  init : Bool
  readOnly : Bool
  labels : List PyStr
  memory : Option PyStr
  memorySwap : Option PyStr
  cpus : Option PyStr
  pidsLimit : Option PyStr
  user : Option PyStr
  dropped : List PyStr
  securityOptions : List PyStr
  tmpfs : List PyStr
  network : Option PyStr
  workdir : Option PyStr
  volumes : List Volume
  environment : List (PyStr × Option PyStr)
  envFiles : List PyStr
  cidfile : Option PyStr
  others : List (Setting μ)

/-- The value of a volume: three parts between colons, none of them empty. -/
def readVolume (value : PyStr) : Option Volume :=
  match splitOn (py ":") value with
  | [source, target, mode] => if source = [] ∨ target = [] ∨ mode = [] then none else some ⟨source, target, mode⟩
  | _ => none

/-- The value of a variable: its name is not empty. -/
def readVariable (value : PyStr) : Option (PyStr × Option PyStr) :=
  if (cut value).1 = [] then none else some (cut value)

section Reading
variable {μ : Type}

/-- The values an option is given, in order. -/
def values (settings : List (Setting (RunOption ⊕ μ))) (n : RunOption) : List PyStr :=
  settings.filterMap fun s =>
    match s with
    | (.inl m, value) => if m = n then value else none
    | (.inr _, _) => none

/-- The switch is given. -/
def isGiven (settings : List (Setting (RunOption ⊕ μ))) (n : RunOption) : Bool :=
  settings.any fun s =>
    match s with
    | (.inl m, _) => m = n
    | (.inr _, _) => false

/-- The settings of the other options. -/
def otherSettings (settings : List (Setting (RunOption ⊕ μ))) : List (Setting μ) :=
  settings.filterMap fun s =>
    match s with
    | (.inl _, _) => none
    | (.inr m, value) => some (m, value)

/-- The container of some settings and operands: an option that is given again replaces its value or adds one. -/
def readContainer (settings : List (Setting (RunOption ⊕ μ))) : List PyStr → Option (Container μ)
  | [] => none
  | image :: command => do
    let volumes ← (values settings .volume).mapM readVolume
    let environment ← (values settings .env).mapM readVariable
    return {
      image := image
      command := command
      removed := isGiven settings .rm
      init := isGiven settings .init
      readOnly := isGiven settings .readOnly
      labels := values settings .label
      memory := (values settings .memory).getLast?
      memorySwap := (values settings .memorySwap).getLast?
      cpus := (values settings .cpus).getLast?
      pidsLimit := (values settings .pidsLimit).getLast?
      user := (values settings .user).getLast?
      dropped := values settings .capDrop
      securityOptions := values settings .securityOpt
      tmpfs := values settings .tmpfs
      network := (values settings .network).getLast?
      workdir := (values settings .workdir).getLast?
      volumes := volumes
      environment := environment
      envFiles := values settings .envFile
      cidfile := (values settings .cidfile).getLast?
      others := otherSettings settings }

/-- The container of a command line: the program, `run`, and the arguments. -/
def readDocker (docker : DockerOptions μ) : List PyStr → Option (Container μ)
  | _ :: command :: args =>
    if command = py "run" then (parse docker.toOptions args).bind fun r => readContainer r.1 r.2 else none
  | _ => none

end Reading

/-! ### The container of a specification -/

section Specification
variable (host : Host) (spec : DockerRunSpec) (files : RunFiles)

/-- The volumes of a specification. -/
def volumesOf : List Volume :=
  (if spec.buildManifest.isSome then
    [⟨host.resolve (files.buildManifest.getD []), py "/build/manifest.json", py "ro"⟩,
      ⟨host.resolve (spec.sourceRoot.getD spec.projectRoot), py "/workspace/src", py "rw"⟩,
      ⟨host.resolve (spec.outputRoot.getD (host.siblingOut spec.projectRoot)), py "/workspace/out", py "rw"⟩]
  else [⟨host.resolve spec.projectRoot, py "/workspace", py "rw"⟩]) ++
    spec.cacheMounts.map fun mount => ⟨host.resolve mount.hostPath, mount.containerPath, py "rw"⟩

/-- What a specification describes: a container that is removed at its end, runs as the user of the engine without
capabilities and new privileges on a root that is read only, keeps to the limits, and has the volumes, the variables
and nothing else. -/
def containerOf (μ : Type) : Container μ where
  image := spec.image
  command := if spec.buildManifest.isSome then [] else [py "sh", py "-c", spec.command]
  removed := true
  init := true
  readOnly := true
  labels := [spec.containerLabel]
  memory := some spec.applied.memory
  memorySwap := some spec.applied.memory
  cpus := some (host.floatText spec.applied.cpus)
  pidsLimit := some (intText spec.applied.pids)
  user := some (natText spec.hostUid ++ py ":" ++ natText spec.hostGid)
  dropped := [py "ALL"]
  securityOptions := [py "no-new-privileges"]
  tmpfs := [py "/tmp:rw,noexec,nosuid,size=512m"]
  network := some (py "bridge")
  workdir := some (if spec.buildManifest.isSome then py "/workspace/src" else py "/workspace")
  volumes := volumesOf host spec files
  environment := spec.environment.sorted.map fun kv => (kv.1, some kv.2)
  envFiles := files.envFile.toList
  cidfile := files.cidfile
  others := []

/-- What Docker reads as it was meant: the image begins with no hyphen, the paths of the volumes are not empty and have
no colon, and the names of the variables are not empty and have no `=`. -/
structure Readable : Prop where
  image : spec.image.head? ≠ some (ch '-')
  volumes : ∀ v ∈ volumesOf host spec files,
    (v.source ≠ [] ∧ ch ':' ∉ v.source) ∧ v.target ≠ [] ∧ ch ':' ∉ v.target
  environment : ∀ kv ∈ spec.environment.items, kv.1 ≠ [] ∧ ch '=' ∉ kv.1

/-- The settings every container has. -/
def fixedSettings (μ : Type) : List (Setting (RunOption ⊕ μ)) :=
  [(.inl .rm, none), (.inl .init, none), (.inl .label, some spec.containerLabel),
    (.inl .memory, some spec.applied.memory), (.inl .memorySwap, some spec.applied.memory),
    (.inl .cpus, some (host.floatText spec.applied.cpus)), (.inl .pidsLimit, some (intText spec.applied.pids)),
    (.inl .readOnly, none), (.inl .user, some (natText spec.hostUid ++ py ":" ++ natText spec.hostGid)),
    (.inl .capDrop, some (py "ALL")), (.inl .securityOpt, some (py "no-new-privileges")),
    (.inl .tmpfs, some (py "/tmp:rw,noexec,nosuid,size=512m")), (.inl .network, some (py "bridge")),
    (.inl .workdir, some (if spec.buildManifest.isSome then py "/workspace/src" else py "/workspace"))]

/-- The settings of the arguments. -/
def settingsOf (μ : Type) : List (Setting (RunOption ⊕ μ)) :=
  fixedSettings host spec μ ++ (volumesOf host spec files).map (fun v => (.inl .volume, some v.text)) ++
  spec.environment.sorted.map (fun kv => (.inl .env, some (kv.1 ++ py "=" ++ kv.2))) ++
  files.envFile.toList.map (fun path => (.inl .envFile, some path)) ++
  files.cidfile.toList.map (fun path => (.inl .cidfile, some path))

end Specification

/-! ### Pinned images have a digest -/

/-- The characters of a digest. -/
theorem notMem_of_isDigest {s : PyStr} (h : isDigest s = true) : ch '@' ∉ s := by
  simp only [isDigest, Bool.and_eq_true] at h
  obtain ⟨⟨hstart, -⟩, hhex⟩ := h
  obtain ⟨t, rfl⟩ := List.isPrefixOf_iff_prefix.mp hstart
  intro hmem
  rcases List.mem_append.mp hmem with hmem | hmem
  · exact absurd hmem (by decide)
  · have hdrop : (py "sha256:" ++ t).drop 7 = t := List.drop_left' rfl
    rw [hdrop] at hhex
    exact absurd (List.all_eq_true.mp hhex _ hmem) (by decide)

/-- The first `@` of a text. -/
theorem split_at {name : PyStr} (h : ch '@' ∉ name) (digest : PyStr) :
    (name ++ py "@" ++ digest).takeWhile (· ≠ ch '@') = name ∧
      (name ++ py "@" ++ digest).dropWhile (· ≠ ch '@') = ch '@' :: digest := by
  have hall : ∀ c ∈ name, decide (c ≠ ch '@') = true := fun c hc => decide_eq_true fun (heq : c = ch '@') => h (heq ▸ hc)
  rw [List.append_assoc, List.takeWhile_append_of_pos hall, List.dropWhile_append_of_pos hall]
  simp [py]

/-- A tag can be pinned: it has no white space and no `@`. -/
def Plain (tag : PyStr) : Prop := ∀ c ∈ tag, isWhitespace c = false ∧ c ≠ ch '@'

/-- An image is pinned if it is a name without white space, an `@` and a digest. -/
theorem isPinned_iff (image : PyStr) :
    isPinned image = true ↔
      ∃ name digest, image = name ++ py "@" ++ digest ∧ name ≠ [] ∧ Plain name ∧ isDigest digest = true := by
  constructor
  · intro h
    simp only [isPinned, Bool.and_eq_true, decide_eq_true_eq, List.all_eq_true, Bool.not_eq_true'] at h
    obtain ⟨⟨⟨hname, hspace⟩, hat⟩, hdigest⟩ := h
    have hplain : ∀ c ∈ image.takeWhile (· ≠ ch '@'), decide (c ≠ ch '@') = true := fun c hc =>
      List.mem_takeWhile_imp (p := (· ≠ ch '@')) hc
    refine ⟨_, _, ?_, hname, fun c hc => ⟨hspace c hc, of_decide_eq_true (hplain c hc)⟩, hdigest⟩
    · have hcons := List.cons_head?_tail hat
      have htext : image.takeWhile (· ≠ ch '@') ++ (ch '@' :: (image.dropWhile (· ≠ ch '@')).tail) = image := by
        rw [hcons, List.takeWhile_append_dropWhile]
      rw [List.append_assoc]
      exact htext.symm
  · rintro ⟨name, digest, rfl, hname, hplain, hdigest⟩
    obtain ⟨htake, hdrop⟩ := split_at (fun hmem => (hplain _ hmem).2 rfl) digest
    have hspace : name.all (!isWhitespace ·) = true :=
      List.all_eq_true.mpr fun c hc => by rw [(hplain c hc).1]; rfl
    rw [isPinned, htake, hdrop, hspace]
    simp [hname, hdigest]

/-- The reference of an entry is pinned exactly if its tag can be. -/
theorem isPinned_reference_iff (entry : ImageManifestEntry) :
    isPinned entry.reference = true ↔ Plain entry.tag := by
  rw [isPinned_iff]
  constructor
  · rintro ⟨name, digest, htext, hname, hplain, hdigest⟩
    have hcount := congrArg (List.count (ch '@')) htext
    have hentry := List.count_eq_zero.mpr (notMem_of_isDigest entry.digest_ok)
    have hdigest0 := List.count_eq_zero.mpr (notMem_of_isDigest hdigest)
    have hname0 : name.count (ch '@') = 0 := List.count_eq_zero.mpr fun hmem => (hplain _ hmem).2 rfl
    rw [ImageManifestEntry.reference] at hcount
    simp only [List.count_append] at hcount
    have htag : entry.tag.count (ch '@') = 0 := by omega
    have heq := congrArg (List.takeWhile (· ≠ ch '@')) htext
    rw [ImageManifestEntry.reference, (split_at (List.count_eq_zero.mp htag) _).1,
      (split_at (List.count_eq_zero.mp hname0) _).1] at heq
    exact heq ▸ hplain
  · intro hplain
    exact ⟨entry.tag, entry.digest, rfl, entry.tag_ne, hplain, entry.digest_ok⟩

/-- A pinned image is an operand exactly if it begins with no hyphen. -/
theorem isOperand_of_isPinned {image : PyStr} (h : isPinned image = true) :
    IsOperand image ↔ image.head? ≠ some (ch '-') := by
  constructor
  · rintro (hne | hshort)
    · exact hne
    · obtain ⟨name, digest, rfl, hname, -⟩ := (isPinned_iff image).mp h
      have hlen := List.length_pos_iff.mpr hname
      simp [py] at hshort
      omega
  · exact Or.inl

/-! ### The arguments are the settings -/

section Rendering
variable {μ : Type} (docker : DockerOptions μ) {host : Host} {spec : DockerRunSpec} {files : RunFiles}

theorem render_used (n : RunOption) (value : Option PyStr) :
    OptionArgs.render docker.toOptions (.inl n, value) = n.text :: value.toList := by
  rw [OptionArgs.render, docker.text_used]

/-- The arguments of an option that is given once for each of some values. -/
theorem render_each {α : Type} (n : RunOption) (xs : List α) (value : α → PyStr) :
    (xs.map fun x => ((.inl n, some (value x)) : Setting (RunOption ⊕ μ))).flatMap (OptionArgs.render docker.toOptions) =
      xs.flatMap fun x => [n.text, value x] := by
  rw [List.flatMap_map]
  exact List.flatMap_congr fun x _ => render_used docker n (some (value x))

theorem render_fixed :
    (fixedSettings host spec μ).flatMap (OptionArgs.render docker.toOptions) =
      [py "--rm", py "--init", py "--label", spec.containerLabel,
        py "--memory", spec.applied.memory, py "--memory-swap", spec.applied.memory,
        py "--cpus", host.floatText spec.applied.cpus, py "--pids-limit", intText spec.applied.pids,
        py "--read-only", py "--user", natText spec.hostUid ++ py ":" ++ natText spec.hostGid,
        py "--cap-drop", py "ALL", py "--security-opt", py "no-new-privileges",
        py "--tmpfs", py "/tmp:rw,noexec,nosuid,size=512m", py "--network", py "bridge",
        py "--workdir", if spec.buildManifest.isSome then py "/workspace/src" else py "/workspace"] := by
  simp only [fixedSettings, List.flatMap_cons, List.flatMap_nil, render_used, RunOption.text, Option.toList_some,
    Option.toList_none, List.cons_append, List.nil_append]

/-- The arguments of the volumes, of the project and then of the caches. -/
theorem projectVolumes_ok {volumes : List PyStr} (h : projectVolumes host spec files = .ok volumes) :
    volumes ++ (spec.cacheMounts.flatMap fun mount =>
        [py "--volume", host.resolve mount.hostPath ++ py ":" ++ mount.containerPath ++ py ":rw"]) =
      (volumesOf host spec files).flatMap fun v => [py "--volume", v.text] := by
  have hcaches : (spec.cacheMounts.flatMap fun mount =>
        [py "--volume", host.resolve mount.hostPath ++ py ":" ++ mount.containerPath ++ py ":rw"]) =
      (spec.cacheMounts.map fun mount =>
        (⟨host.resolve mount.hostPath, mount.containerPath, py "rw"⟩ : Volume)).flatMap
          fun v => [py "--volume", v.text] := by
    rw [List.flatMap_map]
    exact List.flatMap_congr fun mount _ => by simp [Volume.text, py]
  rw [hcaches, volumesOf, List.flatMap_append]
  congr 1
  rw [projectVolumes] at h
  by_cases hmanifest : spec.buildManifest.isSome = true
  · rw [if_pos hmanifest] at h ⊢
    rcases hpath : files.buildManifest with _ | path
    · rw [hpath] at h
      cases h
    · rw [hpath] at h
      obtain rfl := Except.ok.inj h
      simp [Volume.text, py]
  · rw [if_neg hmanifest] at h ⊢
    obtain rfl := Except.ok.inj h
    simp [Volume.text, py]

/-- The arguments are the settings, the image and the command. -/
theorem dockerRunArgs_ok {dockerBin : PyStr} {args : List PyStr}
    (h : dockerRunArgs host spec files dockerBin = .ok args) :
    isPinned spec.image = true ∧
      args = dockerBin :: py "run" :: ((settingsOf host spec files μ).flatMap (OptionArgs.render docker.toOptions) ++
        (containerOf host spec files μ).image :: (containerOf host spec files μ).command) := by
  obtain ⟨_, hpinned, h⟩ := bind_ok h
  obtain ⟨network, hnetwork, h⟩ := bind_ok h
  obtain ⟨volumes, hvolumes, h⟩ := bind_ok h
  have himage : isPinned spec.image = true := by
    by_contra hno
    rw [requirePinnedImage, if_neg hno] at hpinned
    cases hpinned
  have hbridge : network = [py "--network", py "bridge"] := by
    rw [networkArgs] at hnetwork
    split_ifs at hnetwork
    exact (Except.ok.inj hnetwork).symm
  refine ⟨himage, ?_⟩
  rw [← Except.ok.inj h, hbridge, List.append_assoc _ volumes, projectVolumes_ok hvolumes, settingsOf]
  simp only [List.flatMap_append, render_fixed, render_each docker .volume, render_each docker .env,
    render_each docker .envFile, render_each docker .cidfile, containerOf]
  rcases files.envFile with _ | envFile <;> rcases files.cidfile with _ | cidfile <;>
    by_cases hmanifest : spec.buildManifest.isSome = true <;>
    simp [hmanifest, RunOption.text]

/-- The arguments are returned for a pinned image on the bridge network, with a manifest where one is needed. -/
theorem dockerRunArgs_total {dockerBin : PyStr} (himage : isPinned spec.image = true)
    (hnetwork : spec.networkMode = py "bridge")
    (hmanifest : spec.buildManifest.isSome → files.buildManifest.isSome) :
    ∃ args, dockerRunArgs host spec files dockerBin = .ok args := by
  have hvolumes : ∃ volumes, projectVolumes host spec files = .ok volumes := by
    rw [projectVolumes]
    by_cases h : spec.buildManifest.isSome = true
    · obtain ⟨path, hpath⟩ := Option.isSome_iff_exists.mp (hmanifest h)
      rw [if_pos h, hpath]
      exact ⟨_, rfl⟩
    · rw [if_neg h]
      exact ⟨_, rfl⟩
  obtain ⟨volumes, hvolumes⟩ := hvolumes
  rw [dockerRunArgs, requirePinnedImage, if_pos himage, networkArgs, if_pos hnetwork, hvolumes]
  exact ⟨_, rfl⟩

end Rendering

/-! ### What a manifest lists -/

/-- The member of a manifest describes an entry. -/
def Describes (raw : Json) (entry : ImageManifestEntry) : Prop :=
  ∃ members, raw = .obj members ∧ get? members (py "tag") = some (.str entry.tag) ∧
    get? members (py "digest") = some (.str entry.digest) ∧
    get? members (py "frameworks") = some (.arr (entry.frameworks.map .str))

/-- The images of a manifest. -/
def imagesOf : Json → List (PyStr × Json)
  | .obj decoded =>
    match get? decoded (py "images") with
    | some (.obj images) => images
    | _ => []
  | _ => []

theorem nonEmptyStr?_eq_some {value : Json} {s : PyStr} (h : nonEmptyStr? value = some s) : value = .str s := by
  rcases value with _ | _ | _ | _ | t | _ | _ <;> simp only [nonEmptyStr?] at h
  case str =>
    split_ifs at h
    exact congrArg Json.str (Option.some.inj h)
  all_goals cases h

theorem mapM_nonEmptyStr? : ∀ {items : List Json} {texts : List PyStr}, items.mapM nonEmptyStr? = some texts →
    items = texts.map .str
  | [], texts, h => by
    obtain rfl : [] = texts := Option.some.inj h
    rfl
  | item :: items, texts, h => by
    rw [List.mapM_cons] at h
    obtain ⟨text, htext, h⟩ := Option.bind_eq_some_iff.mp h
    obtain ⟨rest, hrest, h⟩ := Option.bind_eq_some_iff.mp h
    obtain rfl := Option.some.inj h
    rw [nonEmptyStr?_eq_some htext, mapM_nonEmptyStr? hrest, List.map_cons]

/-- An entry is what the member describes. -/
theorem parseEntry_ok {key : PyStr} {raw : Json} {entry : ImageManifestEntry} (h : parseEntry key raw = .ok entry) :
    Describes raw entry := by
  unfold parseEntry at h
  split at h
  · rename_i members
    split at h
    · rename_i tag htag
      split_ifs at h with hne
      split at h
      · rename_i digest hdigest
        split_ifs at h with hpinned
        split at h
        · rename_i items hitems
          split at h
          · rename_i frameworks hframeworks
            obtain rfl := Except.ok.inj h
            exact ⟨members, rfl, htag, hdigest, mapM_nonEmptyStr? hframeworks ▸ hitems⟩
          · cases h
        · cases h
      · cases h
    · cases h
  · cases h

theorem mapM_ok {ε α β : Type} {f : α → Except ε β} : ∀ {xs : List α} {ys : List β}, xs.mapM f = .ok ys →
    List.Forall₂ (fun x y => f x = .ok y) xs ys
  | [], ys, h => by
    obtain rfl : [] = ys := Except.ok.inj h
    exact .nil
  | x :: xs, ys, h => by
    rw [List.mapM_cons] at h
    obtain ⟨y, hy, h⟩ := bind_ok h
    obtain ⟨rest, hrest, h⟩ := bind_ok h
    obtain rfl := Except.ok.inj h
    exact .cons hy (mapM_ok hrest)

theorem exists_of_forall₂ {α β : Type} {r : α → β → Prop} {xs : List α} {ys : List β} (h : List.Forall₂ r xs ys) :
    ∀ y ∈ ys, ∃ x ∈ xs, r x y := by
  induction h with
  | nil => simp
  | cons hxy _ ih =>
    intro y hy
    rcases List.mem_cons.mp hy with rfl | hy
    · exact ⟨_, List.mem_cons_self, hxy⟩
    · exact (ih y hy).imp fun x hx => ⟨List.mem_cons_of_mem _ hx.1, hx.2⟩

/-- The entries of a manifest are those its images describe, in order and under their keys. -/
theorem parseImageManifest_ok {v2 : Bool} {decoded : Json} {manifest : Manifest}
    (h : parseImageManifest v2 decoded = .ok manifest) :
    List.Forall₂ (fun image kv => image.1 = kv.1 ∧ Describes image.2 kv.2) (imagesOf decoded) manifest := by
  unfold parseImageManifest at h
  split at h
  · rename_i members
    obtain ⟨_, -, h⟩ := bind_ok h
    split at h
    · rename_i image images himages
      have himagesOf : imagesOf (.obj members) = image :: images := by rw [imagesOf, himages]
      rw [himagesOf]
      refine (mapM_ok h).imp fun raw kv hkv => ?_
      rcases hentry : parseEntry raw.1 raw.2 with e | entry
      · rw [hentry] at hkv
        cases hkv
      · rw [hentry] at hkv
        obtain rfl := Except.ok.inj hkv
        exact ⟨rfl, parseEntry_ok hentry⟩
    · cases h
  · cases h

/-! ### Reading the values -/

/-- A part of a text that was split has no separator. -/
theorem notMem_of_mem_splitOnFrom (c : CodePoint) : ∀ (s part : PyStr), c ∉ part →
    ∀ p ∈ splitOnFrom [c] 0 part s, c ∉ p
  | [], part, hpart, p, hp => by
    rw [splitOnFrom, List.mem_singleton] at hp
    exact hp ▸ hpart
  | d :: s, part, hpart, p, hp => by
    rw [splitOnFrom] at hp
    split_ifs at hp with hsep
    · rcases List.mem_cons.mp hp with rfl | hp
      · exact hpart
      · exact notMem_of_mem_splitOnFrom c s [] List.not_mem_nil p hp
    · have hne : c ≠ d := by
        rintro rfl
        simp at hsep
      exact notMem_of_mem_splitOnFrom c s (part ++ [d]) (by simp [hpart, hne]) p hp

/-- A volume is read back exactly if its parts are not empty and have no colon. -/
theorem readVolume_text_iff (v : Volume) (hmode : v.mode ≠ [] ∧ ch ':' ∉ v.mode) :
    readVolume v.text = some v ↔ (v.source ≠ [] ∧ ch ':' ∉ v.source) ∧ v.target ≠ [] ∧ ch ':' ∉ v.target := by
  have htext : v.text = join [ch ':'] [v.source, v.target, v.mode] := by
    simp [Volume.text, join, py, List.intercalate]
  constructor
  · intro h
    have hplain : ∀ p ∈ splitOn (py ":") v.text, ch ':' ∉ p :=
      notMem_of_mem_splitOnFrom (ch ':') v.text [] List.not_mem_nil
    rw [readVolume] at h
    split at h
    · rename_i source target mode hparts
      split_ifs at h with hempty
      rw [← Option.some.inj h]
      rw [hparts] at hplain
      obtain ⟨hsource, htarget, -⟩ := not_or.mp hempty |>.imp_right not_or.mp
      exact ⟨⟨hsource, hplain source (by simp)⟩, htarget, hplain target (by simp)⟩
    · cases h
  · rintro ⟨⟨hsource, hs⟩, htarget, ht⟩
    have hparts : splitOn (py ":") v.text = [v.source, v.target, v.mode] := by
      rw [htext]
      exact splitOn_join (ch ':') (List.cons_ne_nil _ _) (by simp [hs, ht, hmode.2])
    rw [readVolume, hparts]
    simp [hsource, htarget, hmode.1]

/-- A variable is read back exactly if its name is not empty and has no `=`. -/
theorem readVariable_iff (key value : PyStr) :
    readVariable (key ++ py "=" ++ value) = some (key, some value) ↔ key ≠ [] ∧ ch '=' ∉ key := by
  constructor
  · intro h
    rw [readVariable] at h
    split_ifs at h with hempty
    have hkey : (cut (key ++ py "=" ++ value)).1 = key := congrArg Prod.fst (Option.some.inj h)
    refine ⟨fun hnil => hempty (hkey.trans hnil), fun hmem => ?_⟩
    rw [cut] at hkey
    have hall := List.mem_takeWhile_imp (hkey ▸ hmem)
    simp at hall
  · rintro ⟨hne, hplain⟩
    have hcut : cut (key ++ py "=" ++ value) = (key, some value) := by
      have hall : ∀ c ∈ key, decide (c ≠ ch '=') = true := fun c hc =>
        decide_eq_true fun heq => hplain (heq ▸ hc)
      rw [cut, List.append_assoc, List.takeWhile_append_of_pos hall, List.dropWhile_append_of_pos hall]
      simp [py]
    rw [readVariable, hcut, if_neg hne]

/-- Values that were written are all read back exactly if each of them is. -/
theorem mapM_written_iff {α β : Type} (write : α → PyStr) (read : PyStr → Option β) (meant : α → β) (xs : List α) :
    (xs.map write).mapM read = some (xs.map meant) ↔ ∀ x ∈ xs, read (write x) = some (meant x) := by
  induction xs with
  | nil => simp
  | cons x xs ih =>
    rw [List.map_cons, List.map_cons, List.mapM_cons, List.forall_mem_cons, ← ih]
    rcases read (write x) with _ | y
    · simp
    · rcases (xs.map write).mapM read with _ | ys <;> simp

/-! ### A run -/

/-- The options of `docker run` that are used, and no others. -/
def usedOptions : DockerOptions Empty where
  text := Sum.elim RunOption.text Empty.elim
  takesValue := Sum.elim RunOption.takesValue Empty.elim
  find? arg := ([.rm, .init, .readOnly, .label, .memory, .memorySwap, .cpus, .pidsLimit, .user, .capDrop, .securityOpt,
    .tmpfs, .network, .workdir, .volume, .env, .envFile, .cidfile] : List RunOption).find? (·.text = arg) |>.map .inl
  find?_text := by
    rintro (n | e)
    · cases n <;> decide
    · exact e.elim
  isOption_text := by
    rintro (n | e)
    · cases n <;> decide
    · exact e.elim
  text_used _ := rfl
  takesValue_used _ := rfl

/-- The digest of an image. -/
def sampleDigest : PyStr := py "sha256:" ++ List.replicate 64 (ch 'a')

/-- A manifest of one image. -/
def sampleManifest : Json :=
  .obj [(py "version", .str (py "1.0.0")),
    (py "images", .obj [(py "node:22", .obj [(py "tag", .str (py "images/node:22-1.0.0")),
      (py "digest", .str sampleDigest), (py "frameworks", .arr [.str (py "vite")])])]),
    (py "engine_compat", .obj [(py "proto_min", .int 2), (py "proto_max", .int 2)])]

/-- Its entry. -/
def sampleEntries : Manifest :=
  [(py "node:22", ⟨py "images/node:22-1.0.0", sampleDigest, [py "vite"], by decide, by decide +kernel⟩)]

/-- Paths that are resolved already. -/
def sampleHost : Host where
  resolve path := path
  siblingOut path := path ++ py "/../out"
  floatText _ := py "2.0"

/-- The specification of a build. -/
def sampleSpec : DockerRunSpec where
  image := py "images/node:22-1.0.0@" ++ sampleDigest
  projectRoot := py "/state/src"
  command := py "npm run build"
  config := defaultLimits
  networkMode := py "bridge"
  sourceRoot := some (py "/state/src")
  outputRoot := some (py "/state/out")
  buildManifest := some []
  environment := ⟨[(py "CI", py "1")], by decide⟩
  cacheMounts := [⟨py "/state/cache/site", py "/cache"⟩]
  containerLabel := py "build-engine.managed=true"
  hostUid := 1000
  hostGid := 1000
  limits := ⟨some 600, none, none, 1024⟩

/-- The files of the build. -/
def sampleFiles : RunFiles := ⟨none, some (py "/tmp/manifest.json"), some (py "/tmp/cid.txt")⟩

/-- The paths and the variables of the build. -/
theorem sample_readable : Readable sampleHost sampleSpec sampleFiles where
  image := by decide
  volumes := by decide +kernel
  environment := by decide

/-! ### The container that is started -/

section Starting
variable {μ : Type} {host : Host} {spec : DockerRunSpec} {files : RunFiles}

theorem values_append (s t : List (Setting (RunOption ⊕ μ))) (n : RunOption) :
    values (s ++ t) n = values s n ++ values t n := List.filterMap_append

theorem values_each {α : Type} (m n : RunOption) (xs : List α) (value : α → PyStr) :
    values (xs.map fun x => ((.inl m, some (value x)) : Setting (RunOption ⊕ μ))) n =
      if m = n then xs.map value else [] := by
  rw [values, List.filterMap_map]
  by_cases h : m = n
  · rw [if_pos h, ← List.filterMap_eq_map]
    exact List.filterMap_congr fun x _ => by simp [h]
  · rw [if_neg h, List.filterMap_eq_nil_iff]
    intro x _
    simp [h]

/-- The values of an option among the settings of a specification. -/
theorem values_settingsOf (n : RunOption) :
    values (settingsOf host spec files μ) n =
      values (fixedSettings host spec μ) n ++ (if .volume = n then (volumesOf host spec files).map Volume.text else []) ++
        (if .env = n then spec.environment.sorted.map fun kv => kv.1 ++ py "=" ++ kv.2 else []) ++
        (if .envFile = n then files.envFile.toList else []) ++ if .cidfile = n then files.cidfile.toList else [] := by
  simp only [settingsOf, values_append, values_each, List.map_id']

theorem isGiven_settingsOf (n : RunOption) :
    isGiven (settingsOf host spec files μ) n =
      (isGiven (fixedSettings host spec μ) n || (volumesOf host spec files).any (fun _ => .volume = n) ||
        spec.environment.sorted.any (fun _ => .env = n) || files.envFile.toList.any (fun _ => .envFile = n) ||
        files.cidfile.toList.any fun _ => .cidfile = n) := by
  simp only [settingsOf, isGiven, List.any_append, List.any_map, Function.comp_def]

theorem otherSettings_settingsOf : otherSettings (settingsOf host spec files μ) = [] := by
  simp [settingsOf, otherSettings, fixedSettings, List.filterMap_append, List.filterMap_map]

/-- The settings and the operands are read as the container they were written for exactly if the values are. -/
theorem readContainer_iff :
    readContainer (settingsOf host spec files μ)
        ((containerOf host spec files μ).image :: (containerOf host spec files μ).command) =
      some (containerOf host spec files μ) ↔
    (∀ v ∈ volumesOf host spec files, readVolume v.text = some v) ∧
      ∀ kv ∈ spec.environment.sorted, readVariable (kv.1 ++ py "=" ++ kv.2) = some (kv.1, some kv.2) := by
  have hvolumes := mapM_written_iff Volume.text readVolume id (volumesOf host spec files)
  have henvironment := mapM_written_iff (fun kv : PyStr × PyStr => kv.1 ++ py "=" ++ kv.2) readVariable
    (fun kv => (kv.1, some kv.2)) spec.environment.sorted
  rw [List.map_id] at hvolumes
  simp only [id_eq] at hvolumes
  rw [← henvironment, ← hvolumes]
  have hread : readContainer (settingsOf host spec files μ)
      ((containerOf host spec files μ).image :: (containerOf host spec files μ).command) =
      ((volumesOf host spec files).map Volume.text).mapM readVolume >>= fun volumes =>
        (spec.environment.sorted.map fun kv => kv.1 ++ py "=" ++ kv.2).mapM readVariable >>= fun environment =>
          some { containerOf host spec files μ with volumes := volumes, environment := environment } := by
    simp only [readContainer, values_settingsOf, isGiven_settingsOf, otherSettings_settingsOf, reduceCtorEq, if_true,
      if_false, List.append_nil]
    rcases hcid : files.cidfile with _ | path
    · simp [containerOf, hcid, values, fixedSettings, isGiven]
    · simp [containerOf, hcid, values, fixedSettings, isGiven]
  rw [hread]
  generalize ((volumesOf host spec files).map Volume.text).mapM readVolume = volumes
  generalize (spec.environment.sorted.map fun kv => kv.1 ++ py "=" ++ kv.2).mapM readVariable = environment
  rcases volumes with _ | volumes
  · simp
  · rcases environment with _ | environment
    · simp
    · simp [containerOf]

/-- The options of the settings have their values. -/
theorem fits_settingsOf (docker : DockerOptions μ) (host : Host) (spec : DockerRunSpec) (files : RunFiles) :
    ∀ s ∈ settingsOf host spec files μ, Fits docker.toOptions s := by
  have hused : ∀ (n : RunOption) (value : Option PyStr), n.takesValue = value.isSome →
      Fits docker.toOptions (.inl n, value) := fun n value h => (docker.takesValue_used n).trans h
  intro s hs
  simp only [settingsOf, List.mem_append, List.mem_map] at hs
  rcases hs with (((hs | ⟨v, -, rfl⟩) | ⟨kv, -, rfl⟩) | ⟨path, -, rfl⟩) | ⟨path, -, rfl⟩
  · simp only [fixedSettings, List.mem_cons, List.not_mem_nil, or_false] at hs
    rcases hs with rfl | rfl | rfl | rfl | rfl | rfl | rfl | rfl | rfl | rfl | rfl | rfl | rfl | rfl <;>
      exact hused _ _ rfl
  all_goals exact hused _ _ rfl

/-- The volumes and the variables are read back exactly if they are written so that they can be. -/
theorem values_readable_iff :
    ((∀ v ∈ volumesOf host spec files, readVolume v.text = some v) ∧
        ∀ kv ∈ spec.environment.sorted, readVariable (kv.1 ++ py "=" ++ kv.2) = some (kv.1, some kv.2)) ↔
      (∀ v ∈ volumesOf host spec files, (v.source ≠ [] ∧ ch ':' ∉ v.source) ∧ v.target ≠ [] ∧ ch ':' ∉ v.target) ∧
        ∀ kv ∈ spec.environment.items, kv.1 ≠ [] ∧ ch '=' ∉ kv.1 := by
  have hmode : ∀ v ∈ volumesOf host spec files, v.mode ≠ [] ∧ ch ':' ∉ v.mode := by
    intro v hv
    have hmodes : v.mode = py "ro" ∨ v.mode = py "rw" := by
      simp only [volumesOf, List.mem_append, List.mem_map] at hv
      rcases hv with hv | ⟨mount, -, rfl⟩
      · split_ifs at hv <;> simp only [List.mem_cons, List.not_mem_nil, or_false] at hv
        · rcases hv with rfl | rfl | rfl <;> simp
        · simp [hv]
      · exact Or.inr rfl
    rcases hmodes with h | h <;> rw [h] <;> decide
  have hperm : ∀ kv, kv ∈ spec.environment.sorted ↔ kv ∈ spec.environment.items :=
    fun kv => (List.perm_insertionSort itemLe spec.environment.items).mem_iff
  refine and_congr (forall₂_congr fun v hv => readVolume_text_iff v (hmode v hv)) ?_
  constructor
  · intro h kv hkv
    exact (readVariable_iff kv.1 kv.2).mp (h kv ((hperm kv).mpr hkv))
  · intro h kv hkv
    exact (readVariable_iff kv.1 kv.2).mpr (h kv ((hperm kv).mp hkv))

/-- The operands are the image and the command. -/
theorem operands_of_readContainer {settings : List (Setting (RunOption ⊕ μ))} {operands : List PyStr}
    {c : Container μ} (h : readContainer settings operands = some c) : operands = c.image :: c.command := by
  rcases operands with _ | ⟨image, command⟩
  · cases h
  · obtain ⟨volumes, -, h⟩ := Option.bind_eq_some_iff.mp h
    obtain ⟨environment, -, h⟩ := Option.bind_eq_some_iff.mp h
    rw [← Option.some.inj h]

/-- The arguments are read as the container of the specification exactly if it can be read. -/
theorem readDocker_iff (docker : DockerOptions μ) {dockerBin : PyStr} {args : List PyStr}
    (h : dockerRunArgs host spec files dockerBin = .ok args) :
    readDocker docker args = some (containerOf host spec files μ) ↔ Readable host spec files := by
  obtain ⟨hpinned, rfl⟩ := dockerRunArgs_ok docker h
  have hfits := fits_settingsOf docker host spec files
  have hparse : ∀ image, IsOperand image → ∀ command,
      parse docker.toOptions ((settingsOf host spec files μ).flatMap (OptionArgs.render docker.toOptions) ++
        image :: command) = some (settingsOf host spec files μ, image :: command) := by
    intro image himage command
    rw [parse_render hfits, parse_operand himage, Option.map_some, List.append_nil]
  rw [readDocker, if_pos rfl]
  constructor
  · intro hread
    obtain ⟨⟨settings, operands⟩, hsome, hcontainer⟩ := Option.bind_eq_some_iff.mp hread
    obtain rfl := operands_of_readContainer hcontainer
    have himage : IsOperand (containerOf host spec files μ).image := by
      refine (parse_render_iff hfits _ (containerOf host spec files μ).command).mp ⟨settings, ?_⟩
      exact hsome
    rw [hparse _ himage] at hsome
    obtain rfl := (Prod.mk.inj (Option.some.inj hsome)).1
    obtain ⟨hvolumes, henvironment⟩ := values_readable_iff.mp (readContainer_iff.mp hcontainer)
    exact ⟨(isOperand_of_isPinned hpinned).mp himage, hvolumes, henvironment⟩
  · rintro ⟨himage, hvolumes, henvironment⟩
    have hoperand : IsOperand (containerOf host spec files μ).image := (isOperand_of_isPinned hpinned).mpr himage
    rw [hparse _ hoperand, Option.bind_some]
    exact readContainer_iff.mpr (values_readable_iff.mpr ⟨hvolumes, henvironment⟩)

end Starting

/-- The arguments of the build. -/
theorem sample_args : ∃ args, dockerRunArgs sampleHost sampleSpec sampleFiles (py "docker") = .ok args := by
  have hpinned : isPinned sampleSpec.image = true := by decide +kernel
  exact dockerRunArgs_total hpinned rfl fun _ => rfl

section Images
variable {μ : Type} {manifest : Manifest} {image reference : PyStr}

/-- A resolved image is the reference of an entry with the key, the tag or the reference that was asked for. -/
theorem resolveImageReference_ok (h : resolveImageReference image (some manifest) = .ok reference) :
    ∃ kv ∈ manifest, (image = kv.1 ∨ image = kv.2.tag ∨ image = kv.2.reference) ∧ reference = kv.2.reference := by
  rw [resolveImageReference] at h
  split at h
  · rename_i kv hkey
    have hnamed : kv.1 = image := by simpa using List.find?_some hkey
    exact ⟨kv, List.mem_of_find?_eq_some hkey, Or.inl hnamed.symm, (Except.ok.inj h).symm⟩
  · rename_i entry _ hentry
    obtain ⟨kv, hkv, rfl⟩ := Option.map_eq_some_iff.mp hentry
    have hnamed := List.find?_some hkv
    rw [Bool.or_eq_true, decide_eq_true_eq, decide_eq_true_eq] at hnamed
    exact ⟨kv, List.mem_of_find?_eq_some hkv, Or.inr hnamed, (Except.ok.inj h).symm⟩
  · cases h

end Images

end BuildEngine.Executor.DockerRun
