import BuildEngine.Base.Json
import BuildEngine.Detect.Lockfiles

/-! # Site caches

`executor/cache.py` on the directory of one site, `cache/<site_id>`: the marker of a disabled cache, the
metadata, and the files that builds have written. Directories are left out, apart from the root itself. Every
file has the number of the prepare call whose build wrote it, which the code never looks at. What `stat` says
is an argument of the calls that ask for it; times are in microseconds. -/

namespace BuildEngine.Executor.Cache

open BuildEngine.Base BuildEngine.Detect

/-- `METADATA_FILENAME` -/
def metadataFilename : PyStr := py ".build-engine-cache.json"

/-- `DISABLED_MARKER_FILENAME` -/
def disabledMarkerFilename : PyStr := py ".build-engine-cache-disabled"

/-- The names `_has_cache_contents` and `_prune_children_lru` pass over. -/
def ignored : List PyStr := [metadataFilename, disabledMarkerFilename]

/-- `LockfileSnapshot` -/
structure LockfileSnapshot where
  name : PyStr
  sha256 : PyStr
  deriving DecidableEq

/-- The errors of the metadata. -/
inductive CacheError where
  | metadataInvalid
  | lockfileInvalid
  deriving DecidableEq

/-- The text of an error; `path` is the path of the metadata. -/
def CacheError.text (path : PyStr) : CacheError → PyStr
  | .metadataInvalid => py "Cache metadata is invalid: " ++ path
  | .lockfileInvalid => py "Cache metadata lockfile field is invalid"

/-! ### The directory of a site -/

/-- A file a build has written: its path below the root, and the number of the build. -/
structure CacheFile where
  directory : List PyStr
  name : PyStr
  build : ℕ
  allowed : name ∉ ignored
  deriving DecidableEq

/-- The path of a file below the root. -/
def CacheFile.path (f : CacheFile) : List PyStr := f.directory ++ [f.name]

/-- The content of the metadata file: a text `json` does not read, or a value. -/
inductive Metadata where
  | undecodable
  | value (j : Json)

/-- The root of a site. -/
structure SiteRoot where
  disabledMarker : Bool
  metadata : Option Metadata
  files : List CacheFile

/-- A directory that has just been made. -/
def SiteRoot.empty : SiteRoot := ⟨false, none, []⟩

/-- `root.mkdir(parents=True, exist_ok=True)` -/
def mkdir (root : Option SiteRoot) : SiteRoot := root.getD .empty

/-- `_reset_cache_unlocked` -/
def resetCacheUnlocked (_root : Option SiteRoot) : Option SiteRoot := none

/-- `_has_cache_contents` -/
def hasCacheContents (root : Option SiteRoot) : Bool :=
  root.any fun r => r.files.any fun f => f.name ∉ ignored

/-! ### Metadata -/

/-- The payload of `_write_metadata`. -/
def metadataPayload (manager : PackageManager) (lockfile : Option LockfileSnapshot) (updatedAt : PyStr) :
    List (PyStr × Json) :=
  [(py "package_manager", .str manager.text),
    (py "lockfile", match lockfile with
      | none => .null
      | some l => .obj [(py "name", .str l.name), (py "sha256", .str l.sha256)]),
    (py "updated_at", .str updatedAt)]

/-- `_write_metadata` -/
def writeMetadata (manager : PackageManager) (lockfile : Option LockfileSnapshot) (updatedAt : PyStr)
    (root : SiteRoot) : SiteRoot :=
  { root with metadata := some (.value (.obj (metadataPayload manager lockfile updatedAt))) }

/-- `_read_metadata` -/
def readMetadata : Option Metadata → Except CacheError (Option (List (PyStr × Json)))
  | none => .ok none
  | some (.value (.obj kvs)) => .ok (some kvs)
  | some _ => .error .metadataInvalid

/-- `_metadata_lockfile` -/
def metadataLockfile (metadata : List (PyStr × Json)) : Except CacheError (Option LockfileSnapshot) :=
  match Json.get? metadata (py "lockfile") with
  | none | some .null => .ok none
  | some (.obj lockfile) =>
    match Json.get? lockfile (py "name"), Json.get? lockfile (py "sha256") with
    | some (.str name), some (.str sha256) => .ok (some ⟨name, sha256⟩)
    | _, _ => .error .lockfileInvalid
  | some _ => .error .lockfileInvalid

/-! ### Preparing -/

/-- The arguments of `prepare_site_cache`; `project name` is the content of the regular file `name` of the
project, and `updatedAt` the time that is written. -/
structure PrepareCall where
  packageManager : PackageManager
  project : PyStr → Option (List (Fin 256))
  enabled : Bool
  updatedAt : PyStr

/-- `CacheEvent` -/
inductive CacheEvent where
  | hit | miss | wiped
  deriving DecidableEq

/-- `CachePrepareResult`: a mount is a directory below the root and its path in the container. -/
structure CachePrepareResult where
  mounts : List (List PyStr × PyStr)
  event : Option CacheEvent
  lockfile : Option LockfileSnapshot
  deriving DecidableEq

/-- `SiteCache.mounts` -/
def mounts (manager : PackageManager) : List (List PyStr × PyStr) :=
  ([], py "/cache") ::
    if manager = .npm ∨ manager = .pnpm then [([py "node-home"], py "/home/node")] else []

/-- `lockfile_snapshot` -/
def lockfileSnapshot (sha256 : List (Fin 256) → PyStr) (project : PyStr → Option (List (Fin 256)))
    (manager : PackageManager) : Option LockfileSnapshot :=
  lockfilePriority.findSome? fun (filename, m) =>
    if m = manager then (project filename).map fun content => ⟨filename, sha256 content⟩ else none

/-- The metadata of a cache that is being prepared, and whether they are of another lockfile. -/
def previousMetadata (root : Option SiteRoot) (lockfile : Option LockfileSnapshot) :
    Except CacheError (Bool × Bool) :=
  match readMetadata (root.bind SiteRoot.metadata) with
  | .error e => .error e
  | .ok none => .ok (false, false)
  | .ok (some previous) =>
    match metadataLockfile previous with
    | .error e => .error e
    | .ok recorded => .ok (true, recorded ≠ lockfile)

/-- `prepare_site_cache` of an enabled cache, for the lockfile of the project. -/
def prepareEnabled (manager : PackageManager) (updatedAt : PyStr) (lockfile : Option LockfileSnapshot)
    (root : Option SiteRoot) : Except CacheError CachePrepareResult × Option SiteRoot :=
  let disabled := root.any SiteRoot.disabledMarker
  let root := if disabled then resetCacheUnlocked root else root
  match previousMetadata root lockfile with
  | .error e => (.error e, root)
  | .ok (previous, changed) =>
    let root := if changed then resetCacheUnlocked root else root
    let event := if disabled || changed then .wiped
      else if previous && hasCacheContents root then .hit else .miss
    (.ok ⟨mounts manager, some event, lockfile⟩,
      some (writeMetadata manager lockfile updatedAt (mkdir root)))

/-- `prepare_site_cache`: what it returns or raises, and the root after it. -/
def prepareSiteCache (sha256 : List (Fin 256) → PyStr) (c : PrepareCall) (root : Option SiteRoot) :
    Except CacheError CachePrepareResult × Option SiteRoot :=
  if c.enabled then
    prepareEnabled c.packageManager c.updatedAt (lockfileSnapshot sha256 c.project c.packageManager) root
  else (.ok ⟨[], none, none⟩, some { mkdir root with disabledMarker := true })

/-! ### Pruning -/

/-- What `stat` says in the directory of a site: `_last_access`, and the size and the access time of the file at
a path. -/
structure Stat where
  lastAccess : ℤ
  size : List PyStr → ℕ
  atime : List PyStr → ℤ

/-- The arguments of `prune_cache`, and its clock; `excluded` says that the site is in `exclude_site_ids`. -/
structure PruneCall where
  now : ℤ
  siteMaxBytes : ℕ
  ttlDays : ℤ
  excluded : Bool

/-- `directory_size_bytes` -/
def directorySizeBytes (stat : Stat) (root : SiteRoot) : ℕ :=
  (if root.disabledMarker then stat.size [disabledMarkerFilename] else 0) +
    (if root.metadata.isSome then stat.size [metadataFilename] else 0) +
    (root.files.map fun f => stat.size f.path).sum

/-- `_last_access(site_root) < expires_before` -/
def expired (c : PruneCall) (stat : Stat) : Bool := stat.lastAccess < c.now - c.ttlDays * 86400000000

/-- `path.unlink(missing_ok=True)` -/
def SiteRoot.unlink (root : SiteRoot) (path : List PyStr) : SiteRoot :=
  { root with files := root.files.filter fun f => f.path ≠ path }

/-- The candidates of `_prune_children_lru`, the least recently read first. -/
def candidates (stat : Stat) (root : SiteRoot) : List CacheFile :=
  (root.files.filter fun f => f.name ∉ ignored).insertionSort fun f g => stat.atime f.path ≤ stat.atime g.path

/-- The loop of `_prune_children_lru`. -/
def pruneChildrenLru (stat : Stat) (maxBytes : ℕ) : List CacheFile → SiteRoot → SiteRoot
  | [], root => root
  | f :: fs, root =>
    if directorySizeBytes stat root ≤ maxBytes then root
    else pruneChildrenLru stat maxBytes fs (root.unlink f.path)

/-- What the second loop of `prune_cache` does to the directory of a site. -/
def limitSite (c : PruneCall) (stat : Stat) (root : SiteRoot) : Option SiteRoot :=
  if directorySizeBytes stat root ≤ c.siteMaxBytes then some root
  else
    let pruned := pruneChildrenLru stat c.siteMaxBytes (candidates stat root) root
    if directorySizeBytes stat pruned > c.siteMaxBytes then none else some pruned

/-- What `prune_cache` does to the directory of a site. -/
def pruneSite (c : PruneCall) (stat : Stat) (root : SiteRoot) : Option SiteRoot :=
  if c.excluded then some root
  else if expired c stat then none
  else limitSite c stat root

/-! ### Lemmas -/

theorem hasCacheContents_some (root : SiteRoot) : hasCacheContents (some root) = true ↔ root.files ≠ [] := by
  unfold hasCacheContents
  rw [Option.any_some]
  rcases root.files with _ | ⟨f, fs⟩
  · simp
  · have hallowed := decide_eq_true f.allowed
    rw [List.any_cons, hallowed, Bool.true_or]
    simp

/-- Metadata that a prepare call has written for the lockfile. -/
def Metadata.Records (m : Metadata) (lockfile : Option LockfileSnapshot) : Prop :=
  ∃ manager updatedAt, m = .value (.obj (metadataPayload manager lockfile updatedAt))

theorem metadataLockfile_payload (manager : PackageManager) (lockfile : Option LockfileSnapshot)
    (updatedAt : PyStr) : metadataLockfile (metadataPayload manager lockfile updatedAt) = .ok lockfile := by
  have hkey : Json.get? (metadataPayload manager lockfile updatedAt) (py "lockfile") =
      some (match lockfile with
        | none => .null
        | some l => .obj [(py "name", .str l.name), (py "sha256", .str l.sha256)]) := rfl
  unfold metadataLockfile
  rw [hkey]
  cases lockfile with
  | none => rfl
  | some l => rfl

theorem Metadata.Records.read {m : Metadata} {lockfile : Option LockfileSnapshot} (h : m.Records lockfile) :
    ∃ kvs, readMetadata (some m) = .ok (some kvs) ∧ metadataLockfile kvs = .ok lockfile := by
  obtain ⟨manager, updatedAt, rfl⟩ := h
  exact ⟨_, rfl, metadataLockfile_payload manager lockfile updatedAt⟩

/-- Metadata record one lockfile. -/
theorem Metadata.Records.unique {m : Metadata} {l l' : Option LockfileSnapshot} (h : m.Records l)
    (h' : m.Records l') : l = l' := by
  obtain ⟨kvs, hread, hlock⟩ := h.read
  obtain ⟨kvs', hread', hlock'⟩ := h'.read
  rw [hread] at hread'
  cases hread'
  rw [hlock] at hlock'
  exact Except.ok.inj hlock'

theorem previousMetadata_of_records {root : SiteRoot} {m : Metadata} (hm : root.metadata = some m)
    {recorded : Option LockfileSnapshot} (h : m.Records recorded) (lockfile : Option LockfileSnapshot) :
    previousMetadata (some root) lockfile = .ok (true, decide (recorded ≠ lockfile)) := by
  obtain ⟨kvs, hread, hlock⟩ := h.read
  unfold previousMetadata
  rw [Option.bind_some, hm, hread]
  dsimp only
  rw [hlock]

theorem files_pruneChildrenLru (stat : Stat) (maxBytes : ℕ) : ∀ (fs : List CacheFile) (root : SiteRoot),
    (pruneChildrenLru stat maxBytes fs root).files ⊆ root.files ∧
      (pruneChildrenLru stat maxBytes fs root).disabledMarker = root.disabledMarker ∧
      (pruneChildrenLru stat maxBytes fs root).metadata = root.metadata
  | [], _ => ⟨fun _ h => h, rfl, rfl⟩
  | f :: fs, root => by
    unfold pruneChildrenLru
    split_ifs
    · exact ⟨fun _ h => h, rfl, rfl⟩
    · obtain ⟨hfiles, hmarker, hmetadata⟩ := files_pruneChildrenLru stat maxBytes fs (root.unlink f.path)
      exact ⟨fun g hg => List.mem_of_mem_filter (hfiles hg), hmarker, hmetadata⟩

/-- A prune removes the root, or some files. -/
theorem pruneSite_spec (c : PruneCall) (stat : Stat) (root : SiteRoot) : ∀ r ∈ pruneSite c stat root,
    r.files ⊆ root.files ∧ r.disabledMarker = root.disabledMarker ∧ r.metadata = root.metadata := by
  intro r hr
  dsimp only [pruneSite, limitSite] at hr
  split_ifs at hr with hexcluded hexpired hsize hover
  · rw [← Option.some.inj hr]
    exact ⟨fun _ h => h, rfl, rfl⟩
  · cases hr
  · rw [← Option.some.inj hr]
    exact ⟨fun _ h => h, rfl, rfl⟩
  · cases hr
  · rw [← Option.some.inj hr]
    exact files_pruneChildrenLru stat c.siteMaxBytes _ root

end BuildEngine.Executor.Cache
