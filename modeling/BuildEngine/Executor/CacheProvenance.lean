import BuildEngine.Executor.Cache
import BuildEngine.Base.Run

/-! # Where the files of a site cache come from

The cache of one site over a history of prepare calls, builds, prunes and resets. A build has the mounts its
prepare call has returned. `docker_runner` makes the host directory of every mount again when it starts the
container, so a build whose directory was removed before that writes into a new one; a container that runs
while its directory is removed keeps a mount that is not in the cache any more. A build ends before the next
prepare call; calls of `reset_cache`, for the site or for all, and of `prune_cache` may come in between.

The machine keeps the prepare calls that have returned, numbered from zero; a build has the number of its
own. -/

namespace BuildEngine.Executor.CacheProvenance

open BuildEngine.Base BuildEngine.Base.Run BuildEngine.Detect BuildEngine.Executor.Cache

/-- A prepare call that has returned. -/
inductive Call where
  | disabled
  | enabled (lockfile : Option LockfileSnapshot)
  deriving DecidableEq

/-- A build: its container has not started, it has the cache mounted, or its mount has been removed. -/
inductive Phase where
  | prepared | mounted | detached
  deriving DecidableEq

/-- The cache, the build that has it, and the prepare calls so far. -/
structure State where
  root : Option SiteRoot
  build : Option (ℕ × Phase)
  history : List Call

/-- A site without a cache. -/
def State.init : State := ⟨none, none, []⟩

/-- What happens to the cache of a site. -/
inductive Action where
  | prepare (c : PrepareCall)
  /-- The container starts, with its mounts. -/
  | start
  /-- The build writes a file, or removes one. -/
  | write (directory : List PyStr) (name : PyStr) (allowed : name ∉ ignored)
  | remove (path : List PyStr)
  | finish
  | prune (c : PruneCall) (stat : Stat)
  | reset

/-- A mount of a root that is removed is not in the cache any more. -/
def detach : Option (ℕ × Phase) → Option (ℕ × Phase)
  | some (n, .mounted) => some (n, .detached)
  | build => build

/-- The root is changed, or removed. -/
def State.setRoot (s : State) (root : Option SiteRoot) : State :=
  { s with root := root, build := if root.isSome then s.build else detach s.build }

/-- A file is written: it replaces the one at its path. -/
def addFile (f : CacheFile) (root : SiteRoot) : SiteRoot :=
  { root with files := (root.unlink f.path).files ++ [f] }

section Machine
variable (sha256 : List (Fin 256) → PyStr)

/-- A prepare call has returned: an enabled one starts a build with its mounts. -/
def State.returned (s : State) (c : PrepareCall) (r : CachePrepareResult) (root : Option SiteRoot) : State where
  root := root
  build := if r.mounts = [] then none else some (s.history.length, .prepared)
  history := s.history ++ [if c.enabled then .enabled r.lockfile else .disabled]

/-- One thing that happens; what is not enabled changes nothing. -/
def step (s : State) : Action → State
  | .prepare c =>
    match s.build with
    | some _ => s
    | none =>
      match prepareSiteCache sha256 c s.root with
      | (.ok r, root) => s.returned c r root
      | (.error _, root) => { s with root := root }
  | .start =>
    match s.build with
    | some (n, .prepared) => { s with root := some (mkdir s.root), build := some (n, .mounted) }
    | _ => s
  | .write directory name allowed =>
    match s.build with
    | some (n, .mounted) => { s with root := s.root.map (addFile ⟨directory, name, n, allowed⟩) }
    | _ => s
  | .remove path =>
    match s.build with
    | some (_, .mounted) => { s with root := s.root.map fun r => r.unlink path }
    | _ => s
  | .finish => { s with build := none }
  | .prune c stat => s.setRoot (s.root.bind (pruneSite c stat))
  | .reset => s.setRoot (resetCacheUnlocked s.root)

/-- The call `n` and all calls after it were enabled, with this lockfile. -/
def Since (history : List Call) (n : ℕ) (lockfile : Option LockfileSnapshot) : Prop :=
  n < history.length ∧ ∀ call ∈ history.drop n, call = .enabled lockfile

/-- What the event of a prepare call promises of the cache it leaves. -/
def Promise (history : List Call) (r : CachePrepareResult) (root : Option SiteRoot) : Prop :=
  match r.event with
  | none => r.mounts = []
  | some .hit => ∃ t, root = some t ∧ t.files ≠ [] ∧ ∀ f ∈ t.files, Since history f.build r.lockfile
  | some .miss | some .wiped => ∃ t, root = some t ∧ t.files = []

/-- A prepare call returns, and its event is true of the cache. -/
def Provenance (s : State) (a : Action) : Prop :=
  ∀ c, a = .prepare c → s.build = none →
    ∃ r root, prepareSiteCache sha256 c s.root = (.ok r, root) ∧ Promise s.history r root

/-- An enabled prepare call finds no files, or the metadata, or the marker. -/
def Covered (s : State) (a : Action) : Prop :=
  ∀ c, a = .prepare c → s.build = none → c.enabled = true →
    ∀ r ∈ s.root, r.files = [] ∨ r.metadata.isSome = true ∨ r.disabledMarker = true

/-! ### The invariant -/

/-- The metadata are readable; unless the cache is disabled, every file is of a build with their lockfile, and so
is the build that has the cache. -/
structure Inv (s : State) : Prop where
  readable : ∀ r ∈ s.root, ∀ m ∈ r.metadata, ∃ lockfile, m.Records lockfile
  files : ∀ r ∈ s.root, r.disabledMarker = false → ∀ m ∈ r.metadata, ∀ lockfile, m.Records lockfile →
    ∀ f ∈ r.files, Since s.history f.build lockfile
  build : ∀ b ∈ s.build, ∃ lockfile, Since s.history b.1 lockfile ∧
    ∀ r ∈ s.root, ∀ m ∈ r.metadata, m.Records lockfile

theorem inv_init : Inv State.init :=
  ⟨fun _ h => (by cases h), fun _ h => (by cases h), fun _ h => (by cases h)⟩

variable {sha256} {s : State}

/-! ### What a prepare call finds -/

/-- The metadata that are there have been written by a prepare call. -/
def Readable (root : Option SiteRoot) : Prop := ∀ r ∈ root, ∀ m ∈ r.metadata, ∃ lockfile, m.Records lockfile

/-- What an enabled prepare call for a lockfile finds, its event, and the files it leaves. -/
inductive Found (lockfile : Option LockfileSnapshot) : Option SiteRoot → CacheEvent → List CacheFile → Prop
  /-- The cache was disabled, or is of another lockfile. -/
  | wiped (root : Option SiteRoot) (h : ∀ r ∈ root, r.metadata.isSome = true ∨ r.disabledMarker = true) :
    Found lockfile root .wiped []
  /-- The cache is of the lockfile. -/
  | kept (root : SiteRoot) (m : Metadata) (hmarker : root.disabledMarker = false)
      (hmetadata : root.metadata = some m) (hrecords : m.Records lockfile) :
    Found lockfile (some root) (if root.files = [] then .miss else .hit) root.files
  /-- There are no metadata. -/
  | unknown (root : Option SiteRoot) (h : ∀ r ∈ root, r.disabledMarker = false ∧ r.metadata = none) :
    Found lockfile root .miss (mkdir root).files

/-- An enabled prepare call returns; it leaves the metadata of its lockfile and no marker. -/
theorem prepareEnabled_found (manager : PackageManager) (updatedAt : PyStr) (lockfile : Option LockfileSnapshot)
    {root : Option SiteRoot} (h : Readable root) : ∃ event t,
      prepareEnabled manager updatedAt lockfile root = (.ok ⟨mounts manager, some event, lockfile⟩, some t) ∧
      t.disabledMarker = false ∧ (∃ m, t.metadata = some m ∧ m.Records lockfile) ∧
      Found lockfile root event t.files := by
  have hnew : (Metadata.value (.obj (metadataPayload manager lockfile updatedAt))).Records lockfile := ⟨_, _, rfl⟩
  rcases root with _ | r
  · exact ⟨.miss, _, rfl, rfl, ⟨_, rfl, hnew⟩, Found.unknown none fun r hr => (by cases hr)⟩
  · rcases hmarker : r.disabledMarker with _ | _
    · rcases hm : r.metadata with _ | m
      · have hprevious : previousMetadata (some r) lockfile = .ok (false, false) := by
          simp [previousMetadata, hm, readMetadata]
        refine ⟨.miss, writeMetadata manager _ updatedAt r, ?_, hmarker, ⟨_, rfl, hnew⟩, Found.unknown (some r) ?_⟩
        · simp [prepareEnabled, hmarker, hprevious, mkdir]
        · rintro t ⟨⟩
          exact ⟨hmarker, hm⟩
      · obtain ⟨recorded, hrecorded⟩ := h r rfl m hm
        have hprevious := previousMetadata_of_records hm hrecorded lockfile
        by_cases hsame : recorded = lockfile
        · subst hsame
          have hcontents := hasCacheContents_some r
          refine ⟨if r.files = [] then .miss else .hit, writeMetadata manager _ updatedAt r, ?_, hmarker, ⟨_, rfl, hnew⟩,
            Found.kept r m hmarker hm hrecorded⟩
          by_cases hfiles : r.files = []
          · have hempty : hasCacheContents (some r) = false := by
              rw [← Bool.not_eq_true, hcontents]
              exact fun hne => hne hfiles
            simp [prepareEnabled, hmarker, hprevious, mkdir, hfiles, hempty]
          · simp [prepareEnabled, hmarker, hprevious, mkdir, hfiles, hcontents.mpr hfiles]
        · refine ⟨.wiped, writeMetadata manager _ updatedAt .empty, ?_, rfl, ⟨_, rfl, hnew⟩,
            Found.wiped (some r) ?_⟩
          · simp [prepareEnabled, hmarker, hprevious, hsame, resetCacheUnlocked, mkdir, SiteRoot.empty]
          · rintro t ⟨⟩
            exact Or.inl (by rw [hm]; rfl)
    · refine ⟨.wiped, writeMetadata manager _ updatedAt .empty, ?_, rfl, ⟨_, rfl, hnew⟩, Found.wiped (some r) ?_⟩
      · simp [prepareEnabled, hmarker, resetCacheUnlocked, previousMetadata, readMetadata, mkdir, SiteRoot.empty]
      · rintro t ⟨⟩
        exact Or.inr hmarker

/-- The event keeps its promise exactly if the call finds no files, or the metadata, or the marker. -/
theorem promise_iff {history : List Call} {lockfile : Option LockfileSnapshot} {root : Option SiteRoot}
    {event : CacheEvent} {t : SiteRoot} (hfound : Found lockfile root event t.files)
    (hfiles : ∀ r ∈ root, r.disabledMarker = false → ∀ m ∈ r.metadata, ∀ l, m.Records l →
      ∀ f ∈ r.files, Since history f.build l) (mounts : List (List PyStr × PyStr)) :
    Promise history ⟨mounts, some event, lockfile⟩ (some t) ↔
      ∀ r ∈ root, r.files = [] ∨ r.metadata.isSome = true ∨ r.disabledMarker = true := by
  generalize hleft : t.files = left at hfound
  cases hfound with
  | wiped _ hwiped => exact ⟨fun _ r hr => Or.inr (hwiped r hr), fun _ => ⟨t, rfl, hleft⟩⟩
  | kept r m hmarker hm hrecords =>
    refine ⟨fun _ u hu => ?_, fun _ => ?_⟩
    · obtain rfl := Option.some.inj hu
      exact Or.inr (Or.inl (by rw [hm]; rfl))
    · by_cases hempty : r.files = []
      · rw [if_pos hempty]
        exact ⟨t, rfl, by rw [hleft, hempty]⟩
      · rw [if_neg hempty]
        refine ⟨t, rfl, by rw [hleft]; exact hempty, fun f hf => ?_⟩
        rw [hleft] at hf
        exact hfiles r rfl hmarker m hm lockfile hrecords f hf
  | unknown _ hnone =>
    constructor
    · rintro ⟨u, hu, hempty⟩ r hr
      obtain rfl := Option.some.inj hu
      obtain rfl := Option.mem_def.mp hr
      exact Or.inl (hleft.symm.trans hempty)
    · intro hcov
      refine ⟨t, rfl, ?_⟩
      rw [hleft]
      rcases root with _ | r
      · rfl
      · obtain ⟨hmarker, hm⟩ := hnone r rfl
        rcases hcov r rfl with hempty | hsome | hdisabled
        · exact hempty
        · rw [hm] at hsome
          cases hsome
        · rw [hmarker] at hdisabled
          cases hdisabled

/-! ### One step -/

theorem Since.concat {history : List Call} {n : ℕ} {lockfile : Option LockfileSnapshot}
    (h : Since history n lockfile) : Since (history ++ [.enabled lockfile]) n lockfile := by
  obtain ⟨hlt, hall⟩ := h
  refine ⟨by rw [List.length_append]; omega, fun call hcall => ?_⟩
  rw [List.drop_append_of_le_length (by omega)] at hcall
  rcases List.mem_append.mp hcall with hcall | hcall
  · exact hall call hcall
  · exact List.mem_singleton.mp hcall

theorem since_last (history : List Call) (lockfile : Option LockfileSnapshot) :
    Since (history ++ [.enabled lockfile]) history.length lockfile := by
  refine ⟨by simp, fun call hcall => ?_⟩
  rw [List.drop_left] at hcall
  exact List.mem_singleton.mp hcall

theorem provenance_iff (h : Inv s) (a : Action) : Provenance sha256 s a ↔ Covered s a := by
  refine forall₃_congr fun c ha hb => ?_
  by_cases hc : c.enabled = true
  · obtain ⟨event, t, hcall, -, -, hfound⟩ := prepareEnabled_found c.packageManager c.updatedAt
      (lockfileSnapshot sha256 c.project c.packageManager) h.readable
    have hexact := promise_iff hfound h.files (mounts c.packageManager)
    unfold prepareSiteCache
    rw [if_pos hc, hcall]
    constructor
    · rintro ⟨r, root, heq, hpromise⟩ -
      cases heq
      exact hexact.mp hpromise
    · exact fun hcov => ⟨_, _, rfl, hexact.mpr (hcov hc)⟩
  · unfold prepareSiteCache
    rw [if_neg hc]
    exact ⟨fun _ hc' => absurd hc' hc, fun _ => ⟨_, _, rfl, rfl⟩⟩

/-! ### The step lemma -/

/-- The files of a kept promise are of builds with the lockfile. -/
theorem Promise.since {history : List Call} {r : CachePrepareResult} {t : SiteRoot} {event : CacheEvent}
    (h : Promise history r (some t)) (he : r.event = some event) : ∀ f ∈ t.files, Since history f.build r.lockfile := by
  unfold Promise at h
  rw [he] at h
  cases event with
  | hit =>
    obtain ⟨u, hu, -, hall⟩ := h
    rw [Option.some.inj hu]
    exact hall
  | miss | wiped =>
    obtain ⟨u, hu, hempty⟩ := h
    rw [Option.some.inj hu, hempty]
    exact fun f hf => (by cases hf)

theorem Inv.prepare (h : Inv s) {c : PrepareCall} (hb : s.build = none) (hcov : Covered s (.prepare c)) :
    Inv (step sha256 s (.prepare c)) := by
  have hprovenance : Provenance sha256 s (.prepare c) := (provenance_iff h _).mpr hcov
  obtain ⟨r, root, hcall, hpromise⟩ := hprovenance c rfl hb
  dsimp only [step]
  rw [hb, hcall]
  dsimp only
  unfold prepareSiteCache at hcall
  by_cases hc : c.enabled = true
  · obtain ⟨event, t, hfound, -, ⟨m, hm, hrecords⟩, -⟩ := prepareEnabled_found c.packageManager c.updatedAt
      (lockfileSnapshot sha256 c.project c.packageManager) h.readable
    rw [if_pos hc, hfound] at hcall
    cases hcall
    have hsince := hpromise.since rfl
    have hreads : ∀ u ∈ some t, ∀ n ∈ u.metadata, n.Records (lockfileSnapshot sha256 c.project c.packageManager) := by
      rintro u ⟨⟩ n hn
      rw [hm] at hn
      rwa [← Option.some.inj hn]
    have hmounts : mounts c.packageManager ≠ [] := List.cons_ne_nil _ _
    dsimp only [State.returned]
    rw [if_neg hmounts, if_pos hc]
    refine ⟨fun u hu n hn => ⟨_, hreads u hu n hn⟩, ?_, ?_⟩
    · rintro u ⟨⟩ - n hn l hl f hf
      have hsame := hl.unique (hreads t rfl n hn)
      rw [hsame]
      exact (hsince f hf).concat
    · rintro b ⟨⟩
      exact ⟨_, since_last s.history _, hreads⟩
  · rw [if_neg hc] at hcall
    cases hcall
    have hmkdir : ∀ m ∈ (mkdir s.root).metadata, ∃ lockfile, m.Records lockfile := by
      rcases hroot : s.root with _ | r
      · exact fun m hm => (by cases hm)
      · exact h.readable r hroot
    refine ⟨?_, ?_, fun b hb => (by cases hb)⟩
    · rintro u ⟨⟩
      exact hmkdir
    · rintro u ⟨⟩ hmarker
      cases hmarker

theorem mem_detach {build : Option (ℕ × Phase)} : ∀ b ∈ detach build, ∃ b' ∈ build, b'.1 = b.1 := by
  intro b hb
  unfold detach at hb
  split at hb
  · obtain rfl := Option.some.inj hb
    exact ⟨_, rfl, rfl⟩
  · exact ⟨b, hb, rfl⟩

/-- Files and the root may go. -/
theorem Inv.shrink (h : Inv s) {root : Option SiteRoot} (hroot : ∀ r ∈ root, ∃ r₀ ∈ s.root,
    r.files ⊆ r₀.files ∧ r.disabledMarker = r₀.disabledMarker ∧ r.metadata = r₀.metadata)
    {build : Option (ℕ × Phase)} (hbuild : ∀ b ∈ build, ∃ b' ∈ s.build, b'.1 = b.1) :
    Inv { s with root := root, build := build } := by
  refine ⟨?_, ?_, ?_⟩
  · intro r hr m hm
    obtain ⟨r₀, hr₀, -, -, hmetadata⟩ := hroot r hr
    rw [hmetadata] at hm
    exact h.readable r₀ hr₀ m hm
  · intro r hr hmarker m hm l hl f hf
    obtain ⟨r₀, hr₀, hsub, hsame, hmetadata⟩ := hroot r hr
    rw [hmetadata] at hm
    rw [hsame] at hmarker
    exact h.files r₀ hr₀ hmarker m hm l hl f (hsub hf)
  · intro b hb
    obtain ⟨b', hb', hnumber⟩ := hbuild b hb
    obtain ⟨l, hsince, hreads⟩ := h.build b' hb'
    rw [hnumber] at hsince
    refine ⟨l, hsince, fun r hr m hm => ?_⟩
    obtain ⟨r₀, hr₀, -, -, hmetadata⟩ := hroot r hr
    rw [hmetadata] at hm
    exact hreads r₀ hr₀ m hm

theorem Inv.setRoot (h : Inv s) {root : Option SiteRoot} (hroot : ∀ r ∈ root, ∃ r₀ ∈ s.root,
    r.files ⊆ r₀.files ∧ r.disabledMarker = r₀.disabledMarker ∧ r.metadata = r₀.metadata) :
    Inv (s.setRoot root) := by
  unfold State.setRoot
  split_ifs
  · exact h.shrink hroot fun b hb => ⟨b, hb, rfl⟩
  · exact h.shrink hroot mem_detach

theorem Inv.start (h : Inv s) {n : ℕ} (hb : s.build = some (n, .prepared)) :
    Inv { s with root := some (mkdir s.root), build := some (n, .mounted) } := by
  obtain ⟨l, hsince, hreads⟩ := h.build _ hb
  rcases hroot : s.root with _ | r
  · refine ⟨?_, ?_, ?_⟩
    · rintro u ⟨⟩ m hm
      cases hm
    · rintro u ⟨⟩ - m hm
      cases hm
    · rintro b ⟨⟩
      refine ⟨l, hsince, ?_⟩
      rintro u ⟨⟩ m hm
      cases hm
  · refine ⟨?_, ?_, ?_⟩
    · rintro u ⟨⟩
      exact h.readable r hroot
    · rintro u ⟨⟩
      exact h.files r hroot
    · rintro b ⟨⟩
      refine ⟨l, hsince, ?_⟩
      rintro u ⟨⟩
      exact hreads r hroot

theorem Inv.write (h : Inv s) {n : ℕ} (hb : s.build = some (n, .mounted)) {f : CacheFile} (hf : f.build = n) :
    Inv { s with root := s.root.map (addFile f) } := by
  obtain ⟨l, hsince, hreads⟩ := h.build _ hb
  refine ⟨?_, ?_, ?_⟩
  · intro u hu m hm
    obtain ⟨r, hr, rfl⟩ := Option.map_eq_some_iff.mp hu
    exact h.readable r hr m hm
  · intro u hu hmarker m hm l' hl' g hg
    obtain ⟨r, hr, rfl⟩ := Option.map_eq_some_iff.mp hu
    rcases List.mem_append.mp hg with hg | hg
    · exact h.files r hr hmarker m hm l' hl' g (List.mem_of_mem_filter hg)
    · rw [List.mem_singleton.mp hg, hf, hl'.unique (hreads r hr m hm)]
      exact hsince
  · rintro b hb'
    obtain rfl := Option.some.inj (hb.symm.trans hb')
    refine ⟨l, hsince, fun u hu m hm => ?_⟩
    obtain ⟨r, hr, rfl⟩ := Option.map_eq_some_iff.mp hu
    exact hreads r hr m hm

/-- Every step keeps the invariant, a prepare call if it is covered. -/
theorem Inv.step (h : Inv s) {a : Action} (hcov : Covered s a) : Inv (step sha256 s a) := by
  cases a with
  | prepare c =>
    rcases hb : s.build with _ | b
    · exact h.prepare hb hcov
    · dsimp only [CacheProvenance.step]
      rw [hb]
      exact h
  | start =>
    dsimp only [CacheProvenance.step]
    split
    · next n hb => exact h.start hb
    · exact h
  | write directory name allowed =>
    dsimp only [CacheProvenance.step]
    split
    · next n hb => exact h.write hb rfl
    · exact h
  | remove path =>
    dsimp only [CacheProvenance.step]
    split
    · have hbuild : ∀ b ∈ s.build, ∃ b' ∈ s.build, b'.1 = b.1 := fun b hb => ⟨b, hb, rfl⟩
      refine h.shrink (fun u hu => ?_) hbuild
      obtain ⟨r, hr, rfl⟩ := Option.map_eq_some_iff.mp hu
      exact ⟨r, hr, fun f hf => List.mem_of_mem_filter hf, rfl, rfl⟩
    · exact h
  | finish => exact ⟨h.readable, h.files, fun b hb => (by cases hb)⟩
  | prune c stat =>
    refine h.setRoot fun r hr => ?_
    obtain ⟨r₀, hr₀, hr⟩ := Option.bind_eq_some_iff.mp hr
    exact ⟨r₀, hr₀, pruneSite_spec c stat r₀ r hr⟩
  | reset => exact h.setRoot fun r hr => (by cases hr)

/-! ### Whole histories -/

/-- **The provenance of the cache** holds exactly under a condition on the prepare calls: in every history of
prepare calls, builds, prunes and resets of a site, every call returns, on HIT the cache has files, all of
builds whose own call returned the same lockfile with no disabled call and no other lockfile in between, and on
MISS and WIPED it has no file, if and only if no enabled call finds files in a cache with neither the metadata
nor the marker. -/
theorem cache_provenance_iff (sha256 : List (Fin 256) → PyStr) (as : List Action) :
    Along (step sha256) (Provenance sha256) State.init as ↔ Along (step sha256) Covered State.init as :=
  Along.congr (fun _ a h => provenance_iff h a) (fun _ _ hcov h => h.step hcov) as inv_init

/-! ### Histories that meet the condition -/

/-- The directory is pruned or reset only when no build waits for its container to start. -/
def Settled (s : State) (a : Action) : Prop :=
  (a = .reset ∨ ∃ c stat, a = .prune c stat) → ∀ n, s.build ≠ some (n, .prepared)

/-- Files come with the metadata or the marker, and so does the root of a build that waits. -/
structure Marked (s : State) : Prop where
  root : ∀ r ∈ s.root, r.files = [] ∨ r.metadata.isSome = true ∨ r.disabledMarker = true
  waiting : ∀ n, s.build = some (n, .prepared) → ∃ r, s.root = some r ∧ r.metadata.isSome = true
  mounted : ∀ n, s.build = some (n, .mounted) → ∃ r, s.root = some r ∧ r.metadata.isSome = true

theorem marked_init : Marked State.init :=
  ⟨fun _ h => (by cases h), fun _ h => (by cases h), fun _ h => (by cases h)⟩

theorem Marked.covered (h : Marked s) (a : Action) : Covered s a := fun _ _ _ _ => h.root

theorem Marked.prepare (h : Marked s) (hinv : Inv s) (c : PrepareCall) :
    Marked (step sha256 s (.prepare c)) := by
  dsimp only [step]
  split
  · exact h
  · unfold prepareSiteCache
    by_cases hc : c.enabled = true
    · obtain ⟨event, t, hfound, -, ⟨m, hm, -⟩, -⟩ := prepareEnabled_found c.packageManager c.updatedAt
        (lockfileSnapshot sha256 c.project c.packageManager) hinv.readable
      have hsome : t.metadata.isSome = true := by rw [hm]; rfl
      have hmounts : mounts c.packageManager ≠ [] := List.cons_ne_nil _ _
      rw [if_pos hc, hfound]
      dsimp only [State.returned]
      rw [if_neg hmounts]
      refine ⟨?_, fun _ _ => ⟨t, rfl, hsome⟩, fun n hb => (by cases hb)⟩
      rintro u ⟨⟩
      exact Or.inr (Or.inl hsome)
    · rw [if_neg hc]
      refine ⟨?_, fun n hb => (by cases hb), fun n hb => (by cases hb)⟩
      rintro u ⟨⟩
      exact Or.inr (Or.inr rfl)

theorem detach_ne_mounted (build : Option (ℕ × Phase)) (n : ℕ) : detach build ≠ some (n, .mounted) := by
  rcases build with _ | ⟨m, phase⟩
  · simp [detach]
  · cases phase <;> simp [detach]

theorem build_of_detach_prepared {build : Option (ℕ × Phase)} {n : ℕ} (h : detach build = some (n, .prepared)) :
    build = some (n, .prepared) := by
  rcases build with _ | ⟨m, phase⟩
  · cases h
  · cases phase
    · exact h
    · cases h
    · exact h

/-- The build that has the cache changes files. -/
theorem Marked.map (h : Marked s) {n : ℕ} (hb : s.build = some (n, .mounted)) {f : SiteRoot → SiteRoot}
    (hf : ∀ r, (f r).metadata = r.metadata) : Marked { s with root := s.root.map f } := by
  obtain ⟨r, hr, hsome⟩ := h.mounted n hb
  rw [← hf r] at hsome
  rw [hr, Option.map_some]
  refine ⟨?_, fun m hb' => ?_, fun m _ => ⟨f r, rfl, hsome⟩⟩
  · rintro u ⟨⟩
    exact Or.inr (Or.inl hsome)
  · have hphase := hb.symm.trans hb'
    cases hphase

/-- Files may go, and the root may go when no build waits. -/
theorem Marked.setRoot (h : Marked s) (hwait : ∀ n, s.build ≠ some (n, .prepared)) {root : Option SiteRoot}
    (hroot : ∀ r ∈ root, ∃ r₀ ∈ s.root,
      r.files ⊆ r₀.files ∧ r.disabledMarker = r₀.disabledMarker ∧ r.metadata = r₀.metadata) :
    Marked (s.setRoot root) := by
  have hmarked : ∀ r ∈ root, r.files = [] ∨ r.metadata.isSome = true ∨ r.disabledMarker = true := by
    intro r hr
    obtain ⟨r₀, hr₀, hsub, hmarker, hmetadata⟩ := hroot r hr
    rw [hmarker, hmetadata]
    refine (h.root r₀ hr₀).imp_left fun hempty => List.eq_nil_of_subset_nil ?_
    rwa [hempty] at hsub
  rcases root with _ | r
  · exact ⟨hmarked, fun n hb => absurd (build_of_detach_prepared hb) (hwait n),
      fun n hb => absurd hb (detach_ne_mounted s.build n)⟩
  · refine ⟨hmarked, fun n hb => absurd hb (hwait n), fun n hb => ?_⟩
    obtain ⟨r₀, hr₀, -, -, hmetadata⟩ := hroot r rfl
    obtain ⟨r₁, hr₁, hsome⟩ := h.mounted n hb
    obtain rfl := Option.some.inj (hr₁.symm.trans hr₀)
    exact ⟨r, rfl, by rw [hmetadata]; exact hsome⟩

theorem Marked.step (h : Marked s) (hinv : Inv s) {a : Action} (hset : Settled s a) :
    Marked (step sha256 s a) := by
  cases a with
  | prepare c => exact h.prepare hinv c
  | start =>
    dsimp only [CacheProvenance.step]
    split
    · next n hb =>
      obtain ⟨r, hr, hsome⟩ := h.waiting n hb
      have hmkdir : mkdir s.root = r := by rw [hr]; rfl
      rw [hmkdir]
      refine ⟨?_, fun n hb => (by cases hb), fun n hb => ⟨r, rfl, hsome⟩⟩
      rintro u ⟨⟩
      exact Or.inr (Or.inl hsome)
    · exact h
  | write directory name allowed =>
    dsimp only [CacheProvenance.step]
    split
    · next n hb => exact h.map hb fun _ => rfl
    · exact h
  | remove path =>
    dsimp only [CacheProvenance.step]
    split
    · next n hb => exact h.map hb fun _ => rfl
    · exact h
  | finish => exact ⟨h.root, fun n hb => (by cases hb), fun n hb => (by cases hb)⟩
  | prune c stat =>
    refine h.setRoot (hset (Or.inr ⟨c, stat, rfl⟩)) fun r hr => ?_
    obtain ⟨r₀, hr₀, hr⟩ := Option.bind_eq_some_iff.mp hr
    exact ⟨r₀, hr₀, pruneSite_spec c stat r₀ r hr⟩
  | reset => exact h.setRoot (hset (Or.inl rfl)) fun r hr => (by cases hr)

/-- A history in which the cache is pruned and reset only when no build waits for its container meets the
condition. -/
theorem covered_of_settled (sha256 : List (Fin 256) → PyStr) {as : List Action}
    (h : Along (step sha256) Settled State.init as) : Along (step sha256) Covered State.init as :=
  Along.of_invariant (I := fun s => Inv s ∧ Marked s)
    (fun _ a hset hs => ⟨hs.1.step (hs.2.covered a), hs.2.step hs.1 hset⟩) (fun _ a hs => hs.2.covered a) as h
    ⟨inv_init, marked_init⟩

end Machine

/-- A prepare call of a project without a lockfile. -/
def sampleCall : PrepareCall := ⟨.npm, fun _ => none, true, []⟩

/-- The cache is reset before the container of a build starts. -/
def sampleActs : List Action :=
  [.prepare sampleCall, .reset, .start, .write [] (py "entry") (by decide), .finish]

/-- The next call reports MISS and leaves the file of the earlier build in the cache. -/
theorem miss_with_files :
    (prepareSiteCache (fun _ => []) sampleCall (run (step fun _ => []) State.init sampleActs).root).1 =
      .ok ⟨mounts .npm, some .miss, none⟩ ∧
    (prepareSiteCache (fun _ => []) sampleCall (run (step fun _ => []) State.init sampleActs).root).2.map
      (fun t => t.files.map CacheFile.name) = some [py "entry"] ∧
    ¬ Along (step fun _ => []) (Provenance fun _ => []) State.init (sampleActs ++ [.prepare sampleCall]) := by
  refine ⟨rfl, rfl, fun halong => ?_⟩
  have hlast := (Along.append.mp halong).2.1
  obtain ⟨r, root, hcall, hpromise⟩ := hlast sampleCall rfl rfl
  cases hcall
  obtain ⟨t, ht, hempty⟩ := hpromise
  cases ht
  cases hempty

end BuildEngine.Executor.CacheProvenance
