import BuildEngine.Base.Eviction
import BuildEngine.Executor.Cache

/-! # What a prune leaves

`prune_cache` on all sites of a cache. The first pass removes the sites that have not been used since the cutoff, the
second one deletes the least recently read files of a site that is too large, and the site itself if what must stay
is too large. Files have any name at any depth; those named like the metadata or the marker stay wherever they are.
Directories below the roots hold nothing that is counted or compared, and are left out. The cutoff and the last access
of a site are datetimes, or the call raises (`Datetimes`). -/

namespace BuildEngine.Executor.CacheLimits

open BuildEngine.Base BuildEngine.Executor.Cache

/-! ### Times -/

/-- A time in microseconds since 1970 that is a datetime: it lies in the years 1 to 9999. -/
def isDatetime (t : ℤ) : Bool := -62135596800000000 ≤ t && t < 253402300800000000

/-- What the time arithmetic of `prune_cache` raises: the `OverflowError` of the cutoff, the `ValueError` or
`OverflowError` of the last access of a site. -/
inductive TimeError where
  | cutoff
  | lastAccess (site : PyStr)
  deriving DecidableEq

/-! ### Sites -/

/-- A regular file below the root of a site. Access times are only compared. -/
structure CacheEntry (τ : Type) where
  directory : List PyStr
  name : PyStr
  size : ℕ
  atime : τ
  deriving DecidableEq

/-- The path of a file below the root. -/
def CacheEntry.path {τ : Type} (f : CacheEntry τ) : List PyStr := f.directory ++ [f.name]

/-- The directory of a site: when it was changed, when its metadata were, if it has any, and its files. -/
structure Site (τ : Type) where
  name : PyStr
  mtime : ℤ
  metadataMtime : Option ℤ
  files : List (CacheEntry τ)
  nodup : (files.map CacheEntry.path).Nodup

/-- The cache directory, its sites in the order of their paths. -/
structure CacheRoot (τ : Type) where
  sites : List (Site τ)
  nodup : (sites.map Site.name).Nodup

/-- The arguments of `prune_cache`, and its clock. -/
structure Call where
  now : ℤ
  siteMaxBytes : ℕ
  ttlDays : ℤ
  excludeSiteIds : List PyStr

/-- `expires_before` -/
def Call.cutoff (c : Call) : ℤ := c.now - c.ttlDays * 86400000000

namespace Site
variable {τ : Type}

/-- `_last_access`, in microseconds. -/
def lastAccess (s : Site τ) : ℤ := s.metadataMtime.getD s.mtime

/-- `directory_size_bytes` -/
def directorySizeBytes (s : Site τ) : ℕ := total CacheEntry.size s.files

/-- The site with some of its files. -/
def withFiles (s : Site τ) (files : List (CacheEntry τ)) (h : files.Sublist s.files) : Site τ :=
  { s with
    files := files
    nodup := (h.map CacheEntry.path).nodup s.nodup }

/-- Files that `_prune_children_lru` may delete. -/
def isCandidate (f : CacheEntry τ) : Bool := f.name ∉ ignored

section Order
variable [LinearOrder τ]

/-- The candidates of `_prune_children_lru`, the least recently read first. -/
def candidates (s : Site τ) : List (CacheEntry τ) :=
  (s.files.filter isCandidate).insertionSort fun f g => f.atime ≤ g.atime

/-- `_prune_children_lru` -/
def pruneChildrenLru (maxBytes : ℕ) (s : Site τ) : Site τ :=
  s.withFiles (evict CacheEntry.path CacheEntry.size maxBytes s.candidates s.files)
    (evict_sublist _ _ maxBytes s.candidates s.files)

/-- The body of the second loop, on a site that is not excluded; `none` if the site is removed. -/
def limit (maxBytes : ℕ) (s : Site τ) : Option (Site τ) :=
  if s.directorySizeBytes ≤ maxBytes then some s
  else if (s.pruneChildrenLru maxBytes).directorySizeBytes > maxBytes then none
  else some (s.pruneChildrenLru maxBytes)

end Order

end Site

/-! ### The passes -/

section Passes
variable {τ : Type} [LinearOrder τ] (c : Call)

/-- The first loop, with the sites as it leaves them. -/
def expirePass : List (Site τ) → Except TimeError (List PyStr) × List (Site τ)
  | [] => (.ok [], [])
  | s :: sites =>
    if s.name ∈ c.excludeSiteIds then ((expirePass sites).1, s :: (expirePass sites).2)
    else if ¬ isDatetime s.lastAccess then (.error (.lastAccess s.name), s :: sites)
    else if s.lastAccess < c.cutoff then ((expirePass sites).1.map (s.name :: ·), (expirePass sites).2)
    else ((expirePass sites).1, s :: (expirePass sites).2)

/-- The second loop, with the sites as it leaves them. -/
def limitPass : List (Site τ) → List PyStr × List (Site τ)
  | [] => ([], [])
  | s :: sites =>
    if s.name ∈ c.excludeSiteIds then ((limitPass sites).1, s :: (limitPass sites).2)
    else match s.limit c.siteMaxBytes with
      | none => (s.name :: (limitPass sites).1, (limitPass sites).2)
      | some left => ((limitPass sites).1, left :: (limitPass sites).2)

/-- `prune_cache`: what it returns or raises, and the sites as it leaves them; `none` if there is no cache. -/
def pruneCache : Option (List (Site τ)) → Except TimeError (List PyStr) × Option (List (Site τ))
  | none => (.ok [], none)
  | some sites =>
    if ¬ isDatetime c.cutoff then (.error .cutoff, some sites)
    else match expirePass c sites with
      | (.error e, left) => (.error e, some left)
      | (.ok pruned, left) => (.ok (pruned ++ (limitPass c left).1), some (limitPass c left).2)

end Passes

/-! ### What is promised -/

section Promise
variable {τ : Type} [LinearOrder τ] (c : Call)

/-- The site after files of it were deleted to keep the limit. -/
structure Shrunk (maxBytes : ℕ) (before after : Site τ) : Prop where
  name : after.name = before.name
  kept : after.files.Sublist before.files
  ignored : ∀ f ∈ before.files, f.name ∈ ignored → f ∈ after.files
  lru : ∀ f ∈ before.files, f ∉ after.files → ∀ g ∈ after.files, g.name ∉ Cache.ignored → f.atime ≤ g.atime
  last : after.files = before.files ∨ ∃ f ∈ before.files, f ∉ after.files ∧
    (∀ g ∈ before.files, g ∉ after.files → g.atime ≤ f.atime) ∧ maxBytes < after.directorySizeBytes + f.size

/-- What `prune_cache` has done when it returns. -/
structure Pruned (before after : List (Site τ)) (pruned : List PyStr) : Prop where
  excluded : ∀ s ∈ before, s.name ∈ c.excludeSiteIds → s ∈ after
  expired : ∀ s ∈ before, s.name ∉ c.excludeSiteIds → s.lastAccess < c.cutoff → ∀ s' ∈ after, s'.name ≠ s.name
  bounded : ∀ s ∈ after, s.name ∉ c.excludeSiteIds → s.directorySizeBytes ≤ c.siteMaxBytes
  survivor : ∀ s' ∈ after, ∃ s ∈ before, Shrunk c.siteMaxBytes s s'
  untouched : ∀ s ∈ before, s.directorySizeBytes ≤ c.siteMaxBytes → c.cutoff ≤ s.lastAccess → s ∈ after
  returned : ∀ name, name ∈ pruned ↔ (∃ s ∈ before, s.name = name) ∧ ∀ s ∈ after, s.name ≠ name
  nodup : pruned.Nodup

/-- The cutoff and the last accesses that are looked at are datetimes. -/
def Datetimes (sites : List (Site τ)) : Prop :=
  isDatetime c.cutoff = true ∧ ∀ s ∈ sites, s.name ∉ c.excludeSiteIds → isDatetime s.lastAccess = true

end Promise

/-! ### One site -/

namespace Site
variable {τ : Type} [LinearOrder τ] {maxBytes : ℕ} {s s' : Site τ}

theorem mem_candidates {f : CacheEntry τ} : f ∈ s.candidates ↔ f ∈ s.files ∧ f.name ∉ ignored := by
  simp [candidates, isCandidate]

theorem pairwise_candidates (s : Site τ) : s.candidates.Pairwise fun f g => f.atime ≤ g.atime :=
  List.pairwise_insertionSort (fun f g : CacheEntry τ => f.atime ≤ g.atime) _

theorem nodup_candidates (s : Site τ) : (s.candidates.map CacheEntry.path).Nodup := by
  have hperm : s.candidates.Perm (s.files.filter isCandidate) := List.perm_insertionSort _ _
  have hfilter : ((s.files.filter isCandidate).map CacheEntry.path).Nodup :=
    (List.filter_sublist.map CacheEntry.path).nodup s.nodup
  exact (hperm.map CacheEntry.path).nodup_iff.mpr hfilter

omit [LinearOrder τ] in
theorem eq_of_path {f g : CacheEntry τ} (hf : f ∈ s.files) (hg : g ∈ s.files) (h : f.path = g.path) : f = g :=
  List.inj_on_of_nodup_map s.nodup hf hg h

/-- What `_prune_children_lru` has deleted: a first part of the candidates, the last file of which had to go. -/
theorem pruneChildrenLru_spec (maxBytes : ℕ) (s : Site τ) : ∃ gone left, s.candidates = gone ++ left ∧
    (∀ f, f ∈ (s.pruneChildrenLru maxBytes).files ↔ f ∈ s.files ∧ f ∉ gone) ∧
    (gone = [] → (s.pruneChildrenLru maxBytes).files = s.files) ∧
    ∀ before a, gone = before ++ [a] → maxBytes < (s.pruneChildrenLru maxBytes).directorySizeBytes + a.size := by
  obtain ⟨gone, left, hqueue, hresult, -, hlast⟩ :=
    evict_spec CacheEntry.path CacheEntry.size maxBytes s.candidates s.files
  have hfiles : (s.pruneChildrenLru maxBytes).files = without CacheEntry.path (gone.map CacheEntry.path) s.files :=
    hresult
  have hgone : ∀ g ∈ gone, g ∈ s.files := fun g hg =>
    (mem_candidates.mp (hqueue ▸ List.mem_append_left left hg)).1
  refine ⟨gone, left, hqueue, fun f => ?_, fun hnil => ?_, fun before a hbefore => ?_⟩
  · rw [hfiles, mem_without]
    constructor
    · rintro ⟨hf, hpath⟩
      exact ⟨hf, fun hmem => hpath (List.mem_map_of_mem hmem)⟩
    · rintro ⟨hf, hnot⟩
      refine ⟨hf, fun hpath => hnot ?_⟩
      obtain ⟨g, hg, heq⟩ := List.mem_map.mp hpath
      rwa [← eq_of_path (hgone g hg) hf heq]
  · rw [hfiles, hnil, List.map_nil, without_nil]
  · have hheavy := hlast before a hbefore
    have hnodup := nodup_candidates s
    rw [hqueue, hbefore, List.map_append, List.map_append] at hnodup
    have hnew : a.path ∉ before.map CacheEntry.path := by
      have hdisjoint := (List.nodup_append.mp (List.nodup_append.mp hnodup).1).2.2
      intro hmem
      exact hdisjoint a.path hmem a.path (by simp) rfl
    have ha : a ∈ without CacheEntry.path (before.map CacheEntry.path) s.files :=
      mem_without.mpr ⟨hgone a (by simp [hbefore]), hnew⟩
    have hstore : ((without CacheEntry.path (before.map CacheEntry.path) s.files).map CacheEntry.path).Nodup :=
      ((without_sublist _ _ _).map CacheEntry.path).nodup s.nodup
    have htotal : total CacheEntry.size (without CacheEntry.path [a.path]
        (without CacheEntry.path (before.map CacheEntry.path) s.files)) + a.size =
          total CacheEntry.size (without CacheEntry.path (before.map CacheEntry.path) s.files) := total_without hstore ha
    rw [without_without] at htotal
    unfold directorySizeBytes
    rw [hfiles, hbefore, List.map_append, List.map_singleton]
    omega

theorem shrunk_refl (maxBytes : ℕ) (s : Site τ) : Shrunk maxBytes s s :=
  ⟨rfl, List.Sublist.refl _, fun _ hf _ => hf, fun _ hf hnot => absurd hf hnot, Or.inl rfl⟩

/-- Pruning deletes the least recently read files, and no more than it must. -/
theorem shrunk_pruneChildrenLru (maxBytes : ℕ) (s : Site τ) : Shrunk maxBytes s (s.pruneChildrenLru maxBytes) := by
  obtain ⟨gone, left, hqueue, hfiles, hnone, hlast⟩ := pruneChildrenLru_spec maxBytes s
  have hsorted := pairwise_candidates s
  rw [hqueue] at hsorted
  have hgone : ∀ f ∈ s.files, f ∉ (s.pruneChildrenLru maxBytes).files → f ∈ gone := fun f hf hnot =>
    by_contra fun hno => hnot ((hfiles f).mpr ⟨hf, hno⟩)
  have hcandidate : ∀ f ∈ gone, f ∈ s.files ∧ f.name ∉ ignored := fun f hf =>
    mem_candidates.mp (hqueue ▸ List.mem_append_left left hf)
  refine ⟨rfl, evict_sublist _ _ maxBytes _ _, fun f hf hname => ?_, fun f hf hnot g hg hname => ?_, ?_⟩
  · exact (hfiles f).mpr ⟨hf, fun hmem => (hcandidate f hmem).2 hname⟩
  · obtain ⟨hgfiles, hgnot⟩ := (hfiles g).mp hg
    have hmem : g ∈ gone ++ left := hqueue ▸ mem_candidates.mpr ⟨hgfiles, hname⟩
    have hleft : g ∈ left := (List.mem_append.mp hmem).resolve_left hgnot
    exact (List.pairwise_append.mp hsorted).2.2 f (hgone f hf hnot) g hleft
  · rcases List.eq_nil_or_concat gone with rfl | ⟨before, a, hbefore⟩
    · exact Or.inl (hnone rfl)
    · rw [List.concat_eq_append] at hbefore
      have ha : a ∈ gone := by simp [hbefore]
      refine Or.inr ⟨a, (hcandidate a ha).1, fun hmem => ((hfiles a).mp hmem).2 ha, fun g hg hnot => ?_,
        hlast before a hbefore⟩
      have hmem := hgone g hg hnot
      rw [hbefore] at hmem hsorted
      rcases List.mem_append.mp hmem with hfirst | hself
      · exact (List.pairwise_append.mp (List.pairwise_append.mp hsorted).1).2.2 g hfirst a (by simp)
      · rw [List.mem_singleton.mp hself]

/-- A site that the second loop leaves is small enough. -/
theorem of_limit (h : s.limit maxBytes = some s') :
    Shrunk maxBytes s s' ∧ s'.directorySizeBytes ≤ maxBytes := by
  unfold limit at h
  split_ifs at h with hfits hover
  · obtain rfl := Option.some.inj h
    exact ⟨shrunk_refl maxBytes s, hfits⟩
  · obtain rfl := Option.some.inj h
    exact ⟨shrunk_pruneChildrenLru maxBytes s, not_lt.mp hover⟩

theorem limit_of_fits (h : s.directorySizeBytes ≤ maxBytes) : s.limit maxBytes = some s := if_pos h

end Site

/-! ### All sites -/

section Passes
variable {τ : Type} [LinearOrder τ] (c : Call)

/-- The first loop removes the site. -/
def isExpired (s : Site τ) : Bool := s.name ∉ c.excludeSiteIds && s.lastAccess < c.cutoff

/-- What the second loop makes of a site. -/
def limited (s : Site τ) : Option (Site τ) :=
  if s.name ∈ c.excludeSiteIds then some s else s.limit c.siteMaxBytes

omit [LinearOrder τ] in
theorem expirePass_eq : ∀ {sites : List (Site τ)},
    (∀ s ∈ sites, s.name ∉ c.excludeSiteIds → isDatetime s.lastAccess = true) →
    expirePass c sites =
      (.ok ((sites.filter fun s => isExpired c s).map Site.name), sites.filter fun s => !isExpired c s)
  | [], _ => rfl
  | s :: sites, h => by
    have hrest := expirePass_eq fun t ht => h t (List.mem_cons_of_mem s ht)
    unfold expirePass
    rw [hrest]
    by_cases hexcluded : s.name ∈ c.excludeSiteIds
    · have hkeep : isExpired c s = false := by simp [isExpired, hexcluded]
      rw [if_pos hexcluded, List.filter_cons_of_neg (by simp [hkeep]), List.filter_cons_of_pos (by simp [hkeep])]
    · have htime := h s List.mem_cons_self hexcluded
      rw [if_neg hexcluded, if_neg (not_not.mpr htime)]
      by_cases hold : s.lastAccess < c.cutoff
      · have hgone : isExpired c s = true := by simp [isExpired, hexcluded, hold]
        rw [if_pos hold, List.filter_cons_of_pos (by simp [hgone]), List.filter_cons_of_neg (by simp [hgone])]
        rfl
      · have hkeep : isExpired c s = false := by simp [isExpired, hold]
        rw [if_neg hold, List.filter_cons_of_neg (by simp [hkeep]), List.filter_cons_of_pos (by simp [hkeep])]

omit [LinearOrder τ] in
theorem expirePass_error : ∀ {sites : List (Site τ)}, (∃ s ∈ sites, s.name ∉ c.excludeSiteIds ∧
    ¬ isDatetime s.lastAccess = true) → ∃ e left, expirePass c sites = (.error e, left)
  | [], h => by
    obtain ⟨s, hs, -⟩ := h
    exact absurd hs List.not_mem_nil
  | s :: sites, h => by
    unfold expirePass
    by_cases hfirst : s.name ∉ c.excludeSiteIds ∧ ¬ isDatetime s.lastAccess = true
    · rw [if_neg hfirst.1, if_pos hfirst.2]
      exact ⟨_, _, rfl⟩
    · obtain ⟨t, ht, hbad⟩ := h
      have hmem : t ∈ sites := (List.mem_cons.mp ht).resolve_left fun heq => hfirst (heq ▸ hbad)
      obtain ⟨e, left, hrest⟩ := expirePass_error ⟨t, hmem, hbad⟩
      rw [hrest]
      split_ifs <;> exact ⟨_, _, rfl⟩

theorem limitPass_eq : ∀ sites : List (Site τ), limitPass c sites =
    ((sites.filter fun s => (limited c s).isNone).map Site.name, sites.filterMap (limited c))
  | [] => rfl
  | s :: sites => by
    have hrest := limitPass_eq sites
    unfold limitPass
    rw [hrest]
    by_cases hexcluded : s.name ∈ c.excludeSiteIds
    · have hlimited : limited c s = some s := if_pos hexcluded
      rw [if_pos hexcluded, List.filter_cons_of_neg (by simp [hlimited]), List.filterMap_cons_some hlimited]
    · have hlimited : limited c s = s.limit c.siteMaxBytes := if_neg hexcluded
      rw [if_neg hexcluded]
      rcases hlimit : s.limit c.siteMaxBytes with _ | left
      · rw [hlimit] at hlimited
        rw [List.filter_cons_of_pos (by simp [hlimited]), List.filterMap_cons_none hlimited]
        rfl
      · rw [hlimit] at hlimited
        rw [List.filter_cons_of_neg (by simp [hlimited]), List.filterMap_cons_some hlimited]

variable {c}

theorem of_limited {s s' : Site τ} (h : limited c s = some s') : Shrunk c.siteMaxBytes s s' ∧
    (s'.name ∉ c.excludeSiteIds → s'.directorySizeBytes ≤ c.siteMaxBytes) := by
  unfold limited at h
  split_ifs at h with hexcluded
  · obtain rfl := Option.some.inj h
    exact ⟨Site.shrunk_refl _ s, fun hnot => absurd hexcluded hnot⟩
  · obtain ⟨hshrunk, hfits⟩ := Site.of_limit h
    exact ⟨hshrunk, fun _ => hfits⟩

/-- The two passes keep the promise. -/
theorem pruned_passes (root : CacheRoot τ) : Pruned c root.sites
    ((root.sites.filter fun s => !isExpired c s).filterMap (limited c))
    ((root.sites.filter fun s => isExpired c s).map Site.name ++
      ((root.sites.filter fun s => !isExpired c s).filter fun s => (limited c s).isNone).map Site.name) := by
  have hafter : ∀ s', s' ∈ (root.sites.filter fun s => !isExpired c s).filterMap (limited c) ↔
      ∃ s ∈ root.sites, isExpired c s = false ∧ limited c s = some s' := by
    intro s'
    simp only [List.mem_filterMap, List.mem_filter, Bool.not_eq_true', and_assoc]
  have hsame : ∀ s ∈ root.sites, ∀ t ∈ root.sites, s.name = t.name → s = t := fun s hs t ht h =>
    List.inj_on_of_nodup_map root.nodup hs ht h
  refine ⟨fun s hs hexcluded => ?_, fun s hs hnot hold s' hs' heq => ?_, fun s' hs' hnot => ?_, fun s' hs' => ?_,
    fun s hs hfits hrecent => ?_, fun name => ⟨fun hname => ?_, ?_⟩, ?_⟩
  · exact (hafter s).mpr ⟨s, hs, by simp [isExpired, hexcluded], if_pos hexcluded⟩
  · obtain ⟨t, ht, hkeep, hlimited⟩ := (hafter s').mp hs'
    obtain rfl := hsame t ht s hs ((of_limited hlimited).1.name.symm.trans heq)
    simp [isExpired, hnot, hold] at hkeep
  · obtain ⟨s, -, -, hlimited⟩ := (hafter s').mp hs'
    exact (of_limited hlimited).2 hnot
  · obtain ⟨s, hs, -, hlimited⟩ := (hafter s').mp hs'
    exact ⟨s, hs, (of_limited hlimited).1⟩
  · refine (hafter s).mpr ⟨s, hs, by simp [isExpired, not_lt.mpr hrecent], ?_⟩
    unfold limited
    split_ifs
    · rfl
    · exact Site.limit_of_fits hfits
  · have hgone : ∃ s ∈ root.sites, s.name = name ∧ (isExpired c s = true ∨ limited c s = none) := by
      rcases List.mem_append.mp hname with hmem | hmem
      · obtain ⟨s, hs, rfl⟩ := List.mem_map.mp hmem
        exact ⟨s, (List.mem_filter.mp hs).1, rfl, Or.inl (List.mem_filter.mp hs).2⟩
      · obtain ⟨s, hs, rfl⟩ := List.mem_map.mp hmem
        obtain ⟨hs, hnone⟩ := List.mem_filter.mp hs
        exact ⟨s, (List.mem_filter.mp hs).1, rfl, Or.inr (Option.isNone_iff_eq_none.mp hnone)⟩
    obtain ⟨s, hs, rfl, hgone⟩ := hgone
    refine ⟨⟨s, hs, rfl⟩, fun s' hs' heq => ?_⟩
    obtain ⟨t, ht, hkeep, hlimited⟩ := (hafter s').mp hs'
    obtain rfl := hsame t ht s hs ((of_limited hlimited).1.name.symm.trans heq)
    rcases hgone with hexpired | hnone
    · rw [hexpired] at hkeep
      cases hkeep
    · rw [hnone] at hlimited
      cases hlimited
  · rintro ⟨⟨s, hs, rfl⟩, habsent⟩
    rw [List.mem_append]
    rcases hexpired : isExpired c s with _ | _
    · rcases hlimited : limited c s with _ | s'
      · exact Or.inr (List.mem_map_of_mem (List.mem_filter.mpr
          ⟨List.mem_filter.mpr ⟨hs, by simp [hexpired]⟩, by simp [hlimited]⟩))
      · have hmem := (hafter s').mpr ⟨s, hs, hexpired, hlimited⟩
        exact absurd (of_limited hlimited).1.name (habsent s' hmem)
    · exact Or.inl (List.mem_map_of_mem (List.mem_filter.mpr ⟨hs, hexpired⟩))
  · have hfirst : (root.sites.filter fun s => isExpired c s).Sublist root.sites := List.filter_sublist
    have hsecond : ((root.sites.filter fun s => !isExpired c s).filter fun s => (limited c s).isNone).Sublist
        root.sites := List.filter_sublist.trans List.filter_sublist
    refine List.nodup_append.mpr ⟨(hfirst.map Site.name).nodup root.nodup, (hsecond.map Site.name).nodup root.nodup,
      ?_⟩
    rintro a ha b hb rfl
    obtain ⟨s, hs, rfl⟩ := List.mem_map.mp ha
    obtain ⟨t, ht, heq⟩ := List.mem_map.mp hb
    obtain ⟨hs, hexpired⟩ := List.mem_filter.mp hs
    obtain ⟨ht, hkeep⟩ := List.mem_filter.mp (List.mem_filter.mp ht).1
    obtain rfl := hsame t ht s hs heq
    rw [hexpired] at hkeep
    cases hkeep

/-- **Pruning keeps its promise** if the times are datetimes, and raises if they are not. -/
theorem pruneCache_spec (c : Call) (root : CacheRoot τ) :
    (Datetimes c root.sites ∧ ∃ pruned after, pruneCache c (some root.sites) = (.ok pruned, some after) ∧
      Pruned c root.sites after pruned) ∨
    (¬ Datetimes c root.sites ∧ ∃ e after, pruneCache c (some root.sites) = (.error e, after)) := by
  unfold pruneCache
  dsimp only
  by_cases hcutoff : isDatetime c.cutoff = true
  · rw [if_neg (not_not.mpr hcutoff)]
    by_cases htimes : ∀ s ∈ root.sites, s.name ∉ c.excludeSiteIds → isDatetime s.lastAccess = true
    · refine Or.inl ⟨⟨hcutoff, htimes⟩, ?_⟩
      rw [expirePass_eq c htimes]
      dsimp only
      rw [limitPass_eq]
      exact ⟨_, _, rfl, pruned_passes root⟩
    · refine Or.inr ⟨fun h => htimes h.2, ?_⟩
      obtain ⟨e, left, hraise⟩ := expirePass_error c (by simpa using htimes)
      rw [hraise]
      exact ⟨e, _, rfl⟩
  · refine Or.inr ⟨fun h => hcutoff h.1, ?_⟩
    rw [if_pos hcutoff]
    exact ⟨_, _, rfl⟩

end Passes

/-- A site with a file of ten bytes. -/
def largeSite : Site ℤ := ⟨py "site-a", 0, none, [⟨[], py "entry", 10, 0⟩], by decide⟩

/-- A cache with this site. -/
def largeRoot : CacheRoot ℤ := ⟨[largeSite], by decide⟩

/-- A prune at the end of 2025 that keeps five bytes for a million days. -/
def longCall : Call := ⟨1767139200000000, 5, 1000000, []⟩

/-- The cutoff would be before the year 1. -/
theorem longCall_raises : pruneCache longCall (some largeRoot.sites) = (.error .cutoff, some [largeSite]) ∧
    ¬ ∃ pruned after, pruneCache longCall (some largeRoot.sites) = (.ok pruned, some after) ∧
      Pruned longCall largeRoot.sites after pruned := by
  have hraise : pruneCache longCall (some largeRoot.sites) = (.error .cutoff, some [largeSite]) := rfl
  refine ⟨hraise, ?_⟩
  rintro ⟨pruned, after, hok, -⟩
  rw [hraise] at hok
  cases hok

/-! ### The directory of a site -/

/-- A file of a site directory, with what `stat` says of it. -/
def entry (stat : Stat) (f : CacheFile) : CacheEntry ℤ :=
  ⟨f.directory, f.name, stat.size f.path, stat.atime f.path⟩

/-- A file in the root of a site. -/
def rootEntry (stat : Stat) (name : PyStr) : CacheEntry ℤ := ⟨[], name, stat.size [name], stat.atime [name]⟩

/-- The files in the root of a site that stay. -/
def ignoredEntries (stat : Stat) (root : SiteRoot) : List (CacheEntry ℤ) :=
  (if root.disabledMarker then [rootEntry stat disabledMarkerFilename] else []) ++
    if root.metadata.isSome then [rootEntry stat metadataFilename] else []

/-- All files of a site directory. -/
def entries (stat : Stat) (root : SiteRoot) : List (CacheEntry ℤ) :=
  ignoredEntries stat root ++ root.files.map (entry stat)

theorem name_of_mem_ignoredEntries {stat : Stat} {root : SiteRoot} {f : CacheEntry ℤ}
    (h : f ∈ ignoredEntries stat root) : f.name ∈ ignored ∧ f.directory = [] := by
  have hmarker : disabledMarkerFilename ∈ ignored := by decide
  have hmetadata : metadataFilename ∈ ignored := by decide
  unfold ignoredEntries at h
  split_ifs at h <;> simp [rootEntry] at h
  · rcases h with rfl | rfl
    · exact ⟨hmarker, rfl⟩
    · exact ⟨hmetadata, rfl⟩
  · rw [h]
    exact ⟨hmarker, rfl⟩
  · rw [h]
    exact ⟨hmetadata, rfl⟩

theorem total_entries (stat : Stat) (root : SiteRoot) :
    total CacheEntry.size (entries stat root) = Cache.directorySizeBytes stat root := by
  unfold total entries ignoredEntries Cache.directorySizeBytes
  split_ifs <;> simp [rootEntry, entry, Function.comp_def, CacheFile.path, Nat.add_assoc]

theorem without_entries (stat : Stat) (root : SiteRoot) (f : CacheFile) :
    without CacheEntry.path [f.path] (entries stat root) = entries stat (root.unlink f.path) := by
  have hkept : without CacheEntry.path [f.path] (ignoredEntries stat root) = ignoredEntries stat root := by
    refine List.filter_eq_self.mpr fun g hg => ?_
    simp only [decide_eq_true_eq]
    refine fun hmem => f.allowed ?_
    obtain ⟨hname, -⟩ := name_of_mem_ignoredEntries hg
    have hpath : g.directory ++ [g.name] = f.directory ++ [f.name] := List.mem_singleton.mp hmem
    rwa [(List.append_inj' hpath rfl).2 |> List.singleton_inj.mp] at hname
  have hsame : ignoredEntries stat (root.unlink f.path) = ignoredEntries stat root := rfl
  unfold entries
  rw [hsame, ← hkept]
  unfold without SiteRoot.unlink
  rw [List.filter_append, List.filter_filter, List.filter_map]
  simp [Function.comp_def, CacheEntry.path, entry, CacheFile.path]
  rfl

/-- `_prune_children_lru` on a site directory deletes the same files. -/
theorem evict_entries (stat : Stat) (maxBytes : ℕ) : ∀ (fs : List CacheFile) (root : SiteRoot),
    evict CacheEntry.path CacheEntry.size maxBytes (fs.map (entry stat)) (entries stat root) =
      entries stat (Cache.pruneChildrenLru stat maxBytes fs root)
  | [], _ => rfl
  | f :: fs, root => by
    have hpath : (entry stat f).path = f.path := rfl
    rw [List.map_cons, evict, Cache.pruneChildrenLru, total_entries, hpath, without_entries]
    split_ifs
    · rfl
    · exact evict_entries stat maxBytes fs (root.unlink f.path)

theorem candidates_entries (stat : Stat) (s : Site ℤ) (root : SiteRoot) (h : s.files = entries stat root) :
    s.candidates = (Cache.candidates stat root).map (entry stat) := by
  have hnone : (ignoredEntries stat root).filter Site.isCandidate = [] :=
    List.filter_eq_nil_iff.mpr fun f hf => by simp [Site.isCandidate, (name_of_mem_ignoredEntries hf).1]
  have hall : (root.files.map (entry stat)).filter Site.isCandidate = root.files.map (entry stat) := by
    refine List.filter_eq_self.mpr fun f hf => ?_
    obtain ⟨g, -, rfl⟩ := List.mem_map.mp hf
    exact decide_eq_true g.allowed
  have hfiles : (root.files.filter fun f => f.name ∉ ignored) = root.files :=
    List.filter_eq_self.mpr fun f _ => decide_eq_true f.allowed
  unfold Site.candidates Cache.candidates
  rw [h, entries, List.filter_append, hnone, hall, hfiles, List.nil_append]
  exact (List.map_insertionSort (r := fun f g : CacheFile => stat.atime f.path ≤ stat.atime g.path)
    (s := fun f g : CacheEntry ℤ => f.atime ≤ g.atime) (entry stat) root.files fun _ _ _ _ => Iff.rfl).symm

/-- **The second loop on a site directory** does what it does to a site with the same files. -/
theorem limit_entries (call : PruneCall) (stat : Stat) (s : Site ℤ) (root : SiteRoot) (h : s.files = entries stat root) :
    (s.limit call.siteMaxBytes).map Site.files = (Cache.limitSite call stat root).map (entries stat) := by
  have hsize : s.directorySizeBytes = Cache.directorySizeBytes stat root := by
    unfold Site.directorySizeBytes
    rw [h, total_entries]
  have hpruned : (s.pruneChildrenLru call.siteMaxBytes).files =
      entries stat (Cache.pruneChildrenLru stat call.siteMaxBytes (Cache.candidates stat root) root) := by
    have hfiles : (s.pruneChildrenLru call.siteMaxBytes).files =
        evict CacheEntry.path CacheEntry.size call.siteMaxBytes s.candidates s.files := rfl
    rw [hfiles, candidates_entries stat s root h, h, evict_entries]
  have hprunedSize : (s.pruneChildrenLru call.siteMaxBytes).directorySizeBytes = Cache.directorySizeBytes stat
      (Cache.pruneChildrenLru stat call.siteMaxBytes (Cache.candidates stat root) root) := by
    unfold Site.directorySizeBytes
    rw [hpruned, total_entries]
  unfold Site.limit Cache.limitSite
  dsimp only
  rw [hsize, hprunedSize]
  split_ifs
  · rw [Option.map_some, Option.map_some, h]
  · rfl
  · rw [Option.map_some, Option.map_some, hpruned]

end BuildEngine.Executor.CacheLimits
