import BuildEngine.Executor.Cache
import BuildEngine.Base.Run

/-! # Pruning beside other workers

Every worker prepares the cache of its own site and then runs `prune_cache`, which leaves out that site and takes
no lock, in a thread: between two of its steps everything else may happen. The machine has the site directories,
the jobs of the workers, and the prunes; a step of a prune is one look at the file system or one deletion.
`_site_roots` makes the list a loop goes through when the loop starts. Directories below the roots are left out,
so a step of `_remove_empty_dirs` changes nothing. A prune that nothing interrupts does what `pruneSite` says
(`prune_alone`). -/

namespace BuildEngine.Executor.CachePruning

open BuildEngine.Base BuildEngine.Base.Run BuildEngine.Executor.Cache

/-- Where a prune is. -/
inductive Point where
  /-- The first loop. -/
  | expiry (todo : List PyStr)
  /-- The second loop. -/
  | limits (todo : List PyStr)
  /-- `_prune_children_lru`, before the next look at the size of the site. -/
  | shrinking (site : PyStr) (left : List CacheFile) (todo : List PyStr)
  | unlinking (site : PyStr) (file : CacheFile) (left : List CacheFile) (todo : List PyStr)
  /-- `_remove_empty_dirs` -/
  | sweeping (site : PyStr) (todo : List PyStr)
  /-- Before the last look at the size of the site. -/
  | checking (site : PyStr) (todo : List PyStr)
  /-- `_remove_site_root`, called in the first or the second loop. -/
  | removing (site : PyStr) (second : Bool) (todo : List PyStr)

/-- A call of `prune_cache`: the site it leaves out, its other arguments, and where it is. -/
structure Prune where
  own : PyStr
  call : PruneCall
  point : Point

/-- The directories, the site of every worker's job, and every worker's prune. A worker has a job of a site from
the call of `prepare_site_cache` until its container has ended. -/
structure State (n : ℕ) where
  dirs : PyStr → Option SiteRoot
  jobs : Fin n → Option PyStr
  prunes : Fin n → Option Prune

/-- Some caches, and no jobs. -/
def State.init {n : ℕ} (dirs : PyStr → Option SiteRoot) : State n := ⟨dirs, fun _ => none, fun _ => none⟩

/-- What happens. -/
inductive Action (n : ℕ) where
  /-- A worker calls `prepare_site_cache`. -/
  | call (w : Fin n) (site : PyStr)
  /-- The call reads and writes the directory. -/
  | prepare (w : Fin n) (c : PrepareCall)
  /-- The container of a worker writes a file. -/
  | write (w : Fin n) (file : CacheFile)
  /-- The container has ended, or the job has before it started. -/
  | exit (w : Fin n)
  /-- `prune_cache` is called, and a loop of it finds these directories. -/
  | prune (w : Fin n) (c : PruneCall) (sites : List PyStr)
  | relist (w : Fin n) (sites : List PyStr)
  /-- The prune looks at the directory it has come to. -/
  | look (w : Fin n) (stat : Stat)
  /-- The prune deletes the file at a path, or the last of what it is deleting. -/
  | delete (w : Fin n) (path : List PyStr)
  | deleteLast (w : Fin n)

/-- The size `directory_size_bytes` finds: nothing, if the directory is not there. -/
def sizeOf (stat : Stat) (root : Option SiteRoot) : ℕ := (root.map (directorySizeBytes stat)).getD 0

/-- One look: where the prune goes on. -/
def lookAt (p : Prune) (dirs : PyStr → Option SiteRoot) (stat : Stat) : Point → Point
  | .expiry (t :: todo) =>
    if t = p.own then .expiry todo else if expired p.call stat then .removing t false todo else .expiry todo
  | .limits (t :: todo) =>
    if t = p.own then .limits todo
    else if sizeOf stat (dirs t) ≤ p.call.siteMaxBytes then .limits todo
    else .shrinking t ((dirs t).elim [] (candidates stat)) todo
  | .shrinking t [] todo => .sweeping t todo
  | .shrinking t (f :: left) todo =>
    if sizeOf stat (dirs t) ≤ p.call.siteMaxBytes then .checking t todo else .unlinking t f left todo
  | .checking t todo =>
    if sizeOf stat (dirs t) > p.call.siteMaxBytes then .removing t true todo else .limits todo
  | point => point

/-- The site a prune has found expired or over its limit, and has not done with. -/
def Point.condemned : Point → Option PyStr
  | .expiry _ | .limits _ => none
  | .shrinking t _ _ | .unlinking t _ _ _ | .sweeping t _ | .checking t _ | .removing t _ _ => some t

/-- A directory is changed, or removed. -/
def State.setDir {n : ℕ} (s : State n) (t : PyStr) (root : Option SiteRoot) : State n :=
  { s with dirs := Function.update s.dirs t root }

/-- A prune goes on. -/
def State.goto {n : ℕ} (s : State n) (w : Fin n) (p : Prune) (point : Point) : State n :=
  { s with prunes := Function.update s.prunes w (some { p with point := point }) }

section Machine
variable {n : ℕ} (sha256 : List (Fin 256) → PyStr)

/-- A deletion of a prune: of the file it has come to, or, in a directory that is removed, of any file. -/
def deleteAt (s : State n) (w : Fin n) (p : Prune) (path : List PyStr) : State n :=
  match p.point with
  | .unlinking t f left todo =>
    (s.setDir t ((s.dirs t).map fun r => r.unlink f.path)).goto w p (.shrinking t left todo)
  | .removing t _ _ => s.setDir t ((s.dirs t).map fun r => r.unlink path)
  | _ => s

/-- The last deletion: of the empty directories, or of the root. -/
def deleteLastAt (s : State n) (w : Fin n) (p : Prune) : State n :=
  match p.point with
  | .sweeping t todo => s.goto w p (.checking t todo)
  | .removing t second todo => (s.setDir t none).goto w p (if second then .limits todo else .expiry todo)
  | _ => s

/-- One thing that happens; what is not enabled changes nothing. -/
def step (s : State n) : Action n → State n
  | .call w t =>
    match s.jobs w with
    | none => { s with jobs := Function.update s.jobs w (some t) }
    | some _ => s
  | .prepare w c =>
    match s.jobs w with
    | none => s
    | some t => s.setDir t (prepareSiteCache sha256 c (s.dirs t)).2
  | .write w f =>
    match s.jobs w with
    | none => s
    | some t => s.setDir t ((s.dirs t).map fun r => { r with files := (r.unlink f.path).files ++ [f] })
  | .exit w => { s with jobs := Function.update s.jobs w none }
  | .prune w c sites =>
    match s.jobs w, s.prunes w with
    | some t, none => { s with prunes := Function.update s.prunes w (some ⟨t, c, .expiry sites⟩) }
    | _, _ => s
  | .relist w sites =>
    match s.prunes w with
    | some p =>
      match p.point with
      | .expiry [] => s.goto w p (.limits sites)
      | .limits [] => { s with prunes := Function.update s.prunes w none }
      | _ => s
    | none => s
  | .look w stat =>
    match s.prunes w with
    | some p => s.goto w p (lookAt p s.dirs stat p.point)
    | none => s
  | .delete w path =>
    match s.prunes w with
    | some p => deleteAt s w p path
    | none => s
  | .deleteLast w =>
    match s.prunes w with
    | some p => deleteLastAt s w p
    | none => s

/-- A job of the site is between its call of `prepare_site_cache` and the end of its container. -/
def InUse (s : State n) (t : PyStr) : Prop := ∃ w, s.jobs w = some t

instance (s : State n) (t : PyStr) : Decidable (InUse s t) := inferInstanceAs (Decidable (∃ w, s.jobs w = some t))

/-- The site a step of a prune deletes from. -/
def deletes (s : State n) : Action n → Option PyStr
  | .delete w _ =>
    match s.prunes w with
    | some p =>
      match p.point with
      | .unlinking t _ _ _ | .removing t _ _ => some t
      | _ => none
    | none => none
  | .deleteLast w =>
    match s.prunes w with
    | some p =>
      match p.point with
      | .sweeping t _ | .removing t _ _ => some t
      | _ => none
    | none => none
  | _ => none

/-- The step deletes nothing of a site in use. -/
def Spared (s : State n) (a : Action n) : Prop := ∀ t, deletes s a = some t → ¬ InUse s t

/-- A look that finds a site expired or over its limit. -/
def condemns (s : State n) : Action n → Option PyStr
  | .look w stat =>
    match s.prunes w with
    | some p => if p.point.condemned = none then (lookAt p s.dirs stat p.point).condemned else none
    | none => none
  | _ => none

/-- A site in use is never found expired or over its limit, and no job starts with a site that a prune has found
so and has not done with. -/
structure Apart (s : State n) (a : Action n) : Prop where
  look : ∀ t ∈ condemns s a, ¬ InUse s t
  call : ∀ w t, a = .call w t → ∀ v, ∀ p ∈ s.prunes v, p.point.condemned ≠ some t

/-! ### The invariant -/

/-- No site that a prune has found expired or over its limit is in use. -/
def Inv (s : State n) : Prop := ∀ v, ∀ p ∈ s.prunes v, ∀ t ∈ p.point.condemned, ¬ InUse s t

variable {sha256} {s : State n}

/-- What a prune deletes from it has condemned. -/
theorem condemned_of_deletes {a : Action n} {t : PyStr} (h : deletes s a = some t) :
    ∃ v, ∃ p ∈ s.prunes v, p.point.condemned = some t := by
  cases a with
  | delete w path =>
    dsimp only [deletes] at h
    split at h
    · next p hp =>
      refine ⟨w, p, hp, ?_⟩
      split at h
      · next hpoint => rw [hpoint]; exact h
      · next hpoint => rw [hpoint]; exact h
      · cases h
    · cases h
  | deleteLast w =>
    dsimp only [deletes] at h
    split at h
    · next p hp =>
      refine ⟨w, p, hp, ?_⟩
      split at h
      · next hpoint => rw [hpoint]; exact h
      · next hpoint => rw [hpoint]; exact h
      · cases h
    · cases h
  | call | prepare | write | exit | prune | relist | look => cases h

theorem spared_of_inv (h : Inv s) (a : Action n) : Spared s a := by
  intro t ht
  obtain ⟨v, p, hp, hcondemned⟩ := condemned_of_deletes ht
  exact h v p hp t hcondemned

/-- A prune that goes on with nothing more condemned keeps the invariant. -/
theorem Inv.goto (h : Inv s) {w : Fin n} {p : Prune} {point : Point}
    (hpoint : ∀ t ∈ point.condemned, ¬ InUse s t) : Inv (s.goto w p point) := by
  intro v q hq t ht
  by_cases hv : v = w
  · subst hv
    have hsame : (s.goto v p point).prunes v = some { p with point := point } := Function.update_self ..
    obtain rfl := Option.some.inj (hsame.symm.trans hq)
    exact hpoint t ht
  · have hother : (s.goto w p point).prunes v = s.prunes v := Function.update_of_ne hv ..
    rw [hother] at hq
    exact h v q hq t ht

theorem Inv.setDir (h : Inv s) (t : PyStr) (root : Option SiteRoot) : Inv (s.setDir t root) := h

/-! ### One step -/

/-- A look condemns no other site before the prune has done with the last. -/
theorem condemned_lookAt {p : Prune} {dirs : PyStr → Option SiteRoot} {stat : Stat} {point : Point} {t : PyStr}
    (h : point.condemned = some t) : ∀ u ∈ (lookAt p dirs stat point).condemned, u = t := by
  intro u hu
  cases point with
  | expiry todo => cases h
  | limits todo => cases h
  | shrinking site left todo =>
    obtain rfl := Option.some.inj h
    cases left with
    | nil => exact (Option.some.inj hu).symm
    | cons f left =>
      dsimp only [lookAt] at hu
      split_ifs at hu
      · exact (Option.some.inj hu).symm
      · exact (Option.some.inj hu).symm
  | checking site todo =>
    obtain rfl := Option.some.inj h
    dsimp only [lookAt] at hu
    split_ifs at hu
    · exact (Option.some.inj hu).symm
    · cases hu
  | unlinking | sweeping | removing => exact Option.some.inj (hu.symm.trans h)

theorem Inv.look (h : Inv s) {w : Fin n} {stat : Stat} (hap : Apart s (.look w stat)) {p : Prune}
    (hp : s.prunes w = some p) : Inv (s.goto w p (lookAt p s.dirs stat p.point)) := by
  refine h.goto fun t ht => ?_
  rcases hpoint : p.point.condemned with _ | u
  · refine hap.look t ?_
    dsimp only [condemns]
    rw [hp]
    dsimp only
    rw [if_pos hpoint]
    exact ht
  · rw [condemned_lookAt hpoint t ht]
    exact h w p hp u hpoint

theorem Inv.deleteAt (h : Inv s) {w : Fin n} {p : Prune} (hp : s.prunes w = some p) (path : List PyStr) :
    Inv (deleteAt s w p path) := by
  unfold CachePruning.deleteAt
  split
  · next t f left todo hpoint =>
    have hfree : ¬ InUse s t := h w p hp t (by rw [hpoint]; rfl)
    refine (h.setDir t _).goto fun u hu => ?_
    obtain rfl := Option.some.inj hu
    exact hfree
  · exact h.setDir _ _
  · exact h

theorem Inv.deleteLastAt (h : Inv s) {w : Fin n} {p : Prune} (hp : s.prunes w = some p) :
    Inv (deleteLastAt s w p) := by
  unfold CachePruning.deleteLastAt
  split
  · next t todo hpoint =>
    refine h.goto fun u hu => h w p hp u ?_
    rw [hpoint]
    exact hu
  · next t second todo hpoint =>
    refine (h.setDir t none).goto fun u hu => ?_
    cases second with
    | false => cases hu
    | true => cases hu
  · exact h

/-- Jobs that end leave the invariant, and so do prunes. -/
theorem Inv.of_less {s' : State n} (h : Inv s) (hjobs : ∀ w t, s'.jobs w = some t → s.jobs w = some t)
    (hprunes : ∀ v, ∀ p ∈ s'.prunes v, p ∈ s.prunes v ∨ p.point.condemned = none) : Inv s' := by
  intro v p hp t ht huse
  obtain ⟨w, hw⟩ := huse
  rcases hprunes v p hp with hold | hnone
  · exact h v p hold t ht ⟨w, hjobs w t hw⟩
  · rw [hnone] at ht
    cases ht

theorem Inv.call (h : Inv s) {w : Fin n} {t : PyStr} (hap : Apart s (.call w t)) :
    Inv { s with jobs := Function.update s.jobs w (some t) } := by
  intro v p hp u hu huse
  obtain ⟨w', hw'⟩ := huse
  by_cases hw : w' = w
  · subst hw
    have hself : Function.update s.jobs w' (some t) w' = some t := Function.update_self ..
    have hsame : t = u := Option.some.inj (hself.symm.trans hw')
    rw [← hsame] at hu
    exact hap.call w' t rfl v p hp hu
  · have hother : Function.update s.jobs w (some t) w' = s.jobs w' := Function.update_of_ne hw ..
    exact h v p hp u hu ⟨w', hother.symm.trans hw'⟩

/-- The container of a worker ends. -/
theorem Inv.exit (h : Inv s) (w : Fin n) : Inv { s with jobs := Function.update s.jobs w none } := by
  refine h.of_less (fun v t hv => ?_) fun v p hp => Or.inl hp
  by_cases hvw : v = w
  · subst hvw
    have hself : Function.update s.jobs v none v = none := Function.update_self ..
    cases hself.symm.trans hv
  · have hother : Function.update s.jobs w none v = s.jobs v := Function.update_of_ne hvw ..
    exact hother.symm.trans hv

/-- A prune begins or ends: one that has found nothing takes the place of another. -/
theorem Inv.setPrune (h : Inv s) (w : Fin n) {prune : Option Prune} (hfound : ∀ q ∈ prune, q.point.condemned = none) :
    Inv { s with prunes := Function.update s.prunes w prune } := by
  refine h.of_less (fun _ _ hv => hv) fun v q hq => ?_
  by_cases hv : v = w
  · subst hv
    have hself : Function.update s.prunes v prune v = prune := Function.update_self ..
    exact Or.inr (hfound q (hself ▸ hq))
  · have hother : Function.update s.prunes w prune v = s.prunes v := Function.update_of_ne hv ..
    exact Or.inl (hother ▸ hq)

/-- Every step keeps the invariant, a look and a call if they meet the condition. -/
theorem Inv.step (h : Inv s) {a : Action n} (hap : Apart s a) : Inv (step sha256 s a) := by
  cases a with
  | call w t =>
    dsimp only [CachePruning.step]
    split
    · exact h.call hap
    · exact h
  | prepare w c =>
    dsimp only [CachePruning.step]
    split
    · exact h
    · exact h.setDir _ _
  | write w f =>
    dsimp only [CachePruning.step]
    split
    · exact h
    · exact h.setDir _ _
  | exit w => exact h.exit w
  | prune w c sites =>
    dsimp only [CachePruning.step]
    split
    · refine h.setPrune w fun q hq => ?_
      cases hq
      rfl
    · exact h
  | relist w sites =>
    dsimp only [CachePruning.step]
    split
    · split
      · exact h.goto fun t ht => (by cases ht)
      · exact h.setPrune w fun q hq => (by cases hq)
      · exact h
    · exact h
  | look w stat =>
    dsimp only [CachePruning.step]
    split
    · next p hp => exact h.look hap hp
    · exact h
  | delete w path =>
    dsimp only [CachePruning.step]
    split
    · next p hp => exact h.deleteAt hp path
    · exact h
  | deleteLast w =>
    dsimp only [CachePruning.step]
    split
    · next p hp => exact h.deleteLastAt hp
    · exact h

/-! ### Whole runs -/

/-- **Pruning spares a cache in use** under a condition on the looks and the calls: in every interleaving of the
workers' jobs and prunes, whatever caches there are at the start, no step of a prune deletes anything of a
site that has a job between its call of `prepare_site_cache` and the end of its container, if a site in use is
never found expired or over its limit, and no job starts with a site that a prune has found so and has not done
with. -/
theorem pruning_spares (sha256 : List (Fin 256) → PyStr) (dirs : PyStr → Option SiteRoot) {as : List (Action n)}
    (h : Along (step sha256) Apart (State.init dirs) as) : Along (step sha256) Spared (State.init dirs) as :=
  Along.of_invariant (fun _ _ hap hs => hs.step hap) (fun _ a hs => spared_of_inv hs a) as h
    fun v p hp => (by cases hp)

/-! ### A prune that nothing interrupts -/

/-- The state while the prune of a worker is at a point, and everything else but the directories is as before. -/
def State.during (s : State n) (w : Fin n) (p : Prune) (point : Point) (dirs : PyStr → Option SiteRoot) : State n :=
  { s with dirs := dirs, prunes := Function.update s.prunes w (some { p with point := point }) }

/-- The steps of the prune of a worker. -/
def Action.ofPrune (w : Fin n) : Action n → Prop
  | .relist v _ | .look v _ | .delete v _ | .deleteLast v => v = w
  | _ => False

variable {w : Fin n} {p : Prune} {dirs : PyStr → Option SiteRoot}

theorem goto_during (point point' : Point) (q : Prune) (hq : q.own = p.own ∧ q.call = p.call)
    (dirs : PyStr → Option SiteRoot) : (s.during w p point dirs).goto w q point' = s.during w p point' dirs := by
  obtain ⟨hown, hcall⟩ := hq
  unfold State.goto State.during
  rw [Function.update_idem, hown, hcall]

theorem setDir_during (point : Point) (t : PyStr) (root : Option SiteRoot) :
    (s.during w p point dirs).setDir t root = s.during w p point (Function.update dirs t root) := rfl

theorem prunes_during (point : Point) : (s.during w p point dirs).prunes w = some { p with point := point } :=
  Function.update_self ..

section
variable (sha256 : List (Fin 256) → PyStr) (s : State n) (w : Fin n) (p : Prune)

theorem reaches_look (dirs : PyStr → Option SiteRoot) (point : Point) (stat : Stat) :
    Reaches (step sha256) (Action.ofPrune w) (s.during w p point dirs)
      (s.during w p (lookAt p dirs stat point) dirs) := by
  have hstep : step sha256 (s.during w p point dirs) (.look w stat) =
      s.during w p (lookAt p dirs stat point) dirs := by
    dsimp only [step]
    rw [prunes_during]
    exact goto_during point _ _ ⟨rfl, rfl⟩ dirs
  rw [← hstep]
  exact Reaches.one _ rfl

theorem reaches_unlink (dirs : PyStr → Option SiteRoot) (t : PyStr) (f : CacheFile) (left : List CacheFile)
    (todo : List PyStr) : Reaches (step sha256) (Action.ofPrune w) (s.during w p (.unlinking t f left todo) dirs)
      (s.during w p (.shrinking t left todo) (Function.update dirs t ((dirs t).map fun r => r.unlink f.path))) := by
  have hstep : step sha256 (s.during w p (.unlinking t f left todo) dirs) (.delete w []) =
      s.during w p (.shrinking t left todo) (Function.update dirs t ((dirs t).map fun r => r.unlink f.path)) := by
    dsimp only [step]
    rw [prunes_during]
    dsimp only [deleteAt]
    rw [setDir_during]
    exact goto_during _ _ _ ⟨rfl, rfl⟩ _
  rw [← hstep]
  exact Reaches.one _ rfl

theorem reaches_swept (dirs : PyStr → Option SiteRoot) (t : PyStr) (todo : List PyStr) :
    Reaches (step sha256) (Action.ofPrune w) (s.during w p (.sweeping t todo) dirs)
      (s.during w p (.checking t todo) dirs) := by
  have hstep : step sha256 (s.during w p (.sweeping t todo) dirs) (.deleteLast w) =
      s.during w p (.checking t todo) dirs := by
    dsimp only [step]
    rw [prunes_during]
    exact goto_during _ _ _ ⟨rfl, rfl⟩ _
  rw [← hstep]
  exact Reaches.one _ rfl

theorem reaches_removed (dirs : PyStr → Option SiteRoot) (t : PyStr) (second : Bool) (todo : List PyStr) :
    Reaches (step sha256) (Action.ofPrune w)
      (s.during w p (.removing t second todo) dirs)
      (s.during w p (if second then .limits todo else .expiry todo) (Function.update dirs t none)) := by
  have hstep : step sha256 (s.during w p (.removing t second todo) dirs) (.deleteLast w) =
      s.during w p (if second then .limits todo else .expiry todo) (Function.update dirs t none) := by
    dsimp only [step]
    rw [prunes_during]
    dsimp only [deleteLastAt]
    rw [setDir_during]
    exact goto_during _ _ _ ⟨rfl, rfl⟩ _
  rw [← hstep]
  exact Reaches.one _ rfl

/-- `_prune_children_lru` -/
theorem reaches_shrunk (stat : Stat) (t : PyStr) (todo : List PyStr) : ∀ (left : List CacheFile)
    (dirs : PyStr → Option SiteRoot) {root : SiteRoot}, dirs t = some root →
    Reaches (step sha256) (Action.ofPrune w) (s.during w p (.shrinking t left todo) dirs)
      (s.during w p (.checking t todo)
        (Function.update dirs t (some (pruneChildrenLru stat p.call.siteMaxBytes left root))))
  | [], dirs, root, hroot => by
    have hsame : Function.update dirs t (some (pruneChildrenLru stat p.call.siteMaxBytes [] root)) = dirs := by
      rw [pruneChildrenLru, ← hroot, Function.update_eq_self]
    rw [hsame]
    exact (reaches_look sha256 s w p dirs _ stat).trans (reaches_swept sha256 s w p dirs t todo)
  | f :: left, dirs, root, hroot => by
    have hlook := reaches_look sha256 s w p dirs
      (.shrinking t (f :: left) todo) stat
    have hsize : sizeOf stat (dirs t) = directorySizeBytes stat root := by rw [hroot]; rfl
    dsimp only [lookAt] at hlook
    rw [hsize] at hlook
    unfold pruneChildrenLru
    split_ifs at hlook ⊢
    · rw [← hroot, Function.update_eq_self]
      exact hlook
    · have hnext : Function.update dirs t ((dirs t).map fun r => r.unlink f.path) t = some (root.unlink f.path) := by
        rw [Function.update_self, hroot]
        rfl
      have hrest := reaches_shrunk stat t todo left _ hnext
      rw [Function.update_idem] at hrest
      exact (hlook.trans (reaches_unlink sha256 s w p dirs t f left todo)).trans hrest

/-- The first loop. -/
theorem reaches_expired (stat : PyStr → Stat) : ∀ (sites : List PyStr) (dirs : PyStr → Option SiteRoot),
    Reaches (step sha256) (Action.ofPrune w) (s.during w p (.expiry sites) dirs)
      (s.during w p (.expiry []) fun t =>
        if t ∈ sites ∧ t ≠ p.own ∧ expired p.call (stat t) = true then none else dirs t)
  | [], dirs => by
    simp only [List.not_mem_nil, false_and, if_false]
    exact Reaches.refl _
  | t :: sites, dirs => by
    have hlook := reaches_look sha256 s w p dirs
      (.expiry (t :: sites)) (stat t)
    dsimp only [lookAt] at hlook
    by_cases hout : t ≠ p.own ∧ expired p.call (stat t) = true
    · rw [if_neg hout.1, if_pos hout.2] at hlook
      have hrest := reaches_expired stat sites (Function.update dirs t none)
      refine (hlook.trans (reaches_removed sha256 s w p dirs t false sites)).trans ?_
      rw [if_neg Bool.false_ne_true]
      convert hrest using 3 with u
      by_cases hu : u = t
      · subst hu
        simp [hout]
      · simp [hu]
    · have hskip : lookAt p dirs (stat t) (.expiry (t :: sites)) = .expiry sites := by
        dsimp only [lookAt]
        split_ifs with hown hexpired
        · rfl
        · exact absurd ⟨hown, hexpired⟩ hout
        · rfl
      have hrest := reaches_expired stat sites dirs
      dsimp only [lookAt] at hskip
      rw [hskip] at hlook
      refine hlook.trans ?_
      convert hrest using 3 with u
      by_cases hu : u = t
      · subst hu
        simp [hout]
      · simp [hu]

/-- The second loop, on a directory that is not left out. -/
theorem reaches_limited_one (stat : Stat) {t : PyStr} (hown : t ≠ p.own) (todo : List PyStr)
    (dirs : PyStr → Option SiteRoot) : Reaches (step sha256) (Action.ofPrune w)
      (s.during w p (.limits (t :: todo)) dirs)
      (s.during w p (.limits todo) (Function.update dirs t ((dirs t).bind (limitSite p.call stat)))) := by
  have hlook := reaches_look sha256 s w p dirs
    (.limits (t :: todo)) stat
  dsimp only [lookAt] at hlook
  rw [if_neg hown] at hlook
  rcases hroot : dirs t with _ | root
  · have hsize : sizeOf stat none ≤ p.call.siteMaxBytes := Nat.zero_le _
    rw [hroot, if_pos hsize] at hlook
    rw [Option.bind_none, ← hroot, Function.update_eq_self]
    exact hlook
  · rw [hroot] at hlook
    rw [Option.bind_some]
    unfold limitSite
    by_cases hfits : directorySizeBytes stat root ≤ p.call.siteMaxBytes
    · have hsize : sizeOf stat (some root) ≤ p.call.siteMaxBytes := hfits
      rw [if_pos hsize] at hlook
      rw [if_pos hfits, ← hroot, Function.update_eq_self]
      exact hlook
    · have hsize : ¬ sizeOf stat (some root) ≤ p.call.siteMaxBytes := hfits
      rw [if_neg hsize] at hlook
      rw [if_neg hfits]
      obtain ⟨pruned, hpruned⟩ : ∃ r, pruneChildrenLru stat p.call.siteMaxBytes (candidates stat root) root = r :=
        ⟨_, rfl⟩
      have hshrunk := reaches_shrunk sha256 s w p stat t todo
        (candidates stat root) dirs hroot
      have hcheck := reaches_look sha256 s w p (Function.update dirs t (some pruned)) (.checking t todo) stat
      dsimp only [lookAt] at hcheck
      rw [Function.update_self] at hcheck
      rw [hpruned] at hshrunk ⊢
      by_cases hover : directorySizeBytes stat pruned > p.call.siteMaxBytes
      · have hmore : sizeOf stat (some pruned) > p.call.siteMaxBytes := hover
        have hremoved := reaches_removed sha256 s w p (Function.update dirs t (some pruned)) t true todo
        rw [if_pos hmore] at hcheck
        rw [if_pos rfl, Function.update_idem] at hremoved
        dsimp only
        rw [if_pos hover]
        exact ((hlook.trans hshrunk).trans hcheck).trans hremoved
      · have hless : ¬ sizeOf stat (some pruned) > p.call.siteMaxBytes := hover
        rw [if_neg hless] at hcheck
        dsimp only
        rw [if_neg hover]
        exact (hlook.trans hshrunk).trans hcheck

/-- The second loop. -/
theorem reaches_limited (stat : PyStr → Stat) : ∀ {sites : List PyStr}, sites.Nodup →
    ∀ (dirs : PyStr → Option SiteRoot), Reaches (step sha256) (Action.ofPrune w)
      (s.during w p (.limits sites) dirs) (s.during w p (.limits []) fun t =>
        if t ∈ sites ∧ t ≠ p.own then (dirs t).bind (limitSite p.call (stat t)) else dirs t)
  | [], _, dirs => by
    simp only [List.not_mem_nil, false_and, if_false]
    exact Reaches.refl _
  | t :: sites, hnodup, dirs => by
    obtain ⟨hnew, hnodup⟩ := List.nodup_cons.mp hnodup
    have hfirst : Reaches (step sha256) (Action.ofPrune w) (s.during w p (.limits (t :: sites)) dirs)
        (s.during w p (.limits sites) (Function.update dirs t
          (if t = p.own then dirs t else (dirs t).bind (limitSite p.call (stat t))))) := by
      by_cases hown : t = p.own
      · have hlook := reaches_look sha256 s w p dirs
          (.limits (t :: sites)) (stat t)
        dsimp only [lookAt] at hlook
        rw [if_pos hown] at hlook ⊢
        rw [Function.update_eq_self]
        exact hlook
      · rw [if_neg hown]
        exact reaches_limited_one sha256 s w p (stat t) hown sites dirs
    have hrest := reaches_limited stat hnodup (Function.update dirs t
      (if t = p.own then dirs t else (dirs t).bind (limitSite p.call (stat t))))
    refine hfirst.trans ?_
    convert hrest using 3 with u
    by_cases hu : u = t
    · subst hu
      by_cases hown : u = p.own
      · simp [hown]
      · simp [hown, hnew]
    · simp [hu]

end

/-- **A prune that nothing interrupts** does to every directory it finds what `pruneSite` says. -/
theorem prune_alone (stat : PyStr → Stat) {t : PyStr} {c : PruneCall} {sites : List PyStr} (hnodup : sites.Nodup)
    (hjob : s.jobs w = some t) (hfree : s.prunes w = none) :
    Reaches (step sha256) (Action.ofPrune w) (step sha256 s (.prune w c sites))
      { s with dirs := fun u =>
        if u ∈ sites then (s.dirs u).bind (pruneSite { c with excluded := u = t } (stat u)) else s.dirs u } := by
  obtain ⟨p, hp⟩ : ∃ p : Prune, p = ⟨t, c, .expiry sites⟩ := ⟨_, rfl⟩
  have hstart : step sha256 s (.prune w c sites) = s.during w p (.expiry sites) s.dirs := by
    dsimp only [step]
    rw [hjob, hfree, hp]
    rfl
  have hown : Action.ofPrune w (.relist w sites) := rfl
  obtain ⟨first, hfirst⟩ : ∃ dirs : PyStr → Option SiteRoot, dirs = fun u =>
    if u ∈ sites ∧ u ≠ p.own ∧ expired p.call (stat u) = true then none else s.dirs u := ⟨_, rfl⟩
  obtain ⟨second, hsecond⟩ : ∃ dirs : PyStr → Option SiteRoot, dirs = fun u =>
    if u ∈ sites ∧ u ≠ p.own then (first u).bind (limitSite p.call (stat u)) else first u := ⟨_, rfl⟩
  have hloops : Reaches (step sha256) (Action.ofPrune w) (s.during w p (.expiry sites) s.dirs)
      (s.during w p (.limits []) second) := by
    have hexpired := reaches_expired sha256 s w p stat sites s.dirs
    have hlimited := reaches_limited sha256 s w p stat hnodup first
    have hrelist : step sha256 (s.during w p (.expiry []) first) (.relist w sites) =
        s.during w p (.limits sites) first := by
      dsimp only [step]
      rw [prunes_during]
      exact goto_during _ _ _ ⟨rfl, rfl⟩ _
    rw [← hfirst] at hexpired
    rw [← hsecond, ← hrelist] at hlimited
    exact (hexpired.trans (Reaches.one _ hown)).trans hlimited
  have hend : step sha256 (s.during w p (.limits []) second) (.relist w sites) = { s with dirs := second } := by
    dsimp only [step]
    rw [prunes_during]
    dsimp only [State.during]
    rw [Function.update_idem, ← hfree, Function.update_eq_self]
  have hresult : second = fun u =>
      if u ∈ sites then (s.dirs u).bind (pruneSite { c with excluded := u = t } (stat u)) else s.dirs u := by
    funext u
    rw [hsecond, hfirst, hp]
    dsimp only
    by_cases hu : u ∈ sites
    · rcases hroot : s.dirs u with _ | root
      · simp
      · have hprune : pruneSite { c with excluded := decide (u = t) } (stat u) root =
            if decide (u = t) then some root else if expired c (stat u) then none else limitSite c (stat u) root := rfl
        rw [Option.bind_some, hprune]
        by_cases hut : u = t
        · simp [hut]
        · by_cases hexpired : expired c (stat u) = true
          · simp [hu, hut, hexpired]
          · simp [hu, hut, hexpired]
    · simp [hu]
  rw [hstart, ← hresult]
  refine hloops.trans ?_
  rw [← hend]
  exact Reaches.one _ hown

end Machine

theorem entry_allowed : py "entry" ∉ ignored := by decide

/-- A file of the first build. -/
def sampleFile : CacheFile := ⟨[], py "entry", 0, entry_allowed⟩

/-- A site with one file. -/
def sampleRoot : SiteRoot := ⟨false, none, [sampleFile]⟩

/-- Two sites. -/
def siteA : PyStr := py "site-a"

def siteB : PyStr := py "site-b"

/-- A prune with a limit of five bytes, and a look that finds ten bytes in every file. -/
def samplePrune : PruneCall := ⟨0, 5, 14, false⟩

def sampleStat : Stat := ⟨0, fun _ => 10, fun _ => 0⟩

/-- The prune of a worker with a job of site B removes site A, which has not been used for a long time. -/
def idleActs : List (Action 2) :=
  [.call 1 siteB, .prune 1 ⟨15 * 86400000000, 5, 14, false⟩ [siteA], .look 1 sampleStat, .deleteLast 1]

theorem pruning_spares_idle : Along (step fun _ => []) Spared
    (State.init fun t => if t = siteA then some sampleRoot else none) idleActs := by
  refine pruning_spares (fun _ => []) _ ⟨⟨?_, ?_⟩, ⟨?_, ?_⟩, ⟨?_, ?_⟩, ⟨?_, ?_⟩, trivial⟩
  · rintro t ⟨⟩
  · rintro w t ⟨⟩ v p ⟨⟩
  · rintro t ⟨⟩
  · rintro w t ⟨⟩
  · rintro t ⟨⟩
    decide
  · rintro w t ⟨⟩
  · rintro t ⟨⟩
  · rintro w t ⟨⟩

/-- While the container of site A runs, the prune of the worker with site B finds it over the limit. -/
def sharedActs : List (Action 2) :=
  [.call 0 siteA, .prepare 0 ⟨.npm, fun _ => none, true, []⟩, .write 0 sampleFile,
    .call 1 siteB, .prune 1 samplePrune [siteA], .look 1 sampleStat, .relist 1 [siteA], .look 1 sampleStat,
    .look 1 sampleStat]

/-- The prune deletes a file of site A. -/
theorem pruned_in_use :
    deletes (run (step fun _ => []) (State.init fun _ => none) sharedActs) (.delete 1 []) = some siteA ∧
    (run (step fun _ => []) (State.init fun _ => none) sharedActs).jobs 0 = some siteA ∧
    ¬ Along (step fun _ => []) Spared (State.init fun _ => none) (sharedActs ++ [.delete 1 []]) := by
  refine ⟨rfl, rfl, fun halong => ?_⟩
  exact (Along.append.mp halong).2.1 siteA rfl ⟨0, rfl⟩

end BuildEngine.Executor.CachePruning
