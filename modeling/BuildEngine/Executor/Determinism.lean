import BuildEngine.Executor.Artifact

/-! # The artifact is deterministic

Two trees that have the same looks at the same paths, and the same paths linked to each other, give the same package,
in whatever order their entries are listed and whoever owns them. The validation takes the conjunction over all links
and the sum over all files (`scan_ok_iff`); the members are sorted by their paths, which are different
(`sorted_faces_eq`); and a file becomes a hard link exactly if a path linked to it comes before (`gettarinfo_twins`). -/

namespace BuildEngine.Executor.Determinism

open BuildEngine.Base BuildEngine.Base.LexicalPath BuildEngine.Executor.Artifact

/-! ### Trees that agree -/

/-- The same looks at the same paths, and the same files linked to each other. -/
structure Agree (t t' : Tree) : Prop where
  faces : ∀ face, face ∈ t.entries.map Entry.face ↔ face ∈ t'.entries.map Entry.face
  grouping : ∀ e ∈ t.entries, ∀ f ∈ t.entries, ∀ e' ∈ t'.entries, ∀ f' ∈ t'.entries, e.isRegular = true →
    f.isRegular = true → e.face = e'.face → f.face = f'.face → (e.inode = f.inode ↔ e'.inode = f'.inode)

theorem isRegular_of_face {e e' : Entry} (h : e.face = e'.face) : e.isRegular = e'.isRegular := by
  have hlook : e.look = e'.look := congrArg Prod.snd h
  unfold Entry.isRegular
  rw [hlook]

theorem Agree.symm {t t' : Tree} (h : Agree t t') : Agree t' t := by
  refine ⟨fun face => (h.faces face).symm, fun e he f hf e' he' f' hf' hre hrf hface hface' => ?_⟩
  have hre' : e'.isRegular = true := (isRegular_of_face hface).symm.trans hre
  have hrf' : f'.isRegular = true := (isRegular_of_face hface').symm.trans hrf
  exact (h.grouping e' he' f' hf' e he f hf hre' hrf' hface.symm hface'.symm).symm

theorem fst_faces (es : List Entry) : (es.map Entry.face).map Prod.fst = es.map Entry.path := by
  rw [List.map_map]
  rfl

theorem Tree.faces_nodup (t : Tree) : (t.entries.map Entry.face).Nodup := by
  have hpaths := t.paths_nodup
  rw [← fst_faces] at hpaths
  exact List.Nodup.of_map _ hpaths

theorem Agree.faces_perm {t t' : Tree} (h : Agree t t') :
    (t.entries.map Entry.face).Perm (t'.entries.map Entry.face) :=
  (List.perm_ext_iff_of_nodup (Tree.faces_nodup t) (Tree.faces_nodup t')).mpr h.faces

/-- A path has the look that a face says. -/
theorem view_eq_some_iff (t : Tree) (path : PyStr) (look : Look) :
    t.view path = some look ↔ (path, look) ∈ t.entries.map Entry.face := by
  unfold Tree.view
  rw [Option.map_eq_some_iff, List.mem_map]
  constructor
  · rintro ⟨e, hfind, rfl⟩
    have hpath : e.path = path := by simpa using List.find?_some hfind
    exact ⟨e, List.mem_of_find?_eq_some hfind, Prod.ext hpath rfl⟩
  · rintro ⟨e, he, hface⟩
    have hpath : e.path = path := congrArg Prod.fst hface
    have hlook : e.look = look := congrArg Prod.snd hface
    rcases hfind : t.entries.find? fun f => decide (f.path = path) with _ | f
    · have hnot := List.find?_eq_none.mp hfind e he
      exact absurd (decide_eq_true hpath) hnot
    · have hf : f.path = path := by simpa using List.find?_some hfind
      have hsame : f = e :=
        List.inj_on_of_nodup_map t.paths_nodup (List.mem_of_find?_eq_some hfind) he (hf.trans hpath.symm)
      exact ⟨f, hfind, by rw [hsame, hlook]⟩

theorem Agree.view_eq {t t' : Tree} (h : Agree t t') : t.view = t'.view := by
  funext path
  refine Option.ext fun look => ?_
  rw [view_eq_some_iff, view_eq_some_iff]
  exact h.faces _

/-! ### Validation -/

/-- The size of a file. -/
def size (face : PyStr × Look) : ℕ :=
  match face.2.kind with
  | .file data => data.length
  | _ => 0

/-- A file. -/
def isFileFace (face : PyStr × Look) : Bool :=
  match face.2.kind with
  | .file _ => true
  | _ => false

/-- The number of files and of their bytes. -/
def fileCount (es : List Entry) : ℕ := (es.map Entry.face).countP isFileFace

def totalBytes (es : List Entry) : ℕ := ((es.map Entry.face).map size).sum

section Host
variable (host : Host)

/-- A link that leads below the output directory. -/
def LinkStays (view : View) (root : List PyStr) (face : PyStr × Look) : Prop :=
  ∀ target, face.2.kind = .symlink target → ∃ resolved, host.resolve view face.1 = some resolved ∧ Inside root resolved

theorem fileCount_cons (e : Entry) (es : List Entry) :
    fileCount (e :: es) = fileCount es + if isFileFace e.face then 1 else 0 := List.countP_cons ..

theorem totalBytes_cons (e : Entry) (es : List Entry) : totalBytes (e :: es) = size e.face + totalBytes es :=
  List.sum_cons ..

/-- What is no file has no size. -/
theorem size_eq_zero {face : PyStr × Look} (h : isFileFace face = false) : size face = 0 := by
  unfold isFileFace at h
  unfold size
  split at h
  · cases h
  · rfl

theorem totalBytes_eq_zero : ∀ {es : List Entry}, fileCount es = 0 → totalBytes es = 0
  | [], _ => rfl
  | e :: es, h => by
    rw [fileCount_cons] at h
    rcases hfile : isFileFace e.face with _ | _
    · have hrest : fileCount es = 0 := by omega
      rw [totalBytes_cons, size_eq_zero hfile, totalBytes_eq_zero hrest]
    · rw [hfile, if_pos rfl] at h
      omega

theorem linkStays_of_kind {view : View} {root : List PyStr} {e : Entry}
    (h : ∀ target, e.look.kind ≠ .symlink target) : LinkStays host view root e.face :=
  fun target htarget => absurd htarget (h target)

theorem linkStays_iff {view : View} {root : List PyStr} {e : Entry} {target : PyStr}
    (h : e.look.kind = .symlink target) :
    LinkStays host view root e.face ↔ ∃ resolved, host.resolve view e.path = some resolved ∧ Inside root resolved :=
  ⟨fun hstays => hstays target h, fun hresolved _ _ => hresolved⟩

/-- **The validation of the entries**: all links stay, and all files together are within the limit. -/
theorem scan_ok_iff (view : View) (root : List PyStr) (maxBytes : ℤ) : ∀ (es : List Entry) (count bytes : ℕ)
    (result : ℕ × ℕ), scan host view root maxBytes es count bytes = .ok result ↔
      (∀ e ∈ es, LinkStays host view root e.face) ∧
        (fileCount es ≠ 0 → ((bytes + totalBytes es : ℕ) : ℤ) ≤ maxBytes) ∧
        result = (count + fileCount es, bytes + totalBytes es)
  | [], count, bytes, result => by
    have hcount : fileCount [] = 0 := rfl
    have hbytes : totalBytes [] = 0 := rfl
    rw [scan, hcount, hbytes]
    constructor
    · intro h
      exact ⟨by simp, fun hne => absurd rfl hne, (Except.ok.inj h).symm⟩
    · rintro ⟨-, -, rfl⟩
      rfl
  | e :: es, count, bytes, result => by
    have ih := scan_ok_iff view root maxBytes es
    rw [scan, List.forall_mem_cons, fileCount_cons, totalBytes_cons]
    rcases hkind : e.look.kind with data | _ | target | format
    · have hsize : size e.face = data.length := by simp only [size, Entry.face, hkind]
      have hfile : isFileFace e.face = true := by simp only [isFileFace, Entry.face, hkind]
      have hstays : LinkStays host view root e.face := linkStays_of_kind host (by simp [hkind])
      have hcount : count + 1 + fileCount es = count + (fileCount es + 1) := by omega
      have hbytes : bytes + data.length + totalBytes es = bytes + (data.length + totalBytes es) := by omega
      dsimp only
      rw [hsize, hfile, if_pos rfl, and_iff_right hstays]
      by_cases hlarge : maxBytes < ((bytes + data.length : ℕ) : ℤ)
      · rw [if_pos hlarge]
        refine iff_of_false (fun h => by cases h) ?_
        rintro ⟨-, hwithin, -⟩
        have := hwithin (Nat.succ_ne_zero _)
        omega
      · rw [if_neg hlarge, ih, hcount, hbytes]
        refine and_congr_right fun _ => and_congr_left fun _ => ⟨fun hwithin _ => ?_, fun hwithin _ => ?_⟩
        · rcases eq_or_ne (fileCount es) 0 with hnone | hsome
          · have hempty := totalBytes_eq_zero hnone
            omega
          · exact hwithin hsome
        · exact hwithin (Nat.succ_ne_zero _)
    · have hfile : isFileFace e.face = false := by simp only [isFileFace, Entry.face, hkind]
      have hstays : LinkStays host view root e.face := linkStays_of_kind host (by simp [hkind])
      dsimp only
      rw [size_eq_zero hfile, hfile, if_neg Bool.false_ne_true, Nat.add_zero, Nat.zero_add, and_iff_right hstays, ih]
    · have hfile : isFileFace e.face = false := by simp only [isFileFace, Entry.face, hkind]
      dsimp only
      rw [size_eq_zero hfile, hfile, if_neg Bool.false_ne_true, Nat.add_zero, Nat.zero_add, linkStays_iff host hkind]
      rcases host.resolve view e.path with _ | resolved
      · exact iff_of_false (fun h => by cases h) (by simp)
      · dsimp only
        by_cases hinside : Inside root resolved
        · have hled : ∃ led, some resolved = some led ∧ Inside root led := ⟨resolved, rfl, hinside⟩
          rw [if_pos hinside, ih, and_iff_right hled]
        · rw [if_neg hinside]
          refine iff_of_false (fun h => by cases h) ?_
          rintro ⟨⟨⟨resolved', hresolved', hinside'⟩, -⟩, -⟩
          rw [← Option.some.inj hresolved'] at hinside'
          exact hinside hinside'
    · have hfile : isFileFace e.face = false := by simp only [isFileFace, Entry.face, hkind]
      have hstays : LinkStays host view root e.face := linkStays_of_kind host (by simp [hkind])
      dsimp only
      rw [size_eq_zero hfile, hfile, if_neg Bool.false_ne_true, Nat.add_zero, Nat.zero_add, and_iff_right hstays, ih]

theorem validateOutputDir_ok_iff (outputDir : Option PyStr) (maxBytes : ℤ) (l : Listing) :
    (∃ snapshot, validateOutputDir host outputDir maxBytes l = .ok snapshot) ↔
      ∃ root, outputPath host outputDir = .ok root ∧ (∀ e ∈ l.validated, LinkStays host l.tree.view root e.face) ∧
        (totalBytes l.validated : ℤ) ≤ maxBytes ∧ fileCount l.validated ≠ 0 := by
  unfold validateOutputDir
  rw [bind_ok_iff]
  refine exists_congr fun root => and_congr_right fun _ => ?_
  rw [bind_ok_iff]
  constructor
  · rintro ⟨⟨count, bytes⟩, hscan, snapshot, h⟩
    obtain ⟨hlinks, hwithin, hresult⟩ := (scan_ok_iff host _ _ _ _ _ _ _).mp hscan
    have hcount : count = 0 + fileCount l.validated := congrArg Prod.fst hresult
    dsimp only at h
    split_ifs at h with hzero
    have hsome : fileCount l.validated ≠ 0 := by omega
    have hall := hwithin hsome
    rw [Nat.zero_add] at hall
    exact ⟨hlinks, hall, hsome⟩
  · rintro ⟨hlinks, hwithin, hsome⟩
    have hscan := (scan_ok_iff host l.tree.view root maxBytes l.validated 0 0 _).mpr
      ⟨hlinks, fun _ => by rwa [Nat.zero_add], rfl⟩
    refine ⟨_, hscan, ⟨root, fileCount l.validated, 0 + totalBytes l.validated⟩, ?_⟩
    dsimp only
    rw [Nat.zero_add, if_neg hsome]
    rfl

/-- The faces of two listings, in the order of the validation. -/
theorem validated_faces_perm {l l' : Listing} (h : Agree l.tree l'.tree) :
    (l.validated.map Entry.face).Perm (l'.validated.map Entry.face) :=
  (l.validated_perm.map _).trans (h.faces_perm.trans (l'.validated_perm.map _).symm)

theorem packaged_faces_perm {l l' : Listing} (h : Agree l.tree l'.tree) :
    (l.packaged.map Entry.face).Perm (l'.packaged.map Entry.face) :=
  (l.packaged_perm.map _).trans (h.faces_perm.trans (l'.packaged_perm.map _).symm)

/-- **Both trees are publishable, or neither.** -/
theorem validateOutputDir_agree {l l' : Listing} (h : Agree l.tree l'.tree) (outputDir : Option PyStr) (maxBytes : ℤ) :
    (∃ snapshot, validateOutputDir host outputDir maxBytes l = .ok snapshot) ↔
      ∃ snapshot, validateOutputDir host outputDir maxBytes l' = .ok snapshot := by
  have hperm := validated_faces_perm h
  have hcount : fileCount l.validated = fileCount l'.validated := hperm.countP_eq _
  have hbytes : totalBytes l.validated = totalBytes l'.validated := (hperm.map size).sum_eq
  rw [validateOutputDir_ok_iff, validateOutputDir_ok_iff, hcount, hbytes, h.view_eq]
  refine exists_congr fun root => and_congr_right fun _ => and_congr_left fun _ => ?_
  have hfaces : ∀ es : List Entry, (∀ e ∈ es, LinkStays host l'.tree.view root e.face) ↔
      ∀ face ∈ es.map Entry.face, LinkStays host l'.tree.view root face := fun es => List.forall_mem_map.symm
  rw [hfaces, hfaces]
  exact forall_congr' fun face => by rw [hperm.mem_iff]

/-! ### The members -/

theorem isFile_of_face (view : View) {e e' : Entry} (h : e.face = e'.face) : isFile host view e = isFile host view e' := by
  have hpath : e.path = e'.path := congrArg Prod.fst h
  have hlook : e.look = e'.look := congrArg Prod.snd h
  unfold isFile
  rw [hpath, hlook]

/-- A face of a member. -/
def isMemberFace (face : PyStr × Look) : Bool :=
  match face.2.kind with
  | .special _ => false
  | _ => true

theorem members_perm (l : Listing) :
    (((l.packaged.filter isMember).insertionSort pathLe).map Entry.face).Perm
      ((l.packaged.map Entry.face).filter isMemberFace) := by
  have hmember : isMember = isMemberFace ∘ Entry.face := rfl
  rw [List.filter_map, ← hmember]
  exact (List.perm_insertionSort pathLe _).map _

/-- **The same members, in the same order**: they are sorted by their paths, which are all different. -/
theorem sorted_faces_eq {l l' : Listing} (h : Agree l.tree l'.tree) :
    ((l.packaged.filter isMember).insertionSort pathLe).map Entry.face =
      ((l'.packaged.filter isMember).insertionSort pathLe).map Entry.face := by
  have : Std.Total pathLe := ⟨fun e f => le_total e.path f.path⟩
  have : IsTrans Entry pathLe := ⟨fun _ _ _ hef hfg => le_trans hef hfg⟩
  have hsorted : ∀ l : Listing, (((l.packaged.filter isMember).insertionSort pathLe).map Entry.face).Pairwise
      fun face face' => face.1 ≤ face'.1 := fun l => List.pairwise_map.mpr (List.pairwise_insertionSort pathLe _)
  have hperm := (members_perm l).trans (((packaged_faces_perm h).filter isMemberFace).trans (members_perm l').symm)
  have hmem : ∀ face ∈ ((l.packaged.filter isMember).insertionSort pathLe).map Entry.face,
      face ∈ l.tree.entries.map Entry.face := fun face hface =>
    (l.packaged_perm.map _).mem_iff.mp (List.mem_of_mem_filter ((members_perm l).mem_iff.mp hface))
  have hnodup : ((l.tree.entries.map Entry.face).map Prod.fst).Nodup := by
    rw [fst_faces]
    exact l.tree.paths_nodup
  refine hperm.eq_of_pairwise (fun face face' hface hface' hle hge => ?_) (hsorted l) (hsorted l')
  have hface' := hmem face' (hperm.mem_iff.mpr hface')
  exact List.inj_on_of_nodup_map hnodup (hmem face hface) hface' (le_antisymm hle hge)

theorem artifactMembers_ok_iff (view : View) (listed paths : List Entry) :
    artifactMembers host view listed = .ok paths ↔ (∀ e ∈ listed, (isFile host view e).isSome = true) ∧
      paths = (listed.filter isMember).insertionSort pathLe := by
  unfold artifactMembers
  split_ifs with hall
  · rw [List.all_eq_true] at hall
    exact ⟨fun h => ⟨hall, (Except.ok.inj h).symm⟩, fun h => by rw [h.2]⟩
  · rw [List.all_eq_true] at hall
    exact iff_of_false (fun h => by cases h) fun h => hall h.1

theorem mem_of_mem_members {l : Listing} {e : Entry}
    (h : e ∈ (l.packaged.filter isMember).insertionSort pathLe) : e ∈ l.tree.entries := by
  rw [List.mem_insertionSort] at h
  exact l.packaged_perm.mem_iff.mp (List.mem_of_mem_filter h)

/-- If the members of one tree are listed, so are those of the other. -/
theorem isFile_agree {l l' : Listing} (h : Agree l.tree l'.tree)
    (hall : ∀ e ∈ l.packaged, (isFile host l.tree.view e).isSome = true) :
    ∀ e' ∈ l'.packaged, (isFile host l'.tree.view e').isSome = true := by
  intro e' he'
  have hface := (packaged_faces_perm h).mem_iff.mpr (List.mem_map_of_mem he')
  obtain ⟨e, he, htwin⟩ := List.mem_map.mp hface
  have hsome := hall e he
  rwa [isFile_of_face host l.tree.view htwin, h.view_eq] at hsome

/-! ### Hard links -/

/-- The files in the archive of either tree, by their inodes: a file and its twin are linked to the same path, if to
any, and it is the path of a file. -/
structure InodesAgree (t t' : Tree) (inodes inodes' : Dict (ℕ × ℕ) PyStr) : Prop where
  same : ∀ e ∈ t.entries, ∀ e' ∈ t'.entries, e.isRegular = true → e.face = e'.face →
    Dict.get? inodes e.inode = Dict.get? inodes' e'.inode
  file : ∀ e ∈ t.entries, e.isRegular = true → ∀ path, Dict.get? inodes e.inode = some path →
    ∃ f ∈ t.entries, f.isRegular = true ∧ f.path = path ∧ f.inode = e.inode
  file' : ∀ e ∈ t'.entries, e.isRegular = true → ∀ path, Dict.get? inodes' e.inode = some path →
    ∃ f ∈ t'.entries, f.isRegular = true ∧ f.path = path ∧ f.inode = e.inode

theorem InodesAgree.nil (t t' : Tree) : InodesAgree t t' [] [] :=
  ⟨fun _ _ _ _ _ _ => rfl, fun _ _ _ _ h => (by cases h), fun _ _ _ _ h => (by cases h)⟩

theorem file_concat {t : Tree} {inodes : Dict (ℕ × ℕ) PyStr} {e : Entry} (he : e ∈ t.entries) (hre : e.isRegular = true)
    (h : ∀ f ∈ t.entries, f.isRegular = true → ∀ path, Dict.get? inodes f.inode = some path →
      ∃ g ∈ t.entries, g.isRegular = true ∧ g.path = path ∧ g.inode = f.inode) :
    ∀ f ∈ t.entries, f.isRegular = true → ∀ path, Dict.get? (inodes ++ [(e.inode, e.path)]) f.inode = some path →
      ∃ g ∈ t.entries, g.isRegular = true ∧ g.path = path ∧ g.inode = f.inode := by
  intro f hf hrf path hpath
  rw [Dict.get?_concat] at hpath
  split_ifs at hpath with hinode
  · exact ⟨e, he, hre, Option.some.inj hpath, hinode⟩
  · exact h f hf hrf path hpath

/-- A file and its twin enter the archives. -/
theorem InodesAgree.concat {t t' : Tree} {inodes inodes' : Dict (ℕ × ℕ) PyStr} (h : InodesAgree t t' inodes inodes')
    (hagree : Agree t t') {e e' : Entry} (he : e ∈ t.entries) (he' : e' ∈ t'.entries) (hre : e.isRegular = true)
    (hface : e.face = e'.face) :
    InodesAgree t t' (inodes ++ [(e.inode, e.path)]) (inodes' ++ [(e'.inode, e'.path)]) := by
  have hpath : e.path = e'.path := congrArg Prod.fst hface
  have hre' : e'.isRegular = true := (isRegular_of_face hface).symm.trans hre
  refine ⟨fun f hf f' hf' hrf hfface => ?_, file_concat he hre h.file, file_concat he' hre' h.file'⟩
  have hgroup := hagree.grouping e he f hf e' he' f' hf' hre hrf hface hfface
  rw [Dict.get?_concat, Dict.get?_concat, h.same f hf f' hf' hrf hfface, hpath]
  by_cases hinode : e.inode = f.inode
  · rw [if_pos hinode, if_pos (hgroup.mp hinode)]
  · rw [if_neg hinode, if_neg fun hinode' => hinode (hgroup.mpr hinode')]

theorem isRegular_of_kind {e : Entry} {data : List Byte} (h : e.look.kind = .file data) : e.isRegular = true := by
  unfold Entry.isRegular
  rw [h]

/-- A file that another path in the archive is linked to. -/
theorem gettarinfo_linked {t : Tree} {inodes : Dict (ℕ × ℕ) PyStr} {e : Entry} {data : List Byte} {path : PyStr}
    (he : e ∈ t.entries) (hkind : e.look.kind = .file data) (hget : Dict.get? inodes e.inode = some path)
    (hne : e.path ≠ path) (hfile : ∃ f ∈ t.entries, f.isRegular = true ∧ f.path = path ∧ f.inode = e.inode) :
    gettarinfo inodes e = (e.header .hardlink 0 path, inodes) := by
  obtain ⟨f, hf, hrf, rfl, hinode⟩ := hfile
  have hlink := t.linked e he f hf (isRegular_of_kind hkind) hrf hinode.symm hne
  unfold gettarinfo
  rw [hkind, hget]
  exact if_pos ⟨hlink, hne⟩

/-- A file that no other path in the archive is linked to. -/
theorem gettarinfo_first {t : Tree} {inodes : Dict (ℕ × ℕ) PyStr} {e : Entry} {data : List Byte} (he : e ∈ t.entries)
    (hkind : e.look.kind = .file data) (hget : ∀ path, Dict.get? inodes e.inode = some path → e.path = path) :
    gettarinfo inodes e = (e.header .regular data.length [], inodes ++ [(e.inode, e.path)]) := by
  have hino := t.ino_ne_zero e he
  unfold gettarinfo
  rw [hkind, if_neg hino]
  rcases hinodes : Dict.get? inodes e.inode with _ | path
  · rfl
  · exact if_neg fun h => h.2 (hget path hinodes)

theorem normalized_header {e e' : Entry} (h : e.face = e'.face) (type : TarType) (size : ℕ) (linkname : PyStr) :
    normalized (e.header type size linkname) = normalized (e'.header type size linkname) := by
  have hpath : e.path = e'.path := congrArg Prod.fst h
  have hlook : e.look = e'.look := congrArg Prod.snd h
  unfold normalized Entry.header
  rw [hpath, hlook]

/-- **One member**: a file and its twin get the same header, and the archives still agree. -/
theorem gettarinfo_twins {t t' : Tree} (hagree : Agree t t') {inodes inodes' : Dict (ℕ × ℕ) PyStr}
    (h : InodesAgree t t' inodes inodes') {e e' : Entry} (he : e ∈ t.entries) (he' : e' ∈ t'.entries)
    (hface : e.face = e'.face) :
    normalized (gettarinfo inodes e).1 = normalized (gettarinfo inodes' e').1 ∧
      InodesAgree t t' (gettarinfo inodes e).2 (gettarinfo inodes' e').2 := by
  have hpath : e.path = e'.path := congrArg Prod.fst hface
  have hlook : e.look = e'.look := congrArg Prod.snd hface
  rcases hkind : e.look.kind with data | _ | target | format
  · have hkind' : e'.look.kind = .file data := by rw [← hlook, hkind]
    have hre := isRegular_of_kind hkind
    have hsame := h.same e he e' he' hre hface
    by_cases hlinked : ∃ path, Dict.get? inodes e.inode = some path ∧ e.path ≠ path
    · obtain ⟨path, hget, hne⟩ := hlinked
      have hget' : Dict.get? inodes' e'.inode = some path := hsame.symm.trans hget
      have hne' : e'.path ≠ path := by rwa [← hpath]
      have hfile := h.file e he hre path hget
      have hfile' := h.file' e' he' (isRegular_of_kind hkind') path hget'
      rw [gettarinfo_linked he hkind hget hne hfile, gettarinfo_linked he' hkind' hget' hne' hfile']
      exact ⟨normalized_header hface _ _ _, h⟩
    · have hfirst : ∀ path, Dict.get? inodes e.inode = some path → e.path = path := fun path hget =>
        by_contra fun hne => hlinked ⟨path, hget, hne⟩
      have hfirst' : ∀ path, Dict.get? inodes' e'.inode = some path → e'.path = path := by
        rwa [← hsame, ← hpath]
      rw [gettarinfo_first he hkind hfirst, gettarinfo_first he' hkind' hfirst']
      exact ⟨normalized_header hface _ _ _, h.concat hagree he he' hre hface⟩
  all_goals
    have hkind' := hkind
    rw [hlook] at hkind'
    unfold gettarinfo
    rw [hkind, hkind']
    exact ⟨normalized_header hface _ _ _, h⟩

theorem memberData_of_face (view : View) {e e' : Entry} (h : e.face = e'.face) (size : ℕ) :
    memberData host view e size = memberData host view e' size := by
  have hpath : e.path = e'.path := congrArg Prod.fst h
  have hlook : e.look = e'.look := congrArg Prod.snd h
  unfold memberData
  rw [isFile_of_face host view h, hpath, hlook]

/-- **All members**: two listings with the same faces give the same headers and data. -/
theorem addMembers_agree {t t' : Tree} (hagree : Agree t t') (view : View) : ∀ {es es' : List Entry}
    {inodes inodes' : Dict (ℕ × ℕ) PyStr}, es.map Entry.face = es'.map Entry.face → (∀ e ∈ es, e ∈ t.entries) →
    (∀ e ∈ es', e ∈ t'.entries) → InodesAgree t t' inodes inodes' →
    addMembers host view inodes es = addMembers host view inodes' es'
  | [], [], _, _, _, _, _, _ => rfl
  | [], _ :: _, _, _, hfaces, _, _, _ => by cases hfaces
  | _ :: _, [], _, _, hfaces, _, _, _ => by cases hfaces
  | e :: es, e' :: es', inodes, inodes', hfaces, hes, hes', h => by
    rw [List.map_cons, List.map_cons, List.cons.injEq] at hfaces
    obtain ⟨he, hes⟩ := List.forall_mem_cons.mp hes
    obtain ⟨he', hes'⟩ := List.forall_mem_cons.mp hes'
    obtain ⟨hheader, hinodes⟩ := gettarinfo_twins hagree h he he' hfaces.1
    have hsize : (gettarinfo inodes e).1.size = (gettarinfo inodes' e').1.size := by
      show (normalized (gettarinfo inodes e).1).size = (normalized (gettarinfo inodes' e').1).size
      rw [hheader]
    have hdata := memberData_of_face host view hfaces.1 (gettarinfo inodes e).1.size
    rw [addMembers, addMembers, hdata, hsize, addMembers_agree hagree view hfaces.2 hes hes' hinodes, hheader]

/-! ### The package -/

theorem packageOutput_of_agree {l l' : Listing} (h : Agree l.tree l'.tree)
    (archive : List (TarInfo × List Byte) → Option (List Byte)) (sha256 : List Byte → PyStr) (outputDir : Option PyStr)
    (maxBytes : ℤ) {package : ArtifactPackage}
    (hpackage : packageOutput host archive sha256 outputDir maxBytes l = .ok package) :
    packageOutput host archive sha256 outputDir maxBytes l' = .ok package := by
  unfold packageOutput at hpackage ⊢
  obtain ⟨snapshot, hvalid, hpackage⟩ := bind_ok hpackage
  obtain ⟨paths, hpaths, hpackage⟩ := bind_ok hpackage
  obtain ⟨snapshot', hvalid'⟩ := (validateOutputDir_agree host h outputDir maxBytes).mp ⟨snapshot, hvalid⟩
  obtain ⟨hall, rfl⟩ := (artifactMembers_ok_iff host _ _ _).mp hpaths
  have hpaths' := (artifactMembers_ok_iff host l'.tree.view l'.packaged _).mpr ⟨isFile_agree host h hall, rfl⟩
  have hsame := addMembers_agree host h l.tree.view (sorted_faces_eq h) (fun e => mem_of_mem_members)
    (fun e => mem_of_mem_members) (InodesAgree.nil l.tree l'.tree)
  rw [hvalid', hpaths']
  show addMembers host l'.tree.view [] _ >>= _ = _
  rw [← h.view_eq, ← hsame]
  exact hpackage

end Host

/-- A tree of two paths of one file and a link, on one host. -/
def builtHere : Tree where
  entries :=
    [⟨py "c", ⟨.symlink (py "a"), 0o777⟩, (12, 1), 1, 1000, 1000, py "engine", py "engine", 5⟩,
      ⟨py "b", ⟨.file [1, 2], 0o644⟩, (11, 1), 2, 1000, 1000, py "engine", py "engine", 6⟩,
      ⟨py "a", ⟨.file [1, 2], 0o644⟩, (11, 1), 2, 1000, 1000, py "engine", py "engine", 6⟩]
  paths_nodup := by decide
  ino_ne_zero := by decide
  linked := by decide

/-- The same on another host. -/
def builtThere : Tree where
  entries :=
    [⟨py "a", ⟨.file [1, 2], 0o644⟩, (70, 3), 3, 0, 0, py "root", py "root", 8⟩,
      ⟨py "b", ⟨.file [1, 2], 0o644⟩, (70, 3), 3, 0, 0, py "root", py "root", 8⟩,
      ⟨py "c", ⟨.symlink (py "a"), 0o777⟩, (71, 3), 1, 0, 0, py "root", py "root", 9⟩]
  paths_nodup := by decide
  ino_ne_zero := by decide
  linked := by decide

theorem agree_built : Agree builtHere builtThere where
  faces face := by
    have hperm : (builtHere.entries.map Entry.face).Perm (builtThere.entries.map Entry.face) := by decide
    exact hperm.mem_iff
  grouping := by decide

/-- A host on which every link of the tree is a file in the output directory. -/
def plainHost : Host where
  projectRoot := [py "attempt"]
  resolveOutput dir := some [py "attempt", dir]
  isDir _ := true
  resolve _ path := some [py "attempt", py "out", path]
  linkIsFile _ _ := some true
  opens _ _ := true

end BuildEngine.Executor.Determinism
