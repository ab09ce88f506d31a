import BuildEngine.Base.LexicalPath
import BuildEngine.Base.Words

/-! # The members of a source archive

`extract_source` validates every member before it extracts one. The destination is fresh: nothing is below it, and the
directories above it are real, so `resolve` follows a path lexically as long as it meets no other directory (`Host`).
`_validate_member` takes the target of every link from the directory of the link, which is right for a symbolic link;
but tar takes the target of a hard link from the root of the archive, so a hard link in a directory may climb out
(`members_safe_iff`). -/

namespace BuildEngine.Executor.ArchiveMembers

open BuildEngine.Base BuildEngine.Base.LexicalPath

/-! ### Members -/

/-- The type of a member. -/
inductive MemberType where
  | regular | directory | symlink | hardlink | characterDevice | blockDevice | fifo | other
  deriving DecidableEq

/-- `isfifo` -/
def MemberType.isfifo (t : MemberType) : Bool := t = .fifo

/-- `isdev` -/
def MemberType.isdev (t : MemberType) : Bool := t ∈ [characterDevice, blockDevice, fifo]

/-- `issym` -/
def MemberType.issym (t : MemberType) : Bool := t = .symlink

/-- `islnk` -/
def MemberType.islnk (t : MemberType) : Bool := t = .hardlink

/-- `tarfile.TarInfo` -/
structure TarInfo where
  name : PyStr
  linkname : PyStr
  type : MemberType

/-- `Path(s).is_absolute()` -/
def isAbsolute (s : PyStr) : Bool := s.head? = some (ch '/')

/-- One part of a path text. -/
def partOf (s : PyStr) : PathPart PyStr := if s = py ".." then .up else .name s

/-- `Path(s).parts`, without the root of an absolute path. -/
def parts (s : PyStr) : List (PathPart PyStr) :=
  ((splitOn (py "/") s).filter fun part => part ≠ [] ∧ part ≠ py ".").map partOf

/-! ### The file system -/

/-- A directory above the destination, or one that would be below it. -/
def Known (dest dir : List PyStr) : Prop := dir <+: dest ∨ dest <+: dir

/-- `Path.resolve` of absolute paths on the host; `none` where it raises. Where it meets no directory but those above
and below the destination, it meets no link. -/
structure Host (dest : List PyStr) where
  resolve : List (PathPart PyStr) → Option (List PyStr)
  lexical : ∀ path resolved, Meets (Known dest) [] path → resolve path = some resolved → resolved = walk [] path

/-- A host without links. -/
def linkless (dest : List PyStr) : Host dest where
  resolve path := some (walk [] path)
  lexical _ _ _ h := (Option.some.inj h).symm

/-! ### Validation -/

/-- What `_validate_member` raises: its `WorkspaceError`s, or what `resolve` does. -/
inductive MemberError where
  | unsafePath
  | escapes
  | device
  | absoluteLink
  | linkEscapes
  | unresolvable
  deriving DecidableEq

/-- The text of a `WorkspaceError`. -/
def MemberError.text : MemberError → Option PyStr
  | unsafePath => py "Source archive contains an unsafe path"
  | escapes => py "Source archive member escapes destination"
  | device => py "Source archive contains unsupported device entries"
  | absoluteLink => py "Source archive contains an absolute link target"
  | linkEscapes => py "Source archive link target escapes destination"
  | unresolvable => none

section Validate
variable {dest : List PyStr} (host : Host dest)

/-- The check of a link target, from a directory. -/
def validateLink (parent : List PyStr) (linkname : PyStr) : Except MemberError Unit :=
  if isAbsolute linkname then .error .absoluteLink
  else match host.resolve (parent.map .name ++ parts linkname) with
    | none => .error .unresolvable
    | some resolved => if Inside dest resolved then .ok () else .error .linkEscapes

/-- `_validate_member` -/
def validateMember (member : TarInfo) : Except MemberError Unit :=
  if isAbsolute member.name ∨ .up ∈ parts member.name then .error .unsafePath
  else match host.resolve (dest.map .name ++ parts member.name) with
    | none => .error .unresolvable
    | some resolved =>
      if ¬ Inside dest resolved then .error .escapes
      else if member.type.isdev || member.type.isfifo then .error .device
      else if member.type.issym || member.type.islnk then validateLink host resolved.dropLast member.linkname
      else .ok ()

end Validate

/-! ### What is claimed of a member -/

/-- Where a path text leads lexically, from a directory. -/
def pathFrom (base : List PyStr) (s : PyStr) : List PyStr := walk (if isAbsolute s then [] else base) (parts s)

/-- The path of a member. -/
def TarInfo.path (member : TarInfo) (dest : List PyStr) : List PyStr := pathFrom dest member.name

/-- A member that stays in the destination: its path, the target of a symbolic link from the directory of the link and
the target of a hard link from the root of the archive; and no device or FIFO. -/
structure Safe (dest : List PyStr) (member : TarInfo) : Prop where
  path : Inside dest (member.path dest)
  symlink : member.type = .symlink → Inside dest (pathFrom (member.path dest).dropLast member.linkname)
  hardlink : member.type = .hardlink → Inside dest (pathFrom dest member.linkname)
  device : member.type.isdev = false ∧ member.type.isfifo = false

/-! ### What is accepted -/

section Accept
variable {dest : List PyStr} (host : Host dest)

/-- The path leads into the destination on the host. -/
def LedInside (path : List (PathPart PyStr)) : Prop := ∃ resolved, host.resolve path = some resolved ∧ Inside dest resolved

/-- The target of a link, from its directory. -/
def linkPath (member : TarInfo) : List (PathPart PyStr) :=
  (member.path dest).dropLast.map .name ++ parts member.linkname

/-- None of the reasons to refuse a member. -/
structure Acceptable (member : TarInfo) : Prop where
  relative : isAbsolute member.name = false
  noUp : .up ∉ parts member.name
  resolvable : (host.resolve (dest.map .name ++ parts member.name)).isSome = true
  device : member.type.isdev = false ∧ member.type.isfifo = false
  link : member.type = .symlink ∨ member.type = .hardlink →
    isAbsolute member.linkname = false ∧ LedInside host (@linkPath dest member)

/-- A path without `..` is a list of names. -/
theorem exists_names : ∀ {ps : List (PathPart PyStr)}, .up ∉ ps → ∃ names : List PyStr, ps = names.map .name
  | [], _ => ⟨[], rfl⟩
  | p :: ps, h => by
    obtain ⟨hp, hps⟩ := not_or.mp (List.mem_cons.not.mp h)
    obtain ⟨names, rfl⟩ := exists_names hps
    rcases p with _ | n
    · exact absurd rfl hp
    · exact ⟨n :: names, rfl⟩

theorem walk_absolute (base : List PyStr) (ps : List (PathPart PyStr)) : walk [] (base.map .name ++ ps) = walk base ps := by
  rw [walk_append, walk_names, List.nil_append]

/-- The path of a member without `..` is where it is resolved to, below the destination. -/
theorem path_of_names {member : TarInfo} (hrel : isAbsolute member.name = false) (hup : .up ∉ parts member.name) :
    ∃ names, member.path dest = dest ++ names ∧ ∀ resolved,
      host.resolve (dest.map .name ++ parts member.name) = some resolved → resolved = member.path dest := by
  obtain ⟨names, hnames⟩ := exists_names hup
  have hpath : member.path dest = dest ++ names := by
    unfold TarInfo.path pathFrom
    rw [hrel, if_neg Bool.false_ne_true, hnames, walk_names]
  have hmeets : Meets (Known dest) [] (dest.map .name ++ parts member.name) := by
    rw [hnames, ← List.map_append]
    refine meets_names fun front back h => ?_
    rcases List.append_eq_append_iff.mp h with ⟨more, hmore, -⟩ | ⟨more, hmore, -⟩
    · exact Or.inr ⟨more, hmore.symm⟩
    · exact Or.inl ⟨more, hmore.symm⟩
  refine ⟨names, hpath, fun resolved hresolved => ?_⟩
  rw [host.lexical _ resolved hmeets hresolved, walk_absolute, hnames, walk_names, hpath]

theorem validateLink_ok_iff (parent : List PyStr) (linkname : PyStr) : validateLink host parent linkname = .ok () ↔
    isAbsolute linkname = false ∧ LedInside host (parent.map .name ++ parts linkname) := by
  unfold validateLink LedInside
  rcases isAbsolute linkname with _ | _
  · rw [if_neg Bool.false_ne_true]
    generalize host.resolve (parent.map .name ++ parts linkname) = led
    rcases led with _ | resolved
    · simp
    · by_cases hinside : Inside dest resolved <;> simp [hinside]
  · simp

/-- **The members that are accepted.** -/
theorem validateMember_ok_iff (member : TarInfo) : validateMember host member = .ok () ↔ Acceptable host member := by
  unfold validateMember
  by_cases hunsafe : isAbsolute member.name = true ∨ .up ∈ parts member.name
  · rw [if_pos hunsafe]
    refine iff_of_false (fun h => (by cases h)) fun h => ?_
    rcases hunsafe with habs | hup
    · exact Bool.false_ne_true (h.relative.symm.trans habs)
    · exact h.noUp hup
  · rw [if_neg hunsafe]
    obtain ⟨habs, hup⟩ := not_or.mp hunsafe
    have hrel : isAbsolute member.name = false := by simpa using habs
    obtain ⟨names, hpath, hresolve⟩ := path_of_names host hrel hup
    obtain ⟨led, hled⟩ : ∃ led, host.resolve (dest.map .name ++ parts member.name) = led := ⟨_, rfl⟩
    rw [hled]
    rcases led with _ | resolved
    · refine iff_of_false (fun h => (by cases h)) fun h => ?_
      have hsome := h.resolvable
      rw [hled] at hsome
      exact Bool.false_ne_true hsome
    · have hinside : Inside dest resolved := by
        rw [hresolve resolved hled, hpath]
        exact List.prefix_append dest names
      dsimp only
      rw [if_neg (not_not.mpr hinside)]
      have hsome : (host.resolve (dest.map .name ++ parts member.name)).isSome = true := by rw [hled]; rfl
      by_cases hdevice : (member.type.isdev || member.type.isfifo) = true
      · rw [if_pos hdevice]
        refine iff_of_false (fun h => (by cases h)) fun h => ?_
        rw [h.device.1, h.device.2] at hdevice
        exact Bool.false_ne_true hdevice
      · rw [if_neg hdevice]
        have hdev : member.type.isdev = false ∧ member.type.isfifo = false := by
          simpa [Bool.or_eq_true, not_or] using hdevice
        have hkind : (member.type.issym || member.type.islnk) = true ↔
            member.type = .symlink ∨ member.type = .hardlink := by
          simp [MemberType.issym, MemberType.islnk]
        by_cases hlink : (member.type.issym || member.type.islnk) = true
        · rw [if_pos hlink, validateLink_ok_iff, hresolve resolved hled]
          exact ⟨fun h => ⟨hrel, hup, hsome, hdev, fun _ => h⟩, fun h => h.link (hkind.mp hlink)⟩
        · rw [if_neg hlink]
          exact ⟨fun _ => ⟨hrel, hup, hsome, hdev, fun h => absurd (hkind.mpr h) hlink⟩, fun _ => rfl⟩

/-! ### Which members are safe -/

/-- A link of the host leads a path back that has left the destination. -/
def LedBack (path : List (PathPart PyStr)) : Prop := LedInside host path ∧ ¬ Inside dest (walk [] path)

/-- The target of a hard link does not climb, or goes down again by the last names of the destination; and no link of
the host leads the target of a symbolic link back into the destination. -/
structure Harmless (member : TarInfo) : Prop where
  hardlink : member.type = .hardlink → dest.drop (dest.length - (climb (parts member.linkname)).1) <+:
    (climb (parts member.linkname)).2
  symlink : member.type = .symlink → ¬ LedBack host (@linkPath dest member)

/-- Where only directories above and below the destination are met, nothing leads back. -/
theorem not_ledBack {path : List (PathPart PyStr)} (h : Meets (Known dest) [] path) : ¬ LedBack host path := by
  rintro ⟨⟨resolved, hresolved, hinside⟩, hnot⟩
  rw [host.lexical path resolved h hresolved] at hinside
  exact hnot hinside

variable {host} {member : TarInfo}

theorem pathFrom_relative (base : List PyStr) {s : PyStr} (h : isAbsolute s = false) :
    pathFrom base s = walk base (parts s) := by
  unfold pathFrom
  rw [h, if_neg Bool.false_ne_true]

/-- Of the accepted members the harmless ones are safe. -/
theorem Acceptable.safe_iff (h : Acceptable host member) : Safe dest member ↔ Harmless host member := by
  obtain ⟨names, hpath, -⟩ := path_of_names host h.relative h.noUp
  constructor
  · intro hsafe
    refine ⟨fun hhard => ?_, fun hsym hback => hback.2 ?_⟩
    · have hinside := hsafe.hardlink hhard
      rwa [pathFrom_relative dest (h.link (Or.inr hhard)).1, inside_walk_iff] at hinside
    · have hinside := hsafe.symlink hsym
      unfold linkPath
      rwa [walk_absolute, ← pathFrom_relative _ (h.link (Or.inl hsym)).1]
  · intro hharmless
    refine ⟨?_, fun hsym => ?_, fun hhard => ?_, h.device⟩
    · rw [hpath]
      exact List.prefix_append dest names
    · obtain ⟨hrel, hled⟩ := h.link (Or.inl hsym)
      have hinside := by_contra fun hnot => hharmless.symlink hsym ⟨hled, hnot⟩
      unfold linkPath at hinside
      rwa [walk_absolute, ← pathFrom_relative _ hrel] at hinside
    · rw [pathFrom_relative dest (h.link (Or.inr hhard)).1, inside_walk_iff]
      exact hharmless.hardlink hhard

end Accept

/-- **The check of an archive** is as strong as tar's semantics exactly if a member is refused or no accepted link is
harmful. -/
theorem members_safe_iff {dest : List PyStr} (host : Host dest) (members : List TarInfo) :
    ((∀ member ∈ members, validateMember host member = .ok ()) → ∀ member ∈ members, Safe dest member) ↔
      (∃ member ∈ members, ¬ Acceptable host member) ∨ ∀ member ∈ members, Harmless host member := by
  constructor
  · intro h
    by_cases hall : ∀ member ∈ members, Acceptable host member
    · refine Or.inr fun member hmember => ?_
      have hsafe := h (fun m hm => (validateMember_ok_iff host m).mpr (hall m hm)) member hmember
      exact (hall member hmember).safe_iff.mp hsafe
    · exact Or.inl (by simpa using hall)
  · rintro (⟨refused, hmem, hrefused⟩ | hharmless) hok member hmember
    · exact absurd ((validateMember_ok_iff host refused).mp (hok refused hmem)) hrefused
    · exact ((validateMember_ok_iff host member).mp (hok member hmember)).safe_iff.mpr (hharmless member hmember)

/-- A hard link in a directory of the archive whose target climbs one level. -/
def climbingLink : TarInfo := ⟨py "a/b", py "../x", .hardlink⟩

/-- It is accepted, and its target is outside of the destination. -/
theorem climbingLink_accepted : ¬ ∀ (dest : List PyStr) (host : Host dest) (members : List TarInfo),
    (∀ member ∈ members, validateMember host member = .ok ()) → ∀ member ∈ members, Safe dest member := by
  intro h
  have hok : validateMember (linkless [py "srv", py "src"]) climbingLink = .ok () := by rfl
  have hout : ¬ Inside [py "srv", py "src"] (pathFrom [py "srv", py "src"] climbingLink.linkname) := by decide
  have hsafe := h [py "srv", py "src"] (linkless _) [climbingLink]
    (fun member hmember => by rw [List.mem_singleton.mp hmember]; exact hok) climbingLink List.mem_cons_self
  exact hout (hsafe.hardlink rfl)

end BuildEngine.Executor.ArchiveMembers
