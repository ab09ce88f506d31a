import BuildEngine.Base.Dict
import BuildEngine.Base.LexicalPath
import BuildEngine.Base.Outcome
import BuildEngine.Base.Utf8

/-! # Packaging the output

`validate_output_dir` of `executor/validate.py` and `package_output` of `executor/artifact.py`, on the tree below the
output directory. An entry of the tree has what an archive is about (`Look`), and what is about the host only: its
inode, its owner and its times. The system answers questions about links and access from the looks alone (`Host`): the
tree belongs to the user that asks, for whom the containers run. What tar and gzip write is a function of the members
they are given. -/

namespace BuildEngine.Executor.Artifact

open BuildEngine.Base BuildEngine.Base.LexicalPath

/-! ### Trees -/

/-- What an entry is: a file with its contents, a directory, a link with its target, or something else, with its
format in `st_mode`. -/
inductive Kind where
  | file (data : List Byte)
  | directory
  | symlink (target : PyStr)
  | special (format : ℕ)
  deriving DecidableEq

/-- What an entry is, and its permission bits. -/
structure Look where
  kind : Kind
  permissions : ℕ
  deriving DecidableEq

/-- An entry, with its path relative to the output directory. -/
structure Entry where
  path : PyStr
  look : Look
  inode : ℕ × ℕ
  nlink : ℕ
  uid : ℕ
  gid : ℕ
  uname : PyStr
  gname : PyStr
  mtime : ℤ

/-- A regular file. -/
def Entry.isRegular (e : Entry) : Bool :=
  match e.look.kind with
  | .file _ => true
  | _ => false

/-- The path and the look of an entry. -/
def Entry.face (e : Entry) : PyStr × Look := (e.path, e.look)

/-- The tree below the output directory. Inode numbers are not zero, and the link count of a file counts its paths. -/
structure Tree where
  entries : List Entry
  paths_nodup : (entries.map Entry.path).Nodup
  ino_ne_zero : ∀ e ∈ entries, e.inode.1 ≠ 0
  linked : ∀ e ∈ entries, ∀ f ∈ entries, e.isRegular = true → f.isRegular = true → e.inode = f.inode →
    e.path ≠ f.path → 1 < e.nlink

/-- What is at the paths of a tree. -/
abbrev View := PyStr → Option Look

/-- What is at the paths of the tree. -/
def Tree.view (t : Tree) : View := fun path => (t.entries.find? fun e => e.path = path).map Entry.look

/-- A tree, and the orders in which `rglob` gives its entries to the validation and to the packaging. -/
structure Listing where
  tree : Tree
  validated : List Entry
  packaged : List Entry
  validated_perm : validated.Perm tree.entries
  packaged_perm : packaged.Perm tree.entries

/-- The system around the output directory: `none` where a call raises. -/
structure Host where
  /-- `Path(project_root).resolve()` -/
  projectRoot : List PyStr
  /-- `(project_root_path / output_dir).resolve()` -/
  resolveOutput : PyStr → Option (List PyStr)
  isDir : List PyStr → Bool
  /-- `resolve()` and `is_file()` of a link in the tree -/
  resolve : View → PyStr → Option (List PyStr)
  linkIsFile : View → PyStr → Option Bool
  /-- `open` succeeds -/
  opens : View → PyStr → Bool

/-! ### Validation -/

/-- What is raised: the `OutputValidationError`s, the `ArtifactError` of an archive that is too large, and what is
called raises. -/
inductive PackageError where
  | noOutputDir
  | absolute
  | escapes
  | notDirectory
  | linkEscapes
  | tooLarge
  | empty
  | archiveTooLarge
  | raised
  deriving DecidableEq

/-- The text of an `ArtifactError`. -/
def PackageError.text : PackageError → Option PyStr
  | noOutputDir => py "No output_dir was resolved for this build"
  | absolute => py "output_dir must be relative"
  | escapes => py "output_dir escapes the project root"
  | notDirectory => py "Build output directory does not exist"
  | linkEscapes => py "Build output contains a symlink escaping output_dir"
  | tooLarge => py "Build output exceeds artifact size limit"
  | empty => py "Build output directory is empty"
  | archiveTooLarge => py "Packaged artifact exceeds configured maximum size"
  | raised => none

section Package
variable (host : Host)

/-- The output directory. -/
def outputPath (outputDir : Option PyStr) : Except PackageError (List PyStr) :=
  match outputDir with
  | none => .error .noOutputDir
  | some dir =>
    if dir = [] then .error .noOutputDir
    else if dir.head? = some (ch '/') then .error .absolute
    else match host.resolveOutput dir with
      | none => .error .raised
      | some path =>
        if ¬ Inside host.projectRoot path then .error .escapes
        else if host.isDir path then .ok path
        else .error .notDirectory

/-- The loop over the entries: the number of files, and of their bytes. -/
def scan (view : View) (root : List PyStr) (maxBytes : ℤ) : List Entry → ℕ → ℕ → Except PackageError (ℕ × ℕ)
  | [], fileCount, totalBytes => .ok (fileCount, totalBytes)
  | e :: es, fileCount, totalBytes =>
    match e.look.kind with
    | .symlink _ =>
      match host.resolve view e.path with
      | none => .error .raised
      | some target =>
        if Inside root target then scan view root maxBytes es fileCount totalBytes else .error .linkEscapes
    | .file data =>
      if maxBytes < ((totalBytes + data.length : ℕ) : ℤ) then .error .tooLarge
      else scan view root maxBytes es (fileCount + 1) (totalBytes + data.length)
    | _ => scan view root maxBytes es fileCount totalBytes

/-- `OutputSnapshot` -/
structure OutputSnapshot where
  path : List PyStr
  fileCount : ℕ
  totalBytes : ℕ

/-- `validate_output_dir` -/
def validateOutputDir (outputDir : Option PyStr) (maxBytes : ℤ) (l : Listing) : Except PackageError OutputSnapshot := do
  let path ← outputPath host outputDir
  let (fileCount, totalBytes) ← scan host l.tree.view path maxBytes l.validated 0 0
  if fileCount = 0 then .error .empty else return ⟨path, fileCount, totalBytes⟩

/-! ### Members -/

/-- `path.is_file()` -/
def isFile (view : View) (e : Entry) : Option Bool :=
  match e.look.kind with
  | .file _ => some true
  | .symlink _ => host.linkIsFile view e.path
  | _ => some false

/-- `path.is_file() or path.is_dir() or path.is_symlink()`, where nothing is raised. -/
def isMember (e : Entry) : Bool :=
  match e.look.kind with
  | .special _ => false
  | _ => true

/-- The order of the members. -/
def pathLe (e f : Entry) : Prop := e.path ≤ f.path

instance decidablePathLe : DecidableRel pathLe := fun e f => inferInstanceAs (Decidable (e.path ≤ f.path))

/-- `_artifact_members` -/
def artifactMembers (view : View) (listed : List Entry) : Except PackageError (List Entry) :=
  if listed.all fun e => (isFile host view e).isSome then .ok ((listed.filter isMember).insertionSort pathLe)
  else .error .raised

/-- The type of a member. -/
inductive TarType where
  | regular | hardlink | symlink | directory | special
  deriving DecidableEq

/-- `TarInfo` -/
structure TarInfo where
  name : PyStr
  mode : ℕ
  uid : ℕ
  gid : ℕ
  size : ℕ
  mtime : ℤ
  type : TarType
  linkname : PyStr
  uname : PyStr
  gname : PyStr
  deriving DecidableEq

/-- `st_mode` -/
def Look.mode (look : Look) : ℕ :=
  look.permissions + match look.kind with
    | .file _ => 0o100000
    | .directory => 0o40000
    | .symlink _ => 0o120000
    | .special format => format

/-- The header of an entry, with its type, its size and its link. -/
def Entry.header (e : Entry) (type : TarType) (size : ℕ) (linkname : PyStr) : TarInfo :=
  ⟨e.path, e.look.mode, e.uid, e.gid, size, e.mtime, type, linkname, e.uname, e.gname⟩

/-- `tar.gettarinfo`, with the inodes of the files that are in the archive. -/
def gettarinfo (inodes : Dict (ℕ × ℕ) PyStr) (e : Entry) : TarInfo × Dict (ℕ × ℕ) PyStr :=
  match e.look.kind with
  | .file data =>
    match Dict.get? inodes e.inode with
    | some linkname =>
      if 1 < e.nlink ∧ e.path ≠ linkname then (e.header .hardlink 0 linkname, inodes)
      else (e.header .regular data.length [], if e.inode.1 = 0 then inodes else inodes ++ [(e.inode, e.path)])
    | none => (e.header .regular data.length [], if e.inode.1 = 0 then inodes else inodes ++ [(e.inode, e.path)])
  | .directory => (e.header .directory 0 [], inodes)
  | .symlink target => (e.header .symlink 0 target, inodes)
  | .special _ => (e.header .special 0 [], inodes)

/-- What is left of a header. -/
def normalized (info : TarInfo) : TarInfo := { info with mtime := 0, uid := 0, gid := 0, uname := [], gname := [] }

/-- The data of a member: as many bytes as the header says, of a file. Nothing is read for the size 0 of a link. -/
def memberData (view : View) (e : Entry) (size : ℕ) : Except PackageError (List Byte) :=
  match isFile host view e with
  | none => .error .raised
  | some false => .ok []
  | some true =>
    if host.opens view e.path then
      match e.look.kind with
      | .file data => .ok (data.take size)
      | _ => .ok []
    else .error .raised

/-- The loop over the members: their headers and data. -/
def addMembers (view : View) : Dict (ℕ × ℕ) PyStr → List Entry → Except PackageError (List (TarInfo × List Byte))
  | _, [] => .ok []
  | inodes, e :: es => do
    let data ← memberData host view e (gettarinfo inodes e).1.size
    let rest ← addMembers view (gettarinfo inodes e).2 es
    return (normalized (gettarinfo inodes e).1, data) :: rest

/-- `ArtifactPackage`, with the bytes at its path. -/
structure ArtifactPackage where
  data : List Byte
  sha256 : PyStr
  sizeBytes : ℕ
  deriving DecidableEq

/-- `package_output`; `archive` is what tar and gzip write, if they do not raise. -/
def packageOutput (archive : List (TarInfo × List Byte) → Option (List Byte)) (sha256 : List Byte → PyStr)
    (outputDir : Option PyStr) (maxBytes : ℤ) (l : Listing) : Except PackageError ArtifactPackage := do
  let _snapshot ← validateOutputDir host outputDir maxBytes l
  let paths ← artifactMembers host l.tree.view l.packaged
  let members ← addMembers host l.tree.view [] paths
  match archive members with
  | none => .error .raised
  | some data =>
    if maxBytes < (data.length : ℤ) then .error .archiveTooLarge else .ok ⟨data, sha256 data, data.length⟩

end Package

end BuildEngine.Executor.Artifact
