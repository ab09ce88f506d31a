import Mathlib.Tactic

/-! # A file system that can lose its power

Names of type `ν` lead to files by their number, as directory entries lead to inodes; the text of a file is a
list over `β`. An opened file is written by its number, whatever its name leads to by then. A power loss
brings back any of the directories there have been, and of a file that was written after its last `fsync` nothing
is known (`powerLoss`); the bits and the owner of a file are kept, as a journal keeps them in order. -/

namespace BuildEngine.Base.FileSystem

/-- A file: its text, its text at the last `fsync`, its permission bits and its owner. -/
structure File (β ω : Type*) where
  content : List β
  synced : List β
  mode : ℕ
  owner : ω

/-- The files, the first number no file has had, the directory, and the directories there have been. -/
structure Disk (ν β ω : Type*) where
  files : ℕ → File β ω
  next : ℕ
  dir : ν → Option ℕ
  past : List (ν → Option ℕ)
  used : ∀ d ∈ dir :: past, ∀ n i, d n = some i → i < next

variable {ν β ω : Type*}

/-- The directories a power loss can bring back. -/
def Disk.dirs (k : Disk ν β ω) : List (ν → Option ℕ) := k.dir :: k.past

/-- The file a name leads to. -/
def Disk.lookup (k : Disk ν β ω) (n : ν) : Option (File β ω) := (k.dir n).map k.files

/-- A file is changed. -/
def Disk.modify (k : Disk ν β ω) (i : ℕ) (f : File β ω → File β ω) : Disk ν β ω :=
  { k with files := Function.update k.files i (f (k.files i)) }

/-- `write` -/
def Disk.write (k : Disk ν β ω) (i : ℕ) (chunk : List β) : Disk ν β ω :=
  k.modify i fun f => { f with content := f.content ++ chunk }

/-- `fsync` -/
def Disk.fsync (k : Disk ν β ω) (i : ℕ) : Disk ν β ω := k.modify i fun f => { f with synced := f.content }

/-- `fchmod` -/
def Disk.fchmod (k : Disk ν β ω) (i : ℕ) (mode : ℕ) : Disk ν β ω := k.modify i fun f => { f with mode := mode }

/-- `fchown` -/
def Disk.fchown (k : Disk ν β ω) (i : ℕ) (owner : ω) : Disk ν β ω := k.modify i fun f => { f with owner := owner }

section Names
variable [DecidableEq ν]

/-- A name leads elsewhere from now on. -/
def Disk.link (k : Disk ν β ω) (d : ν → Option ℕ) (h : ∀ n i, d n = some i → i < k.next) : Disk ν β ω where
  files := k.files
  next := k.next
  dir := d
  past := k.dirs
  used := by
    intro d' hd'
    rcases List.mem_cons.mp hd' with rfl | hd'
    · exact h
    · exact k.used d' hd'

/-- `open` with `O_CREAT` and `O_EXCL`, of a name that leads nowhere. -/
def Disk.create (k : Disk ν β ω) (n : ν) (mode : ℕ) (owner : ω) : Disk ν β ω where
  files := Function.update k.files k.next ⟨[], [], mode, owner⟩
  next := k.next + 1
  dir := Function.update k.dir n (some k.next)
  past := k.dirs
  used := by
    intro d hd m i hi
    rcases List.mem_cons.mp hd with rfl | hd
    · by_cases hm : m = n
      · subst hm
        rw [Function.update_self] at hi
        cases hi
        omega
      · rw [Function.update_of_ne hm] at hi
        have := k.used k.dir List.mem_cons_self m i hi
        omega
    · have := k.used d hd m i hi
      omega

/-- `unlink`; a name that leads nowhere is left alone. -/
def Disk.unlink (k : Disk ν β ω) (n : ν) : Disk ν β ω :=
  k.link (Function.update k.dir n none) (by
    intro m i hi
    by_cases hm : m = n
    · subst hm
      rw [Function.update_self] at hi
      cases hi
    · rw [Function.update_of_ne hm] at hi
      exact k.used k.dir List.mem_cons_self m i hi)

/-- `rename` of a file to another name, in one step: the name leads to the file, and the old name nowhere. -/
def Disk.rename (k : Disk ν β ω) (n m : ν) : Disk ν β ω :=
  k.link (Function.update (Function.update k.dir n none) m (k.dir n)) (by
    intro x i hi
    by_cases hx : x = m
    · subst hx
      rw [Function.update_self] at hi
      exact k.used k.dir List.mem_cons_self n i hi
    · rw [Function.update_of_ne hx] at hi
      by_cases hxn : x = n
      · subst hxn
        rw [Function.update_self] at hi
        cases hi
      · rw [Function.update_of_ne hxn] at hi
        exact k.used k.dir List.mem_cons_self x i hi)

end Names

/-- The power is lost and comes back: the directory is one there has been, and the files that were not synced have
any text. -/
def Disk.powerLoss (k : Disk ν β ω) [DecidableEq β] (age : ℕ) (torn : ℕ → List β) : Disk ν β ω where
  files i := if (k.files i).content = (k.files i).synced then k.files i
    else { k.files i with content := torn i, synced := torn i }
  next := k.next
  dir := k.dirs[age]?.getD k.dir
  past := []
  used := by
    intro d hd n i hi
    rw [List.mem_singleton.mp hd] at hi
    rcases hget : k.dirs[age]? with _ | d'
    · rw [hget, Option.getD_none] at hi
      exact k.used k.dir List.mem_cons_self n i hi
    · rw [hget, Option.getD_some] at hi
      exact k.used d' (List.mem_of_getElem? hget) n i hi

/-! ### What the operations leave alone -/

@[simp] theorem Disk.next_modify (k : Disk ν β ω) (i : ℕ) (f : File β ω → File β ω) :
    (k.modify i f).next = k.next := rfl

@[simp] theorem Disk.files_modify_self (k : Disk ν β ω) (i : ℕ) (f : File β ω → File β ω) :
    (k.modify i f).files i = f (k.files i) := by
  simp [modify]

theorem Disk.files_modify_of_ne (k : Disk ν β ω) {i j : ℕ} (h : j ≠ i) (f : File β ω → File β ω) :
    (k.modify i f).files j = k.files j := by
  simp [modify, h]

theorem Disk.files_create_self [DecidableEq ν] (k : Disk ν β ω) (n : ν) (mode : ℕ) (owner : ω) :
    (k.create n mode owner).files k.next = ⟨[], [], mode, owner⟩ := by
  simp [create]

theorem Disk.dir_create_self [DecidableEq ν] (k : Disk ν β ω) (n : ν) (mode : ℕ) (owner : ω) :
    (k.create n mode owner).dir n = some k.next := by
  simp [create]

theorem Disk.dir_create_of_ne [DecidableEq ν] (k : Disk ν β ω) {n m : ν} (h : m ≠ n) (mode : ℕ) (owner : ω) :
    (k.create n mode owner).dir m = k.dir m := by
  simp [create, h]

/-- The directory after a power loss is one there has been. -/
theorem Disk.dirs_powerLoss [DecidableEq β] (k : Disk ν β ω) (age : ℕ) (torn : ℕ → List β) :
    ∀ d ∈ (k.powerLoss age torn).dirs, d ∈ k.dirs := by
  intro d hd
  rw [List.mem_singleton.mp hd]
  show k.dirs[age]?.getD k.dir ∈ k.dirs
  rcases hget : k.dirs[age]? with _ | d'
  · exact List.mem_cons_self
  · rw [Option.getD_some]
    exact List.mem_of_getElem? hget

/-- A file that is synced survives a power loss. -/
theorem Disk.files_powerLoss [DecidableEq β] {k : Disk ν β ω} {i : ℕ}
    (h : (k.files i).content = (k.files i).synced) (age : ℕ) (torn : ℕ → List β) :
    (k.powerLoss age torn).files i = k.files i := if_pos h

theorem Disk.mode_powerLoss [DecidableEq β] (k : Disk ν β ω) (age : ℕ) (torn : ℕ → List β) (i : ℕ) :
    ((k.powerLoss age torn).files i).mode = (k.files i).mode := by
  show (if _ then _ else _ : File β ω).mode = _
  split <;> rfl

theorem Disk.owner_powerLoss [DecidableEq β] (k : Disk ν β ω) (age : ℕ) (torn : ℕ → List β) (i : ℕ) :
    ((k.powerLoss age torn).files i).owner = (k.files i).owner := by
  show (if _ then _ else _ : File β ω).owner = _
  split <;> rfl

end BuildEngine.Base.FileSystem
