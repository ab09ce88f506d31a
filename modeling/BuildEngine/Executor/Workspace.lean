import BuildEngine.Base.Table
import BuildEngine.Base.PyStr

/-! # Workspaces

`executor/workspace.py` on the directory `workspaces`: a table of its subdirectories by their names, which are
attempt identifiers, with the time of the `FAILED` marker of those that have one. What is inside a workspace
is left out. The calls report the directories they remove or make. -/

namespace BuildEngine.Executor.Workspace

open BuildEngine.Base

/-- A directory `workspaces/<attempt_id>`, and `st_mtime_ns` of its marker `FAILED`. -/
structure WorkspaceDir where
  attemptId : PyStr
  failedAt : Option ℤ
  deriving DecidableEq

/-- The directory `workspaces`. -/
abbrev Disk := Table WorkspaceDir.attemptId

/-- The name of a directory. -/
def named (a : PyStr) (w : WorkspaceDir) : Bool := w.attemptId = a

theorem find?_delete_named (disk : Disk) (a : PyStr) : (disk.delete (named a)).find? a = none := by
  rw [Table.find?_delete, Option.filter_eq_none_iff]
  intro w hw
  simp [named, Table.key_of_find? hw]

/-- A directory that is there is removed, and a fresh one is made. -/
def freshWorkspace (a : PyStr) (disk : Disk) : Disk :=
  (disk.delete (named a)).insert ⟨a, none⟩ (find?_delete_named disk a)

/-- `create_workspace`; `none` where `_validate_path_component` raises. -/
def createWorkspace (a : PyStr) (disk : Disk) : Option Disk :=
  if isUuid a then some (freshWorkspace a disk) else none

/-- `marker.touch(exist_ok=True)` -/
def markFailed (mtime : ℤ) (w : WorkspaceDir) : WorkspaceDir := { w with failedAt := some mtime }

theorem attemptId_markFailed (mtime : ℤ) (w : WorkspaceDir) : (markFailed mtime w).attemptId = w.attemptId := rfl

/-- `sorted(…, key=(st_mtime_ns, name), reverse=True)` -/
def newestFirst (v w : WorkspaceDir) : Prop :=
  w.failedAt.getD 0 < v.failedAt.getD 0 ∨
    (v.failedAt.getD 0 = w.failedAt.getD 0 ∧ w.attemptId ≤ v.attemptId)

instance : DecidableRel newestFirst := fun _ _ => inferInstanceAs (Decidable (_ ∨ _))

/-- `items[start:]` -/
def sliceFrom {α : Type} (start : ℤ) (items : List α) : List α :=
  items.drop (if start < 0 then (items.length + start).toNat else start.toNat)

/-- The directories `_prune_failed_workspaces` removes. -/
def failedBeyond (keep : ℤ) (disk : Disk) : List PyStr :=
  (sliceFrom keep (disk.select (·.failedAt.isSome) newestFirst)).map WorkspaceDir.attemptId

/-- `_prune_failed_workspaces` -/
def pruneFailedWorkspaces (keep : ℤ) (disk : Disk) : Disk :=
  disk.delete fun w => w.attemptId ∈ failedBeyond keep disk

/-- `cleanup_workspace`: the directories it cleans up or removes, and the disk after it; `none` where the
marker cannot be made because the directory is gone, and the call raises. -/
def cleanupWorkspace (a : PyStr) (retainFailed : Bool) (failedKeep mtime : ℤ) (disk : Disk) :
    Option (List PyStr × Disk) :=
  if retainFailed then
    match disk.find? a with
    | none => none
    | some _ =>
      let marked := disk.update (named a) (markFailed mtime) (attemptId_markFailed mtime)
      some (a :: failedBeyond failedKeep marked, pruneFailedWorkspaces failedKeep marked)
  else some ([a], disk.delete (named a))

/-! ### Markers -/

theorem mem_of_mem_sliceFrom {α : Type} {start : ℤ} {items : List α} {x : α}
    (h : x ∈ sliceFrom start items) : x ∈ items := List.mem_of_mem_drop h

/-- Only a directory with a marker is pruned. -/
theorem failedAt_of_failedBeyond {keep : ℤ} {disk : Disk} {a : PyStr} (h : a ∈ failedBeyond keep disk) :
    ∃ w ∈ disk.rows, w.attemptId = a ∧ w.failedAt.isSome := by
  obtain ⟨w, hw, rfl⟩ := List.mem_map.mp h
  obtain ⟨hm, hf⟩ := Table.mem_select.mp (mem_of_mem_sliceFrom hw)
  exact ⟨w, hm, rfl, hf⟩

/-- The workspace of the attempt, if there is one, has no marker. -/
def Unmarked (a : PyStr) (disk : Disk) : Prop := ∀ w ∈ disk.rows, w.attemptId = a → w.failedAt = none

theorem unmarked_freshWorkspace (a : PyStr) (disk : Disk) : Unmarked a (freshWorkspace a disk) := by
  intro w hw ha
  rcases Table.mem_insert.mp hw with hw | rfl
  · have := (Table.mem_delete.mp hw).2
    simp [named, ha] at this
  · rfl

/-- A workspace of another attempt keeps its marker, or its lack of one. -/
theorem Unmarked.freshWorkspace {a b : PyStr} {disk : Disk} (h : Unmarked b disk) :
    Unmarked b (freshWorkspace a disk) := by
  by_cases hab : b = a
  · rw [hab]; exact unmarked_freshWorkspace a disk
  · intro w hw hb
    rcases Table.mem_insert.mp hw with hw | rfl
    · exact h w (Table.mem_delete.mp hw).1 hb
    · exact absurd hb.symm hab

theorem Unmarked.markFailed {a b : PyStr} {disk : Disk} (h : Unmarked b disk) (hne : b ≠ a) (mtime : ℤ) :
    Unmarked b (disk.update (named a) (markFailed mtime) (attemptId_markFailed mtime)) := by
  intro w hw hb
  obtain ⟨v, hv, rfl⟩ := Table.mem_update.mp hw
  split_ifs at hb ⊢ with hn
  · have hva : v.attemptId = a := of_decide_eq_true hn
    exact absurd (hb.symm.trans hva) hne
  · exact h v hv hb

/-- Cleaning up the workspace of an attempt marks no other. -/
theorem Unmarked.cleanupWorkspace {a b : PyStr} {retain : Bool} {keep mtime : ℤ} {disk disk' : Disk}
    {dirs : List PyStr} (h : Unmarked b disk) (hne : b ≠ a)
    (hc : cleanupWorkspace a retain keep mtime disk = some (dirs, disk')) :
    Unmarked b disk' ∧ b ∉ dirs := by
  unfold Workspace.cleanupWorkspace at hc
  split_ifs at hc
  · split at hc
    · cases hc
    · cases hc
      have hmark := h.markFailed hne mtime
      constructor
      · exact fun w hw hb => hmark w (Table.mem_delete.mp hw).1 hb
      · intro hm
        rcases List.mem_cons.mp hm with rfl | hm
        · exact hne rfl
        · obtain ⟨w, hw, hb, hf⟩ := failedAt_of_failedBeyond hm
          rw [hmark w hw hb] at hf; cases hf
  · cases hc
    exact ⟨fun w hw hb => h w (Table.mem_delete.mp hw).1 hb, by simpa using hne⟩

end BuildEngine.Executor.Workspace
