import Deflow.Path.Basic
import Deflow.Text.Elapsed

/-!
# Tallies

What a run counts: the files of one directory, and the totals of a whole tree.
Totals grow only by whole directories.
-/

namespace Deflow

/-- Counts of files. -/
structure FileCounts where
  /-- Files that take part in a run. -/
  encountered : Nat := 0
  /-- Files that were processed. -/
  eligible : Nat := 0
  /-- Files left alone because they are results of an earlier run. -/
  skipped : Nat := 0
  succeeded : Nat := 0
  failed : Nat := 0
deriving DecidableEq, Repr

namespace FileCounts

/-- The counts with one more file that was left alone. -/
def addSkipped (counts : FileCounts) : FileCounts :=
  { counts with encountered := counts.encountered + 1, skipped := counts.skipped + 1 }

/-- The counts with one more file that was processed. -/
def addOutcome (counts : FileCounts) (success : Bool) : FileCounts :=
  { counts with
    encountered := counts.encountered + 1
    eligible := counts.eligible + 1
    succeeded := counts.succeeded + if success then 1 else 0
    failed := counts.failed + if success then 0 else 1 }

/-- The counts of two sets of files together. -/
def merge (first second : FileCounts) : FileCounts where
  encountered := first.encountered + second.encountered
  eligible := first.eligible + second.eligible
  skipped := first.skipped + second.skipped
  succeeded := first.succeeded + second.succeeded
  failed := first.failed + second.failed

/-- Whether every file that takes part was either processed or left alone, and
every processed one either succeeded or failed. -/
def isConsistent (counts : FileCounts) : Bool :=
  counts.eligible + counts.skipped == counts.encountered &&
    counts.succeeded + counts.failed == counts.eligible

@[simp]
theorem merge_empty (counts : FileCounts) : counts.merge {} = counts :=
  rfl

@[simp]
theorem empty_merge (counts : FileCounts) : merge {} counts = counts := by
  simp [merge]

theorem merge_assoc (first second third : FileCounts) :
    (first.merge second).merge third = first.merge (second.merge third) := by
  simp [merge, Nat.add_assoc]

theorem isConsistent_iff (counts : FileCounts) :
    counts.isConsistent = true ↔
      counts.eligible + counts.skipped = counts.encountered ∧
        counts.succeeded + counts.failed = counts.eligible := by
  simp [isConsistent]

theorem isConsistent_addSkipped {counts : FileCounts} (consistent : counts.isConsistent = true) :
    counts.addSkipped.isConsistent = true := by
  rw [isConsistent_iff] at consistent ⊢
  simp only [addSkipped]
  omega

theorem isConsistent_addOutcome {counts : FileCounts} (consistent : counts.isConsistent = true)
    (success : Bool) : (counts.addOutcome success).isConsistent = true := by
  rw [isConsistent_iff] at consistent ⊢
  cases success <;> simp only [addOutcome] <;> simp <;> omega

end FileCounts

/-- The counts of the files in one directory, without its subdirectories. -/
structure DirectoryTally where
  path : Path
  depth : Nat
  counts : FileCounts
deriving DecidableEq, Repr

/-- The totals of a tree. -/
structure Totals where
  files : FileCounts := {}
  /-- Directories that were listed. -/
  directories : Nat := 0
  /-- Directories that could not be listed. -/
  unreadable : Nat := 0
  elapsed : Duration := {}
deriving DecidableEq, Repr

namespace Totals

/-- The totals with one more directory that was listed. -/
def addDirectory (totals : Totals) (directory : DirectoryTally) : Totals :=
  { totals with
    files := totals.files.merge directory.counts
    directories := totals.directories + 1 }

/-- The totals with one more directory that could not be listed. -/
def addUnreadable (totals : Totals) : Totals :=
  { totals with unreadable := totals.unreadable + 1 }

/-- The totals with those of a subtree. Times are not added up. -/
def merge (totals subtree : Totals) : Totals :=
  { totals with
    files := totals.files.merge subtree.files
    directories := totals.directories + subtree.directories
    unreadable := totals.unreadable + subtree.unreadable }

end Totals

end Deflow
