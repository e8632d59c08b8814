import Deflow.Run.Event

/-!
# Walking a tree

A directory is listed, its entries are visited in order, and the selector says
what becomes of each. With one job a file is processed as it is met; with more,
the files of a directory are processed together behind everything else in it,
and told of in the order of the listing.
-/

namespace Deflow

/-- How a tree is walked. -/
structure Walker (m : Type → Type) where
  selector : Selector
  /-- How many files are processed at a time. -/
  jobs : Nat := 1
  process : Path → m Outcome

/-- What is known about a directory while its entries are visited. -/
structure Frame where
  counts : FileCounts := {}
  /-- The totals of the subdirectories so far. -/
  totals : Totals := {}
  /-- Files that are still to be processed, the latest first. -/
  pending : List Path := []
deriving DecidableEq, Repr

namespace Walker

variable [Monad m] [Disk m]

/-- Counts and tells of a processed file. -/
def record (report : Reporter m) (depth : Nat) (counts : FileCounts) (file : Path × Outcome) :
    ExceptT OsError m FileCounts := do
  report (.processed file.1 file.2 depth)
  return counts.addOutcome file.2.isSuccess

/-- Visits a file in a directory. -/
def visitEntry (walker : Walker m) (report : Reporter m) (depth : Nat) (frame : Frame)
    (path : Path) (name : Text) : ExceptT OsError m Frame := do
  match walker.selector.fileFate path name with
  | .invisible => return frame
  | .skip =>
    report (.skipped path depth)
    return { frame with counts := frame.counts.addSkipped }
  | .process =>
    if walker.jobs = 1 then
      let outcome ← walker.process path
      let counts ← record report depth frame.counts (path, outcome)
      return { frame with counts }
    else
      return { frame with pending := path :: frame.pending }

/-- Processes files together, then tells of them in order. -/
def processAll (walker : Walker m) (report : Reporter m) (depth : Nat) (counts : FileCounts)
    (paths : List Path) : ExceptT OsError m FileCounts := do
  let outcomes ← (paths.mapM walker.process : m (List Outcome))
  (paths.zip outcomes).foldlM (record report depth) counts

/-- Tells of a directory that cannot be listed. -/
def giveUp (report : Reporter m) (directory : Path) (error : OsError) (depth : Nat) :
    ExceptT OsError m Totals := do
  report (.failed directory error depth)
  return Totals.addUnreadable {}

/-- Walks a directory and everything below it, down to so many levels. -/
def walk (walker : Walker m) (report : Reporter m) :
    (levels : Nat) → (directory : Path) → (depth : Nat) → ExceptT OsError m Totals
  | 0, directory, depth => giveUp report directory .nameTooLong depth
  | levels + 1, directory, depth => do
    match ← ExceptT.lift (Disk.list directory) with
    | .error error => giveUp report directory error depth
    | .ok entries =>
      report (.entered directory depth)
      let frame ← entries.foldlM
        (fun frame entry => do
          let path := directory.join entry.name
          if entry.isDirectory then
            if walker.selector.skipsDirectory path entry.name then
              return frame
            else
              let subtree ← walk walker report levels path (depth + 1)
              return { frame with totals := frame.totals.merge subtree }
          else
            visitEntry walker report depth frame path entry.name)
        ({} : Frame)
      let counts ← processAll walker report depth frame.counts frame.pending.reverse
      let tally : DirectoryTally := ⟨directory, depth, counts⟩
      report (.finished tally)
      return frame.totals.addDirectory tally

/-- Visits one file that was named. Only its extension matters. -/
def visitFile (walker : Walker m) (report : Reporter m) (path : Path) :
    ExceptT OsError m FileCounts := do
  if walker.selector.isEligible path then
    let outcome ← walker.process path
    record report 0 {} (path, outcome)
  else
    report (.ineligible path)
    return {}

end Walker

end Deflow
