import Deflow.Proofs.Run.Telling
import Deflow.Run.Walk

/-!
# The course of a walk

A walk lists a directory and goes through its entries.  What came of them, one after
the other, is the course of the walk inside the directory; a subdirectory that could
be listed has a course of its own.  The events that are told of and everything that
is counted can be read off a course.

A course fits the selector if it holds exactly the entries that the selector chooses,
and it plays on a world if listing the directories and processing the files one after
the other, from that world on, gives the results that it holds.
-/

namespace Deflow

/-- What came of the entries of a directory, one after the other. -/
inductive Course where
  | done
  /-- A file was left alone. -/
  | skipped (name : Text) (rest : Course)
  | processed (name : Text) (outcome : Outcome) (rest : Course)
  /-- A subdirectory could not be listed. -/
  | failed (name : Text) (error : OsError) (rest : Course)
  /-- A subdirectory was listed, and its entries had a course of their own. -/
  | entered (name : Text) (entries : List DirectoryEntry) (inside rest : Course)

/-- What came of a directory. -/
inductive Visit where
  | failed (error : OsError)
  | entered (entries : List DirectoryEntry) (inside : Course)

namespace Course

/-- One course and then another in the same directory. -/
@[simp]
def append : Course → Course → Course
  | .done, next => next
  | .skipped name rest, next => .skipped name (rest.append next)
  | .processed name outcome rest, next => .processed name outcome (rest.append next)
  | .failed name error rest, next => .failed name error (rest.append next)
  | .entered name entries inside rest, next => .entered name entries inside (rest.append next)

/-- The course of files that are processed one after the other. -/
@[simp]
def ofOutcomes : List (Text × Outcome) → Course
  | [] => .done
  | (name, outcome) :: files => .processed name outcome (ofOutcomes files)

/-! ## What a course holds -/

/-- The subdirectories in a directory, and what came of them. -/
def visits : Course → List (Text × Visit)
  | .done => []
  | .skipped _ rest | .processed _ _ rest => rest.visits
  | .failed name error rest => (name, .failed error) :: rest.visits
  | .entered name entries inside rest => (name, .entered entries inside) :: rest.visits

/-- The files in a directory that were left alone. -/
def ownSkips : Course → List Text
  | .done => []
  | .skipped name rest => name :: rest.ownSkips
  | .processed _ _ rest | .failed _ _ rest | .entered _ _ _ rest => rest.ownSkips

/-- The files in a directory that were processed, and what came of them. -/
def ownCalls : Course → List (Text × Outcome)
  | .done => []
  | .processed name outcome rest => (name, outcome) :: rest.ownCalls
  | .skipped _ rest | .failed _ _ rest | .entered _ _ _ rest => rest.ownCalls

/-- The counts of the files in a directory. -/
def counts : Course → FileCounts
  | .done => {}
  | .skipped _ rest => rest.counts.addSkipped
  | .processed _ outcome rest => rest.counts.addOutcome outcome.isSuccess
  | .failed _ _ rest | .entered _ _ _ rest => rest.counts

/-- What is told of the entries of a directory. -/
def events (directory : Path) (depth : Nat) : Course → List Event
  | .done => []
  | .skipped name rest => .skipped (directory.join name) depth :: rest.events directory depth
  | .processed name outcome rest =>
    .processed (directory.join name) outcome depth :: rest.events directory depth
  | .failed name error rest =>
    .failed (directory.join name) error (depth + 1) :: rest.events directory depth
  | .entered name _ inside rest =>
    .entered (directory.join name) (depth + 1) :: inside.events (directory.join name) (depth + 1) ++
      .finished ⟨directory.join name, depth + 1, inside.counts⟩ :: rest.events directory depth

end Course

/-- What is told of a directory. -/
def Visit.events (directory : Path) (depth : Nat) : Visit → List Event
  | .failed error => [.failed directory error depth]
  | .entered _ inside =>
    .entered directory depth :: inside.events directory depth ++
      [.finished ⟨directory, depth, inside.counts⟩]

/-- The totals of the directories that events tell of. -/
def Totals.ofEvents : List Event → Totals
  | [] => {}
  | .finished tally :: events => (ofEvents events).addDirectory tally
  | .failed _ _ _ :: events => (ofEvents events).addUnreadable
  | _ :: events => ofEvents events

/-! ## Choosing entries -/

/-- The subdirectories that are visited. -/
def Selector.subdirectories (selector : Selector) (directory : Path)
    (entries : List DirectoryEntry) : List Text :=
  (entries.filter fun entry =>
    entry.isDirectory && !selector.skipsDirectory (directory.join entry.name) entry.name).map
      (·.name)

/-- The files with a fate. -/
def Selector.files (selector : Selector) (fate : FileFate) (directory : Path)
    (entries : List DirectoryEntry) : List Text :=
  (entries.filter fun entry =>
    !entry.isDirectory && selector.fileFate (directory.join entry.name) entry.name == fate).map
      (·.name)

/-- A course holds the entries that a selector chooses, each once and in the order of
the listing.  Only files that are processed may come in another order. -/
structure Course.Covers (course : Course) (selector : Selector) (directory : Path)
    (entries : List DirectoryEntry) : Prop where
  subdirectories : course.visits.map (·.1) = selector.subdirectories directory entries
  skips : course.ownSkips = selector.files .skip directory entries
  calls : (course.ownCalls.map (·.1)).Perm (selector.files .process directory entries)

/-- Every subdirectory was gone through as the selector says. -/
def Course.Fits (selector : Selector) (directory : Path) : Course → Prop
  | .done => True
  | .skipped _ rest | .processed _ _ rest | .failed _ _ rest => rest.Fits selector directory
  | .entered name entries inside rest =>
    inside.Covers selector (directory.join name) entries ∧
      inside.Fits selector (directory.join name) ∧ rest.Fits selector directory

/-- A directory was gone through as the selector says. -/
def Visit.Fits (selector : Selector) (directory : Path) : Visit → Prop
  | .failed _ => True
  | .entered entries inside =>
    inside.Covers selector directory entries ∧ inside.Fits selector directory

/-! ## Playing a course -/

section

variable {W : Type} [Disk (StateM W)]

/-- A directory listed on a world. -/
def listOn (directory : Path) (world : W) : Except OsError (List DirectoryEntry) × W :=
  (Disk.list directory : StateM W _).run world

/-- A directory cannot be listed, or lies below the last level. -/
def Unlisted (levels : Nat) (directory : Path) (error : OsError) (before after : W) : Prop :=
  (levels = 0 ∧ error = .nameTooLong ∧ after = before) ∨
    (levels ≠ 0 ∧ listOn directory before = (.error error, after))

/-- From one world to another, this comes of the entries of a directory with so many
levels below it. -/
def Course.Plays (process : Path → StateM W Outcome) (levels : Nat) (directory : Path) :
    Course → W → W → Prop
  | .done, before, after => after = before
  | .skipped _ rest, before, after => rest.Plays process levels directory before after
  | .processed name outcome rest, before, after =>
    ∃ between, (process (directory.join name)).run before = (outcome, between) ∧
      rest.Plays process levels directory between after
  | .failed name error rest, before, after =>
    ∃ between, Unlisted levels (directory.join name) error before between ∧
      rest.Plays process levels directory between after
  | .entered name entries inside rest, before, after =>
    ∃ lower listed between, levels = lower + 1 ∧
      listOn (directory.join name) before = (.ok entries, listed) ∧
      inside.Plays process lower (directory.join name) listed between ∧
      rest.Plays process levels directory between after

/-- From one world to another, this comes of a directory that is the first of so many
levels. -/
def Visit.Plays (process : Path → StateM W Outcome) (levels : Nat) (directory : Path) :
    Visit → W → W → Prop
  | .failed error, before, after => Unlisted levels directory error before after
  | .entered entries inside, before, after =>
    ∃ lower listed, levels = lower + 1 ∧
      listOn directory before = (.ok entries, listed) ∧
      inside.Plays process lower directory listed after

end

/-! ## Courses one after the other -/

theorem FileCounts.addSkipped_merge (first second : FileCounts) :
    (first.merge second).addSkipped = first.addSkipped.merge second := by
  simp [merge, addSkipped, Nat.add_right_comm]

theorem FileCounts.addOutcome_merge (first second : FileCounts) (success : Bool) :
    (first.merge second).addOutcome success = (first.addOutcome success).merge second := by
  simp [merge, addOutcome, Nat.add_right_comm]

theorem Totals.merge_assoc (first second third : Totals) :
    (first.merge second).merge third = first.merge (second.merge third) := by
  simp [merge, FileCounts.merge_assoc, Nat.add_assoc]

@[simp]
theorem Totals.merge_empty (totals : Totals) : totals.merge {} = totals :=
  rfl

theorem Totals.empty_merge {totals : Totals} (untimed : totals.elapsed = {}) :
    merge {} totals = totals := by
  cases totals
  simp_all [merge]

@[simp]
theorem Totals.elapsed_ofEvents (events : List Event) : (ofEvents events).elapsed = {} := by
  fun_induction ofEvents events <;> simp_all [addDirectory, addUnreadable]

theorem Totals.ofEvents_append (first second : List Event) :
    ofEvents (first ++ second) = (ofEvents first).merge (ofEvents second) := by
  fun_induction ofEvents first with
  | case1 => exact (empty_merge (elapsed_ofEvents second)).symm
  | case2 tally events inductionHypothesis =>
      simp [ofEvents, inductionHypothesis, merge, addDirectory, FileCounts.merge,
        Nat.add_right_comm]
  | case3 path error depth events inductionHypothesis =>
      simp [ofEvents, inductionHypothesis, merge, addUnreadable, Nat.add_right_comm]
  | case4 event events notFinished notFailed inductionHypothesis =>
      rw [List.cons_append, ofEvents, inductionHypothesis] <;> assumption

namespace Course

@[simp]
theorem visits_append (first second : Course) :
    (first.append second).visits = first.visits ++ second.visits := by
  induction first <;> simp_all [visits]

@[simp]
theorem ownSkips_append (first second : Course) :
    (first.append second).ownSkips = first.ownSkips ++ second.ownSkips := by
  induction first <;> simp_all [ownSkips]

@[simp]
theorem ownCalls_append (first second : Course) :
    (first.append second).ownCalls = first.ownCalls ++ second.ownCalls := by
  induction first <;> simp_all [ownCalls]

@[simp]
theorem events_append (directory : Path) (depth : Nat) (first second : Course) :
    (first.append second).events directory depth =
      first.events directory depth ++ second.events directory depth := by
  induction first <;> simp_all [events]

theorem counts_append (first second : Course) :
    (first.append second).counts = first.counts.merge second.counts := by
  induction first with
  | done => simp [counts]
  | skipped name rest inductionHypothesis =>
      simp only [append, counts, inductionHypothesis]
      exact FileCounts.addSkipped_merge ..
  | processed name outcome rest inductionHypothesis =>
      simp only [append, counts, inductionHypothesis]
      exact FileCounts.addOutcome_merge ..
  | failed name error rest inductionHypothesis => exact inductionHypothesis
  | entered name entries inside rest _ inductionHypothesis => exact inductionHypothesis

theorem fits_append {selector : Selector} {directory : Path} {first second : Course} :
    (first.append second).Fits selector directory ↔
      first.Fits selector directory ∧ second.Fits selector directory := by
  induction first <;> simp_all [Fits, and_assoc]

theorem plays_append {W : Type} [Disk (StateM W)] {process : Path → StateM W Outcome} {levels : Nat}
    {directory : Path} {first second : Course} {before after : W} :
    (first.append second).Plays process levels directory before after ↔
      ∃ between, first.Plays process levels directory before between ∧
        second.Plays process levels directory between after := by
  induction first generalizing before with
  | done => simp [Plays]
  | skipped name rest inductionHypothesis => simp [Plays, inductionHypothesis]
  | processed name outcome rest inductionHypothesis =>
      simp only [append, Plays, inductionHypothesis]
      grind
  | failed name error rest inductionHypothesis =>
      simp only [append, Plays, inductionHypothesis]
      grind
  | entered name entries inside rest _ inductionHypothesis =>
      simp only [append, Plays, inductionHypothesis]
      grind

/-! ## Files alone -/

@[simp]
theorem visits_ofOutcomes (files : List (Text × Outcome)) : (ofOutcomes files).visits = [] := by
  induction files <;> simp_all [visits]

@[simp]
theorem ownSkips_ofOutcomes (files : List (Text × Outcome)) : (ofOutcomes files).ownSkips = [] := by
  induction files <;> simp_all [ownSkips]

@[simp]
theorem ownCalls_ofOutcomes (files : List (Text × Outcome)) :
    (ofOutcomes files).ownCalls = files := by
  induction files <;> simp_all [ownCalls]

end Course

end Deflow
