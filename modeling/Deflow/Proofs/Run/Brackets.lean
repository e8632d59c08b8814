import Deflow.Proofs.Run.Scene

/-!
# Brackets of events

The events of a directory stand between its beginning and its end, the events of a
subdirectory between those of the directory, one level deeper, and the end of a directory
carries the counts of its own files.  From this alone it follows that the totals of all
directories count the files that events tell of.
-/

namespace Deflow

open Deflow.Path

/-! ## Events in brackets -/

/-- What is told of the entries of a directory, and the counts of its own files. -/
inductive Fills : Path → Nat → FileCounts → List Event → Prop where
  | nothing {directory : Path} {depth : Nat} : Fills directory depth {} []
  | skipped {directory : Path} {depth : Nat} {counts : FileCounts} {events : List Event}
      (name : Text) (rest : Fills directory depth counts events) :
      Fills directory depth counts.addSkipped (.skipped (directory.join name) depth :: events)
  | processed {directory : Path} {depth : Nat} {counts : FileCounts} {events : List Event}
      (name : Text) (outcome : Outcome) (rest : Fills directory depth counts events) :
      Fills directory depth (counts.addOutcome outcome.isSuccess)
        (.processed (directory.join name) outcome depth :: events)
  | failed {directory : Path} {depth : Nat} {counts : FileCounts} {events : List Event}
      (name : Text) (error : OsError) (rest : Fills directory depth counts events) :
      Fills directory depth counts (.failed (directory.join name) error (depth + 1) :: events)
  | entered {directory : Path} {depth : Nat} {counts inner : FileCounts} {told events : List Event}
      (name : Text) (inside : Fills (directory.join name) (depth + 1) inner told)
      (rest : Fills directory depth counts events) :
      Fills directory depth counts
        (.entered (directory.join name) (depth + 1) :: told ++
          .finished ⟨directory.join name, depth + 1, inner⟩ :: events)

/-- What is told of a directory: that it could not be listed, or its beginning and its end
with everything else in between. -/
inductive Bracketed (directory : Path) (depth : Nat) : List Event → Prop where
  | failed (error : OsError) : Bracketed directory depth [.failed directory error depth]
  | entered {counts : FileCounts} {told : List Event} (inside : Fills directory depth counts told) :
      Bracketed directory depth
        (.entered directory depth :: told ++ [.finished ⟨directory, depth, counts⟩])

theorem Course.fills (course : Course) (directory : Path) (depth : Nat) :
    Fills directory depth course.counts (course.events directory depth) := by
  induction course generalizing directory depth with
  | done => exact .nothing
  | skipped name rest inductionHypothesis => exact .skipped name (inductionHypothesis ..)
  | processed name outcome rest inductionHypothesis =>
      exact .processed name outcome (inductionHypothesis ..)
  | failed name error rest inductionHypothesis => exact .failed name error (inductionHypothesis ..)
  | entered name entries inner rest innerHypothesis inductionHypothesis =>
      exact .entered name (innerHypothesis ..) (inductionHypothesis ..)

theorem Visit.bracketed (visit : Visit) (directory : Path) (depth : Nat) :
    Bracketed directory depth (visit.events directory depth) := by
  cases visit with
  | failed error => exact .failed error
  | entered entries inside => exact .entered (inside.fills directory depth)

/-! ## Counting events -/

namespace Event

/-- The counts of a directory that has ended. -/
def finished? : Event → Option DirectoryTally
  | .finished tally => some tally
  | _ => none

end Event

/-- The counts of the files that events tell of. -/
def FileCounts.ofEvents : List Event → FileCounts
  | [] => {}
  | .skipped _ _ :: events => (ofEvents events).addSkipped
  | .processed _ outcome _ :: events => (ofEvents events).addOutcome outcome.isSuccess
  | _ :: events => ofEvents events

namespace FileCounts

theorem ofEvents_append (first second : List Event) :
    ofEvents (first ++ second) = (ofEvents first).merge (ofEvents second) := by
  fun_induction ofEvents first with
  | case1 => simp
  | case2 path depth events inductionHypothesis =>
      rw [List.cons_append, ofEvents, inductionHypothesis, addSkipped_merge]
  | case3 path outcome depth events inductionHypothesis =>
      rw [List.cons_append, ofEvents, inductionHypothesis, addOutcome_merge]
  | case4 event events notSkipped notProcessed inductionHypothesis =>
      rw [List.cons_append, ofEvents, inductionHypothesis] <;> assumption

end FileCounts

namespace Fills

variable {directory : Path} {depth : Nat} {counts : FileCounts} {events : List Event}

theorem isConsistent (fills : Fills directory depth counts events) :
    counts.isConsistent = true ∧
      ∀ tally ∈ events.filterMap Event.finished?, tally.counts.isConsistent = true := by
  induction fills with
  | nothing => simp [FileCounts.isConsistent]
  | skipped name rest inductionHypothesis =>
      exact ⟨FileCounts.isConsistent_addSkipped inductionHypothesis.1, inductionHypothesis.2⟩
  | processed name outcome rest inductionHypothesis =>
      exact ⟨FileCounts.isConsistent_addOutcome inductionHypothesis.1 _, inductionHypothesis.2⟩
  | failed name error rest inductionHypothesis => exact inductionHypothesis
  | entered name inside rest innerHypothesis inductionHypothesis =>
      refine ⟨inductionHypothesis.1, ?_⟩
      simp only [Event.finished?, List.cons_append, List.filterMap_cons, List.filterMap_append]
      exact List.forall_mem_append.mpr ⟨innerHypothesis.2,
        List.forall_mem_cons.mpr ⟨innerHypothesis.1, inductionHypothesis.2⟩⟩

end Fills

namespace Bracketed

variable {directory : Path} {depth : Nat} {events : List Event}

theorem isConsistent (bracketed : Bracketed directory depth events) :
    ∀ tally ∈ events.filterMap Event.finished?, tally.counts.isConsistent = true := by
  cases bracketed with
  | failed error => simp [Event.finished?]
  | entered inside =>
      simp only [Event.finished?, List.cons_append, List.filterMap_cons, List.filterMap_append,
        List.filterMap_nil]
      exact List.forall_mem_append.mpr ⟨inside.isConsistent.2, by simp [inside.isConsistent.1]⟩

end Bracketed

/-! ## Directories that were listed -/

/-- The directory that was listed before an event, and why it could not be.  Directories
as deep as `limit` are not looked at. -/
def Event.listed? (limit : Nat) : Event → Option (Path × Option OsError)
  | .entered path _ => some (path, none)
  | .failed path error depth => if depth < limit then some (path, some error) else none
  | _ => none

namespace Scene

variable {act : Act} {course : Course} {levels depth : Nat} {directory : Path}
    {before after : Scene}

end Scene

end Deflow
