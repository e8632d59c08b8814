import Deflow.Proofs.Run.Batch
import Deflow.Proofs.Run.Course

/-!
# Every walk takes a course

Whatever the world and the processor do, a walk with a reporter that never fails takes
a course: the course fits the selector and plays from the world before the walk to the
world behind it, its events are told of, and the walk returns their totals.  With more
than one job the files of a directory are processed behind everything else in it, so
they come last in its course.  There they stand in the order in which they were processed;
what is told of them keeps to the listing.
-/

namespace Deflow

variable {W : Type}

namespace Walker

/-- The files that are processed as they are met. -/
def now (walker : Walker (StateM W)) (directory : Path) (entries : List DirectoryEntry) :
    List Text :=
  if walker.jobs = 1 then walker.selector.files .process directory entries else []

/-- The files that are processed behind everything else in their directory. -/
def later (walker : Walker (StateM W)) (directory : Path) (entries : List DirectoryEntry) :
    List Text :=
  if walker.jobs = 1 then [] else walker.selector.files .process directory entries

end Walker

/-- The frame behind a part of a course, with files put off. -/
def Frame.after (frame : Frame) (course : Course) (directory : Path) (depth : Nat)
    (postponed : List Text) : Frame where
  counts := frame.counts.merge course.counts
  totals := frame.totals.merge (.ofEvents (course.events directory depth))
  pending := (postponed.map directory.join).reverse ++ frame.pending

/-! ## Parts of a listing -/

@[simp]
theorem Selector.subdirectories_append (selector : Selector) (directory : Path)
    (first second : List DirectoryEntry) :
    selector.subdirectories directory (first ++ second) =
      selector.subdirectories directory first ++ selector.subdirectories directory second := by
  simp [subdirectories]

@[simp]
theorem Selector.files_append (selector : Selector) (fate : FileFate) (directory : Path)
    (first second : List DirectoryEntry) :
    selector.files fate directory (first ++ second) =
      selector.files fate directory first ++ selector.files fate directory second := by
  simp [files]

theorem Walker.now_append (walker : Walker (StateM W)) (directory : Path)
    (first second : List DirectoryEntry) :
    walker.now directory (first ++ second) =
      walker.now directory first ++ walker.now directory second := by
  unfold now
  split <;> simp

theorem Walker.later_append (walker : Walker (StateM W)) (directory : Path)
    (first second : List DirectoryEntry) :
    walker.later directory (first ++ second) =
      walker.later directory first ++ walker.later directory second := by
  unfold later
  split <;> simp

theorem Frame.after_after (frame : Frame) (first second : Course) (directory : Path) (depth : Nat)
    (postponed more : List Text) :
    (frame.after first directory depth postponed).after second directory depth more =
      frame.after (first.append second) directory depth (postponed ++ more) := by
  simp [after, Course.counts_append, FileCounts.merge_assoc, Totals.ofEvents_append,
    Totals.merge_assoc]

variable [Disk (StateM W)]

/-- Going through some entries of a directory takes a course. -/
structure Advances (walker : Walker (StateM W)) (batch : Batch walker.process) (levels : Nat)
    (directory : Path) (depth : Nat) (entries : List DirectoryEntry) (course : Course)
    (before after : W) : Prop where
  fits : course.Fits walker.selector directory
  plays : course.Plays walker.process levels directory before after
  subdirectories : course.visits.map (·.1) = walker.selector.subdirectories directory entries
  skips : course.ownSkips = walker.selector.files .skip directory entries
  calls : course.ownCalls.map (·.1) = walker.now directory entries
  yields : ∃ events, Arranged batch.inOrder events (course.events directory depth) ∧
    ∀ {σ : Type} (listener : Listener σ W) (frame : Frame), Yields listener
      (entries.foldlM (walker.lift.step listener.report
          (fun path => walker.lift.walkBy batch.lift listener.report levels path (depth + 1))
          directory depth)
        frame)
      before (frame.after course directory depth (walker.later directory entries)) events after

section

variable {σ : Type} {walker : Walker (StateM W)} {batch : Batch walker.process} {levels : Nat}
  {directory : Path} {depth : Nat}

namespace Advances

theorem nil (world : W) : Advances walker batch levels directory depth [] .done world world where
  fits := trivial
  plays := rfl
  subdirectories := rfl
  skips := rfl
  calls := by simp [Course.ownCalls, Walker.now, Selector.files]
  yields := by
    refine ⟨[], .refl _ [], fun {σ} listener frame => ?_⟩
    have same : frame.after .done directory depth (walker.later directory []) = frame := by
      simp [Frame.after, Walker.later, Selector.files, Course.counts, Course.events,
        Totals.ofEvents]
    rw [same]
    exact .pure world frame

theorem append {first second : List DirectoryEntry} {course next : Course}
    {before between after : W}
    (ofFirst : Advances walker batch levels directory depth first course before between)
    (ofSecond : Advances walker batch levels directory depth second next between after) :
    Advances walker batch levels directory depth (first ++ second) (course.append next)
      before after where
  fits := Course.fits_append.mpr ⟨ofFirst.fits, ofSecond.fits⟩
  plays := Course.plays_append.mpr ⟨between, ofFirst.plays, ofSecond.plays⟩
  subdirectories := by simp [ofFirst.subdirectories, ofSecond.subdirectories]
  skips := by simp [ofFirst.skips, ofSecond.skips]
  calls := by simp [ofFirst.calls, ofSecond.calls, Walker.now_append]
  yields := by
    obtain ⟨told, arranged, yields⟩ := ofFirst.yields
    obtain ⟨toldNext, arrangedNext, yieldsNext⟩ := ofSecond.yields
    refine ⟨told ++ toldNext, ?_, fun {σ} listener frame => ?_⟩
    · rw [Course.events_append]
      exact arranged.append arrangedNext
    · rw [List.foldlM_append, Walker.later_append, ← Frame.after_after]
      exact (yields listener frame).bind (yieldsNext listener _)

end Advances

end

end Deflow
