import Deflow.Proofs.Run.Site

/-!
# Stages of a run

Files of a site are processed one after the other.  At every stage the results of the files
so far stand in the tree, and nothing else has changed.  Every result is the one that the
file would have had at the beginning, since no file is written over before its turn comes.
-/

namespace Deflow

open Deflow.Path

/-! ## Files one after the other -/

/-- From one tree to another, this comes of files below a root. -/
inductive Processor.Sequence (processor : Processor) (root : Path) :
    List (List Text × Outcome) → FileTree → FileTree → Prop where
  | nil (tree : FileTree) : Sequence processor root [] tree tree
  | cons {file : List Text} {outcome : Outcome} {calls : List (List Text × Outcome)}
      {before between after : FileTree}
      (isProcessed : processor.processOn (root.below file) before = (outcome, between))
      (sequence : Sequence processor root calls between after) :
      Sequence processor root ((file, outcome) :: calls) before after

theorem Processor.Sequence.append {processor : Processor} {root : Path}
    {first second : List (List Text × Outcome)} {before between after : FileTree}
    (ofFirst : processor.Sequence root first before between)
    (ofSecond : processor.Sequence root second between after) :
    processor.Sequence root (first ++ second) before after := by
  induction ofFirst with
  | nil => exact ofSecond
  | cons isProcessed _ inductionHypothesis => exact .cons isProcessed (inductionHypothesis ofSecond)

namespace Site

variable {site : Site}

theorem eq_of_unlisted {levels : Nat} {directory : Path} {error : OsError} {before after : FileTree}
    (unlisted : Unlisted levels directory error before after) : after = before := by
  rcases unlisted with ⟨-, -, rfl⟩ | ⟨-, listing⟩
  · rfl
  · exact (Prod.mk.inj listing).2.symm

/-- Listing a directory changes nothing, so that the files of a course are processed one
after the other. -/
theorem sequence_of_plays {course : Course} {levels : Nat} {names : List Text}
    {before after : FileTree}
    (plays : course.Plays site.walker.process levels (site.root.below names) before after) :
    site.processor.Sequence site.root (course.calls names) before after := by
  induction course generalizing levels names before after with
  | done =>
      obtain rfl : after = before := plays
      exact .nil after
  | skipped name rest inductionHypothesis => exact inductionHypothesis plays
  | processed name outcome rest inductionHypothesis =>
      obtain ⟨between, isProcessed, plays⟩ := plays
      rw [← below_snoc] at isProcessed
      exact .cons isProcessed (inductionHypothesis plays)
  | failed name error rest inductionHypothesis =>
      obtain ⟨between, unlisted, plays⟩ := plays
      obtain rfl := eq_of_unlisted unlisted
      exact inductionHypothesis plays
  | entered name entries inner rest innerHypothesis inductionHypothesis =>
      obtain ⟨lower, listed, between, -, listing, playsInner, plays⟩ := plays
      obtain rfl := (Prod.mk.inj listing).2
      rw [← below_snoc] at playsInner
      exact (innerHypothesis playsInner).append (inductionHypothesis plays)

theorem sequence_of_visit_plays {visit : Visit} {levels : Nat} {before after : FileTree}
    (plays : visit.Plays site.walker.process levels site.root before after) :
    site.processor.Sequence site.root visit.calls before after := by
  cases visit with
  | failed error =>
      obtain rfl := eq_of_unlisted plays
      exact .nil _
  | entered entries inside =>
      obtain ⟨lower, listed, -, listing, plays⟩ := plays
      obtain rfl := (Prod.mk.inj listing).2
      exact (sequence_of_plays plays : site.processor.Sequence site.root (inside.calls []) _ _)

/-! ## Stages -/

variable {tree : FileTree} {file : List Text} {done : List (List Text)}

/-- What comes of a file that is processed at the beginning, and the tree behind it. -/
def processed (site : Site) (file : List Text) : Outcome × FileTree :=
  site.processor.processOn (site.root.below file) site.tree

/-- A file that holds what it held at the beginning is processed as at the beginning. -/
theorem IsVersion.processOn_alike (version : site.IsVersion tree) (isTask : site.IsTask file)
    (same : tree.get? (site.base ++ file) = site.tree.get? (site.base ++ file)) :
    (site.processor.processOn (site.root.below file) tree).1 = (site.processed file).1 ∧
      (((site.processed file).2 = site.tree ∧
          (site.processor.processOn (site.root.below file) tree).2 = tree) ∨
        ∃ content,
          (site.processed file).2 =
            site.tree.put (site.base ++ site.outputFile file) (.file content) ∧
          (site.processor.processOn (site.root.below file) tree).2 =
            tree.put (site.base ++ site.outputFile file) (.file content)) := by
  obtain ⟨opens, -, isName, stands, isProcess⟩ := isTask
  have leads := FileTree.leadsTo_of_locate opens
  rw [← List.append_assoc, stands] at same
  have sameText := (FileTree.LeadsTo.readText_join (version.frame.leads leads) isName same).trans
    (leads.readText_join isName stands).symm
  rw [processed, below_snoc, outputFile_snoc, ← List.append_assoc]
  exact site.processor.processOn_alike site.isPlain version.isPlain version.frame leads isName
    (site.isName_outputName isName isProcess) sameText

/-- The results of some files stand in the tree, and nothing else has changed. -/
structure Stage (site : Site) (done : List (List Text)) (tree : FileTree) : Prop
    extends site.IsVersion tree where
  areTasks : ∀ file ∈ done, site.IsTask file
  written : ∀ file ∈ done, tree.get? (site.base ++ site.outputFile file) =
    (site.processed file).2.get? (site.base ++ site.outputFile file)
  untouched : ∀ place, (∀ file ∈ done, place ≠ site.base ++ site.outputFile file) →
    tree.get? place = site.tree.get? place

theorem stage_nil (site : Site) : site.Stage [] site.tree :=
  { site.isVersion with
    areTasks := by simp
    written := by simp
    untouched := fun _ _ => rfl }

namespace Stage

/-- What would be processed as a file is as at the beginning, unless its result was written
over it. -/
theorem get?_of_isProcess (stage : site.Stage done tree) {names : List Text} {name : Text}
    (isProcess : site.selector.fileFate ((site.root.below names).join name) name = .process)
    (unwritten : names ++ [name] ∈ done → site.settings.output ≠ .inPlace) :
    tree.get? (site.base ++ (names ++ [name])) =
      site.tree.get? (site.base ++ (names ++ [name])) := by
  refine stage.untouched _ fun earlier isDone same => ?_
  obtain ⟨inPlace, rfl⟩ := eq_of_outputFile_eq (stage.areTasks earlier isDone) isProcess
    (List.append_cancel_left same).symm
  exact unwritten isDone inPlace

theorem get?_task (stage : site.Stage done tree) (isTask : site.IsTask file)
    (unwritten : file ∈ done → site.settings.output ≠ .inPlace) :
    tree.get? (site.base ++ file) = site.tree.get? (site.base ++ file) := by
  obtain ⟨-, -, -, -, isProcess⟩ := isTask
  exact stage.get?_of_isProcess isProcess unwritten

/-- One more file is processed. -/
theorem process (stage : site.Stage done tree) (isTask : site.IsTask file) (fresh : file ∉ done) :
    (site.processor.processOn (site.root.below file) tree).1 = (site.processed file).1 ∧
      site.Stage (file :: done) (site.processor.processOn (site.root.below file) tree).2 := by
  have elsewhere : ∀ earlier ∈ done,
      site.base ++ site.outputFile earlier ≠ site.base ++ site.outputFile file := by
    intro earlier isDone same
    obtain rfl := outputFile_inj (stage.areTasks earlier isDone) isTask
      (List.append_cancel_left same)
    exact fresh isDone
  obtain ⟨sameOutcome, alike⟩ := stage.processOn_alike isTask
    (stage.get?_task isTask fun isDone => absurd isDone fresh)
  have nonempty := base_append_outputFile_ne_nil isTask
  -- The tree changes under the place of the result only, and as it would have at the beginning.
  have changes (place : Place) :
      (site.processor.processOn (site.root.below file) tree).2.get? place =
        if place = site.base ++ site.outputFile file then (site.processed file).2.get? place
        else tree.get? place := by
    rcases alike with ⟨kept, alsoKept⟩ | ⟨content, isPut, alsoPut⟩
    · rw [kept, alsoKept]
      split
      · rename_i here
        exact stage.untouched place fun earlier isDone => here ▸ (elsewhere earlier isDone).symm
      · rfl
    · rw [isPut, alsoPut, FileTree.get?_put nonempty, FileTree.get?_put nonempty]
      split <;> rfl
  refine ⟨sameOutcome, { (stage.toIsVersion.process isTask).1 with
    areTasks := List.forall_mem_cons.mpr ⟨isTask, stage.areTasks⟩
    written := List.forall_mem_cons.mpr ⟨by rw [changes, if_pos rfl], fun earlier isDone => ?_⟩
    untouched := fun place apart => ?_ }⟩
  · rw [changes, if_neg (elsewhere earlier isDone)]
    exact stage.written earlier isDone
  · obtain ⟨notHere, notEarlier⟩ := List.forall_mem_cons.mp apart
    rw [changes, if_neg notHere]
    exact stage.untouched place notEarlier

/-- Files are processed one after the other as at the beginning. -/
theorem of_sequence {calls : List (List Text × Outcome)} {before after : FileTree}
    (sequence : site.processor.Sequence site.root calls before after)
    (stage : site.Stage done before) (areTasks : ∀ call ∈ calls, site.IsTask call.1)
    (distinct : (calls.map (·.1)).Nodup) (fresh : ∀ call ∈ calls, call.1 ∉ done) :
    (∀ call ∈ calls, call.2 = (site.processed call.1).1) ∧
      site.Stage ((calls.map (·.1)).reverse ++ done) after := by
  induction sequence generalizing done with
  | nil tree => exact ⟨by simp, stage⟩
  | @cons file outcome calls before between after isProcessed _ inductionHypothesis =>
      obtain ⟨isTask, areTasks⟩ := List.forall_mem_cons.mp areTasks
      obtain ⟨unrepeated, distinct⟩ := List.nodup_cons.mp distinct
      obtain ⟨isFresh, fresh⟩ := List.forall_mem_cons.mp fresh
      obtain ⟨sameOutcome, next⟩ := stage.process isTask isFresh
      rw [isProcessed] at sameOutcome next
      have stillFresh : ∀ call ∈ calls, call.1 ∉ file :: done := by
        intro call member isDone
        rcases List.mem_cons.mp isDone with same | earlier
        · exact unrepeated (List.mem_map.mpr ⟨call, member, same⟩)
        · exact fresh call member earlier
      obtain ⟨sameOutcomes, last⟩ := inductionHypothesis next areTasks distinct stillFresh
      exact ⟨List.forall_mem_cons.mpr ⟨sameOutcome, sameOutcomes⟩, by simpa using last⟩

/-! ## Files once more -/

end Stage

end Site

end Deflow
