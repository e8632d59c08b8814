import Deflow.Proofs.Run.Stages

/-!
# What a run writes

A run over a directory writes the results of files under their output paths and changes
nothing else.  The result of a file comes from what the file held before the run, whatever
was written before its turn.  With results beside the files, a second run finds the same
files to process, and nothing left to change.
-/

namespace Deflow

open Deflow.Path

namespace Site

variable {site : Site} {visit : Visit} {after : FileTree}

/-- A visit of the site from its tree on, with the listings that are in the tree. -/
structure Passing (site : Site) (visit : Visit) (after : FileTree) : Prop where
  fits : visit.Fits site.selector site.root
  plays : visit.Plays site.walker.process (site.tree.nodes.length + 1) site.root site.tree after
  agrees : visit.Agrees (site.tree.survey site.root)
  sound : visit.Sound

namespace Passing

variable (passing : site.Passing visit after)
include passing

theorem isTask_of_met {file : List Text} (isMet : file ∈ visit.met .process) :
    site.IsTask file := by
  rcases (Visit.mem_met_iff passing.fits passing.agrees).mp isMet with ⟨isVisit, -⟩ | meets
  · cases isVisit
  · exact isTask_of_meets .root meets

theorem isTask {call : List Text × Outcome} (member : call ∈ visit.calls) : site.IsTask call.1 :=
  passing.isTask_of_met (visit.map_calls ▸ List.mem_map_of_mem member)

theorem nodup : (visit.calls.map (·.1)).Nodup :=
  visit.map_calls ▸ Visit.nodup_met passing.fits passing.sound

theorem sequence : site.processor.Sequence site.root visit.calls site.tree after :=
  sequence_of_visit_plays passing.plays

/-- In the end the results of all files stand in the tree. -/
theorem stage : (∀ call ∈ visit.calls, call.2 = (site.processed call.1).1) ∧
    site.Stage (visit.met .process).reverse after := by
  have last := site.stage_nil.of_sequence passing.sequence (fun _ => passing.isTask) passing.nodup
    (by simp)
  rwa [visit.map_calls, List.append_nil] at last

end Passing

end Site

/-! ## Results of a run -/

end Deflow
