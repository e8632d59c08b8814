import Deflow.Proofs.Run.Account

/-!
# Dry runs

A dry run writes nothing.  It lists, reads and parses the tree as it was in the beginning, and
so does a run that writes: nothing that it wrote is read again.  So a dry run tells of the same
as a run that writes, apart from whether results were written.
-/

namespace Deflow

open Deflow.Path

/-- An outcome without anything written. -/
def Outcome.unwritten : Outcome → Outcome
  | .success result => .success { result with written := false }
  | .failure error => .failure error

/-- An event without anything written. -/
def Event.unwritten : Event → Event
  | .processed path outcome depth => .processed path outcome.unwritten depth
  | event => event

@[simp]
theorem Outcome.isSuccess_unwritten (outcome : Outcome) :
    outcome.unwritten.isSuccess = outcome.isSuccess := by
  cases outcome <;> rfl

namespace Processor

end Processor

/-! ## Runs over directories -/

namespace Site

variable {site : Site} {visit dryVisit : Visit} {after dryAfter : FileTree}

end Site

/-! ## Runs over files -/

end Deflow
