import Deflow.Proofs.Run.Results
import Mathlib.Data.List.Perm.Basic

/-!
# Accounts

What a walk tells of can be read off a survey, if it is known what comes of every file.  That
is an account.  A walk with the listings of the survey and with these outcomes tells of what
the account says, in some order.  Listing directories in another order only changes the order
of the account, and what is counted does not depend on it.
-/

namespace Deflow

open Deflow.Path

/-! ## Counting -/

/-- The counts of files that were left alone and of files with their outcomes. -/
def FileCounts.tally (skipped : Nat) (outcomes : List Outcome) : FileCounts where
  encountered := skipped + outcomes.length
  eligible := outcomes.length
  skipped := skipped
  succeeded := outcomes.countP Outcome.isSuccess
  failed := outcomes.countP fun outcome => !outcome.isSuccess

section

variable {survey : Survey} {selector : Selector} {root : Path} {outcome : List Text → Outcome}
  {bound levels depth : Nat} {names : List Text} {entries : List DirectoryEntry}

end

end Deflow
