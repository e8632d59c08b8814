import Deflow.Disk.Basic
import Deflow.Rule.Pipeline
import Deflow.Selection.Selector
import Deflow.Tally.Basic

/-!
# Events

What happens in a run: outcomes of files, and what is told about directories and
files while they are visited. Failures of single files do not end a run; the
errors that do are listed here as well.
-/

namespace Deflow

/-- Why a file could not be processed. -/
inductive ProcessError where
  | read (path : Path) (error : OsError)
  /-- The file is refused at a position for a reason. -/
  | parse (path : Path) (position : Position) (reason : String)
  | write (path : Path) (error : OsError)
deriving DecidableEq, Repr

namespace ProcessError

/-- The path that an error is about: the input, or the output if that cannot be
written. -/
def path : ProcessError → Path
  | .read path _ => path
  | .parse path _ _ => path
  | .write path _ => path

/-- The wording of an error. -/
def message : ProcessError → String
  | .read path error => s!"cannot read {path.display}: {error.message}"
  | .parse path position reason =>
    s!"cannot parse {path.display}: {Pipeline.failureMessage position reason}"
  | .write path error => s!"cannot write {path.display}: {error.message}"

end ProcessError

/-- The result for a file. -/
structure Success where
  /-- Where the result went, or would have gone. -/
  output : Path
  elapsed : Duration := {}
  edits : Nat
  written : Bool
deriving DecidableEq, Repr

/-- What came of a file. -/
inductive Outcome where
  | success (success : Success)
  | failure (error : ProcessError)
deriving DecidableEq, Repr

/-- Whether a file was processed without an error. -/
def Outcome.isSuccess : Outcome → Bool
  | .success _ => true
  | .failure _ => false

/-- Something that happens in a run. -/
inductive Event where
  | entered (path : Path) (depth : Nat)
  | processed (path : Path) (outcome : Outcome) (depth : Nat)
  /-- A result of an earlier run was left alone. -/
  | skipped (path : Path) (depth : Nat)
  | finished (directory : DirectoryTally)
  /-- A directory could not be listed. -/
  | failed (path : Path) (error : OsError) (depth : Nat)
  /-- The input is a file without one of the extensions. -/
  | ineligible (path : Path)
deriving DecidableEq, Repr

/-- What is told of events. It may refuse one, which ends the run. -/
abbrev Reporter (m : Type → Type) := Event → ExceptT OsError m Unit

/-- The reporter that passes over everything. -/
def Reporter.silent [Monad m] : Reporter m :=
  fun _ => pure ()

/-- Why a run ends early. -/
inductive RunError where
  | pathNotFound (input : Path)
  | unsupportedKind (input : Path)
  | invalidPattern (invalid : InvalidPattern)
  | inspection (path : Path) (error : OsError)
  | report (error : OsError)
deriving DecidableEq, Repr

/-- The wording of an error. -/
def RunError.message : RunError → String
  | .pathNotFound input => s!"cannot access '{input.display}': No such file or directory"
  | .unsupportedKind input => s!"'{input.display}' is neither a regular file nor a directory"
  | .invalidPattern invalid =>
    let pattern := String.ofList invalid.pattern
    s!"invalid skip pattern '{pattern}': {invalid.error.message}"
  | .inspection path error => s!"cannot inspect '{path.display}': {error.message}"
  | .report error => s!"error writing output: {error.message}"

end Deflow
