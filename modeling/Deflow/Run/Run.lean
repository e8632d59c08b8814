import Deflow.Run.Process
import Deflow.Run.Walk

/-!
# Runs

A run takes one input: a file is processed by itself, a directory is walked.
-/

namespace Deflow

variable [Monad m] [Disk m]

/-- The walker that settings describe. -/
def Walker.ofSettings (settings : Settings) (workingDirectory : Path) :
    Except InvalidPattern (Walker m) := do
  let selector ← Selector.ofSettings settings workingDirectory
  let processor := Processor.ofSettings settings
  return { selector, jobs := settings.jobs, process := processor.process }

namespace Walker

/-- Visits what a path was found to be. -/
def visit (walker : Walker m) (report : Reporter m) (input path : Path) :
    FileKind → ExceptT RunError m Totals
  | .file => do
    let files ← ExceptT.adapt RunError.report (walker.visitFile report path)
    return { files }
  | .directory => do
    ExceptT.adapt RunError.report (walker.walk report (← Disk.levels (m := m)) path 0)
  | .special => throw (.unsupportedKind input)

/-- Runs over an input, which is relative to the working directory. -/
def run (walker : Walker m) (report : Reporter m) (workingDirectory input : Path) :
    ExceptT RunError m Totals := do
  let start ← Disk.clock (m := m)
  let path := workingDirectory.join input.text
  match ← Disk.kindOf (m := m) path with
  | .error .notFound => throw (.pathNotFound input)
  | .error error => throw (.inspection path error)
  | .ok kind =>
    let totals ← walker.visit report input path kind
    let stop ← Disk.clock (m := m)
    return { totals with elapsed := ⟨stop - start⟩ }

end Walker

end Deflow
