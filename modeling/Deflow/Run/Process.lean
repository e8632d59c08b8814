import Deflow.Run.Event

/-!
# Processing a file

A file is read, put through the pipeline, and the result is written to the
output path. Nothing is written in a dry run, nor over a file that would not
change.
-/

namespace Deflow

/-- How files are processed. -/
structure Processor where
  pipeline : Pipeline := .standard
  output : OutputMode
  dryRun : Bool := false
deriving DecidableEq, Repr

namespace Processor

/-- The processor that settings describe. -/
def ofSettings (settings : Settings) : Processor where
  pipeline := settings.pipeline
  output := settings.output
  dryRun := settings.dryRun

/-- Whether a result is written over its source or beside it. -/
def writes (processor : Processor) (source result : Text) : Bool :=
  !processor.dryRun && !(processor.output == .inPlace && result == source)

variable [Monad m] [Disk m]

/-- Writes a result, unless there is nothing to write. -/
def store (processor : Processor) (path : Path) (source result : Text) (edits : Nat)
    (elapsed : Duration) : m Outcome := do
  let output := processor.output.outputPath path
  if processor.writes source result then
    match ← Disk.writeText output result with
    | .error error => return .failure (.write output error)
    | .ok () => return .success { output, elapsed, edits, written := true }
  else
    return .success { output, elapsed, edits, written := false }

/-- Processes a file. -/
def process (processor : Processor) (path : Path) : m Outcome := do
  match ← Disk.readText path with
  | .error error => return .failure (.read path error)
  | .ok source =>
    let start ← Disk.clock
    match processor.pipeline.run source with
    | .error error => return .failure (.parse path error.position error.fault.message)
    | .ok (result, edits) =>
      let stop ← Disk.clock
      processor.store path source result edits ⟨stop - start⟩

end Processor

end Deflow
