import Deflow.Path.Basic

/-!
# Output paths

Where the result for a file goes: over the file itself, or beside it under a
name with a suffix in front of the extension.
-/

namespace Deflow

/-- Where results are written. -/
inductive OutputMode where
  /-- Beside the input, under its name with a suffix. -/
  | sibling (suffix : Text)
  /-- Over the input. -/
  | inPlace
deriving DecidableEq, Repr

/-- The path with a suffix between the stem of its name and the extension. -/
def Path.withSuffix (path : Path) (suffix : Text) : Path :=
  let stem := path.fileStem?.getD []
  let ending :=
    match path.extension? with
    | none => []
    | some extension => '.' :: extension
  path.withFileName (stem ++ suffix ++ ending)

namespace OutputMode

/-- The suffix of results beside their inputs. -/
def suffix? : OutputMode → Option Text
  | .sibling suffix => some suffix
  | .inPlace => none

/-- Where the result for a file goes. -/
def outputPath : OutputMode → Path → Path
  | .sibling suffix, path => path.withSuffix suffix
  | .inPlace, path => path

end OutputMode

end Deflow
