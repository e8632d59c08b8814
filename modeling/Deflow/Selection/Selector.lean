import Deflow.Glob.NamePattern
import Deflow.Glob.PathPattern
import Deflow.Rule.Pipeline
import Deflow.Selection.Settings
import Deflow.Text.Lowercase

/-!
# Selecting files

Which directories are entered and which files are processed. All decisions
depend on paths alone.
-/

namespace Deflow

open Glob

/-- The decisions of a run, ready to be made. -/
structure Selector where
  directoryNames : List Text
  patterns : List PathPattern
  ignoreNames : List NamePattern
  /-- Extensions in lower case, without leading dots. -/
  extensions : List Text
  suffix : Option Text
  baseDirectory : Path
deriving DecidableEq, Repr

/-- A pattern for names that cannot be read. -/
structure InvalidPattern where
  pattern : Text
  error : NamePatternError
deriving DecidableEq, Repr

/-- What becomes of a file in a directory. -/
inductive FileFate where
  /-- The file does not take part. -/
  | invisible
  /-- The file is the result of an earlier run. -/
  | skip
  | process
deriving DecidableEq, Repr

/-- An extension as it is compared: lower case, without leading dots. -/
def normalExtension (extension : Text) : Text :=
  Text.lowercase (extension.dropWhile (· == '.'))

namespace Selector

/-- Reads patterns for names, up to the first that cannot be read. -/
def readIgnoreNames : List Text → Except InvalidPattern (List NamePattern)
  | [] => .ok []
  | text :: texts =>
    match NamePattern.parse text with
    | .error error => .error ⟨text, error⟩
    | .ok pattern => do return pattern :: (← readIgnoreNames texts)

/-- The selector that settings describe. -/
def ofSettings (settings : Settings) (workingDirectory : Path) :
    Except InvalidPattern Selector := do
  let ignoreNames ← readIgnoreNames settings.skip.ignoreNames
  return {
    directoryNames := settings.skip.directoryNames
    patterns := settings.skip.patterns.map PathPattern.mk
    ignoreNames
    extensions := settings.extensions.map normalExtension
    suffix := settings.output.suffix?
    baseDirectory := settings.baseDirectory.getD workingDirectory }

/-- Whether a file has one of the extensions, in upper or lower case. -/
def isEligible (selector : Selector) (path : Path) : Bool :=
  path.extension?.any fun extension => selector.extensions.contains (Text.lowercase extension)

/-- Whether a directory of this name is not entered. -/
def skipsName (selector : Selector) (name : Text) : Bool :=
  name.head? == some '.' || selector.directoryNames.contains name

/-- Whether a pattern matches a path relative to the base directory. -/
def matchesPattern (selector : Selector) (relative : Text) : Bool :=
  (PathPattern.first? selector.patterns relative).isSome

/-- A path relative to the base directory, with forward slashes. A path outside
keeps its full form. -/
def relativePath (selector : Selector) (path : Path) : Text :=
  ((Path.relativeTo? selector.baseDirectory path).getD path.text).map fun c =>
    if c = '\\' then '/' else c

/-- Whether a pattern matches a path. -/
def matchesPath (selector : Selector) (path : Path) : Bool :=
  selector.matchesPattern (selector.relativePath path)

/-- Whether a name is ignored. A pattern also matches its own text. -/
def ignores (selector : Selector) (name : Text) : Bool :=
  selector.ignoreNames.any fun pattern => pattern.text == name || pattern.accepts name

/-- Whether a file has the name of a result of an earlier run. -/
def isDerived (selector : Selector) (path : Path) : Bool :=
  match selector.suffix, path.fileStem? with
  | some suffix, some stem => !suffix.isEmpty && suffix.isSuffixOf stem
  | _, _ => false

/-- Whether a directory in a directory is not entered. -/
def skipsDirectory (selector : Selector) (path : Path) (name : Text) : Bool :=
  selector.skipsName name || selector.ignores name || selector.matchesPath path

/-- What becomes of a file in a directory. -/
def fileFate (selector : Selector) (path : Path) (name : Text) : FileFate :=
  if selector.ignores name || selector.matchesPath path || !selector.isEligible path then .invisible
  else if selector.isDerived path then .skip
  else .process

end Selector

/-- The rules that settings leave enabled. -/
def Settings.pipeline (settings : Settings) : Pipeline :=
  settings.disabledRules.foldl Pipeline.without .standard

end Deflow
