import Deflow.Path.Output

/-!
# Settings

What a run leaves out, which files it takes, where results go and which rules
are applied.
-/

namespace Deflow

/-- What is left out of a run. -/
structure SkipRules where
  /-- Names of directories that are not entered. -/
  directoryNames : List Text := []
  /-- Patterns for paths relative to the base directory. -/
  patterns : List Text := []
  /-- Patterns for the base names of files and directories. -/
  ignoreNames : List Text := []
deriving DecidableEq, Repr

/-- The usual names of directories that hold no sources. -/
def usualDirectoryNames : List Text :=
  ["node_modules", ".git", "dist", "build", "coverage", "flow-typed"].map String.toList

/-- The usual patterns for tests and generated files. -/
def usualPatterns : List Text :=
  ["**/__tests__/**", "**/__mocks__/**", "**/test/**", "**/tests/**", "**/*.test.js",
   "**/*.test.jsx", "**/*.spec.js", "**/*.spec.jsx", "**/coverage/**", "**/node_modules/**",
   "**/.git/**", "**/dist/**", "**/build/**"].map String.toList

/-- The usual rules. -/
def SkipRules.usual : SkipRules where
  directoryNames := usualDirectoryNames
  patterns := usualPatterns

/-- The usual extensions of sources. -/
def usualExtensions : List Text :=
  ["js", "jsx", "mjs", "cjs"].map String.toList

/-- The usual suffix of results. -/
def usualSuffix : Text :=
  "_transformed".toList

/-- Everything that a run can be told. -/
structure Settings where
  skip : SkipRules := .usual
  /-- Extensions of the files to process, with or without leading dots. -/
  extensions : List Text := usualExtensions
  output : OutputMode := .sibling usualSuffix
  /-- Whether nothing is written. -/
  dryRun : Bool := false
  /-- The directory to which patterns are relative; without one, the working
  directory. -/
  baseDirectory : Option Path := none
  /-- How many files are processed at a time. With one, each file is processed as
  it is met; otherwise all files of a directory together, behind its
  subdirectories. -/
  jobs : Nat := 1
  /-- Names of rules that are not applied. -/
  disabledRules : List String := []
deriving DecidableEq, Repr

end Deflow
