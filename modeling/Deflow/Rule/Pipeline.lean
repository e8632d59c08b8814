import Deflow.Document.Parse
import Deflow.Document.Print
import Deflow.Rule.Basic
import Deflow.Text.CharLiteral

/-!
# Pipelines

A pipeline applies its rules one after the other, each to what the rules before
it have left, and counts all edits.
-/

namespace Deflow

/-- Rules to apply in order, and how the result is written. -/
structure Pipeline where
  rules : List Rule := []
  options : PrintOptions := {}
deriving DecidableEq, Repr

namespace Pipeline

/-- All rules with the usual way of writing. -/
def standard : Pipeline :=
  { rules := Rule.all }

/-- The pipeline without every rule of a name. -/
def without (pipeline : Pipeline) (name : String) : Pipeline :=
  { pipeline with rules := pipeline.rules.filter (·.name != name) }

/-- The names of the rules, in order. -/
def ruleNames (pipeline : Pipeline) : List String :=
  pipeline.rules.map Rule.name

/-- What rules make of a document, and the number of their edits. -/
def applyRules : List Rule → Document → Document × Nat
  | [], document => (document, 0)
  | rule :: rules, document =>
    let (result, edits) := applyRules rules (rule.apply document)
    (result, rule.edits document + edits)

/-- What a pipeline makes of a document, and the number of its edits. -/
def apply (pipeline : Pipeline) (document : Document) : Document × Nat :=
  applyRules pipeline.rules document

/-- What a pipeline makes of a source text, and the number of its edits. -/
def run (pipeline : Pipeline) (source : Text) : Except SyntaxError (Text × Nat) := do
  let document ← Document.parse source
  let (result, edits) := pipeline.apply document
  return (result.print pipeline.options, edits)

/-- The wording of a source text being refused at a position. -/
def failureMessage (position : Position) (reason : String) : String :=
  s!"parse failure at {position.explain reason}"

/-- A truth value as a description shows it. -/
def describeBool (value : Bool) : String :=
  if value then "true" else "false"

/-- A pipeline in full, for logs. -/
def describe (pipeline : Pipeline) : String :=
  let names := ", ".intercalate (pipeline.ruleNames.map fun name => "\"" ++ name ++ "\"")
  let options := pipeline.options
  String.join
    ["Pipeline \x7b rules: [", names,
     "], options: PrintOptions \x7b quote: ", String.ofList (Text.charLiteral options.quote),
     ", trailing_comma: ", describeBool options.trailingComma,
     ", tab_width: ", options.tabWidth.repr,
     ", use_tabs: ", describeBool options.useTabs,
     ", wrap_column: ", options.wrapColumn.repr, " \x7d \x7d"]

end Pipeline

end Deflow
