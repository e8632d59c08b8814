import Deflow.Report.Style
import Deflow.Run.Event

/-!
# Console output

Every event as a line for readers, indented by the depth of its directory. A
quiet console shows only what went wrong.
-/

namespace Deflow.Report

/-- How events are shown. -/
structure Console where
  quiet : Bool := false
  colored : Bool := false
deriving DecidableEq, Repr

/-- Blanks for so many levels. -/
def indent (depth : Nat) : String :=
  String.join (List.replicate depth "  ")

/-- The name of a file or directory, or its whole path if it has none. -/
def displayName (path : Path) : String :=
  match path.fileName? with
  | some name => String.ofList name
  | none => path.display

namespace Console

/-- A text in a colour. -/
def paint (console : Console) (color : Color) (bold : Bool) (text : String) : String :=
  Style.paint { bold, color := some color } console.colored text

/-- The line for a file that was processed without an error. -/
def successLine (console : Console) (path : Path) (success : Success) (depth : Nat) : String :=
  let arrow := if success.written then "→" else "⇢"
  let output :=
    if Path.same success.output path then ""
    else s!" {arrow} {displayName success.output}"
  let noun := if success.edits = 1 then "edit" else "edits"
  String.join
    [indent (depth + 1), console.paint .green false "✓ ", displayName path, output,
     s!" ({success.edits} {noun}, {success.elapsed.render})\n"]

/-- The lines for an event that a quiet console leaves out. -/
def progress (console : Console) : Event → String
  | .entered path depth =>
    let name := if depth = 0 then path.display else displayName path
    indent depth ++ console.paint .blue true (name ++ "/") ++ "\n"
  | .processed path (.success success) depth => console.successLine path success depth
  | .skipped path depth =>
    indent (depth + 1) ++ console.paint .yellow false "- " ++ displayName path ++
      " (previous output)\n"
  | .finished directory =>
    let counts := directory.counts
    if counts.encountered = 0 then
      ""
    else
      indent (directory.depth + 1) ++
        s!"{counts.succeeded} succeeded, {counts.failed} failed, {counts.skipped} skipped\n"
  | _ => ""

/-- The lines for an event that is always shown. -/
def warning (console : Console) : Event → String
  | .processed _ (.failure error) depth =>
    indent (depth + 1) ++ console.paint .red true "✗ " ++ error.message ++ "\n"
  | .failed path error depth =>
    indent depth ++ console.paint .yellow true "! " ++
      s!"cannot read {path.display}: {error.message}\n"
  | .ineligible path =>
    console.paint .yellow true "warning: " ++
      s!"{path.display} does not have a processed extension; nothing to do\n"
  | _ => ""

/-- The lines for an event. -/
def render (console : Console) (event : Event) : String :=
  (if console.quiet then "" else console.progress event) ++ console.warning event

end Console

end Deflow.Report
