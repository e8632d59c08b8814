import Deflow.Report.Style
import Deflow.Tally.Basic

/-!
# Summaries

The totals of a run for readers and for programs.
-/

namespace Deflow.Report

/-- The totals of a run as lines for readers. A number in a style is followed by
the end of its line before the style ends. -/
def summary (colored : Bool) (totals : Totals) : String :=
  let files := totals.files
  let bold : Style := { bold := true }
  let failed : Style := { bold := true, color := some .red }
  let unreadable :=
    if totals.unreadable > 0 then
      ", " ++ Style.paint { color := some .yellow } colored s!"{totals.unreadable} unreadable"
    else
      ""
  String.join
    [bold.paint colored "Summary\n",
     "───────\n",
     s!"Files:        {files.encountered} encountered, {files.eligible} eligible, ",
     s!"{files.skipped} skipped\n",
     "Succeeded:    ", Style.paint { color := some .green } colored s!"{files.succeeded}\n",
     "Failed:       ", (if files.failed > 0 then failed.set colored else ""),
     s!"{files.failed}\n", reset colored,
     s!"Directories:  {totals.directories} visited", unreadable, "\n",
     s!"Elapsed:      {totals.elapsed.render}\n"]

/-- A member of an indented object: its name and its number. -/
def member (name : String) (value : Nat) : String :=
  "\"" ++ name ++ "\": " ++ value.repr

/-- The totals of a run as an indented JSON object. -/
def json (totals : Totals) : String :=
  let files := totals.files
  let inner :=
    [member "encountered" files.encountered, member "eligible" files.eligible,
     member "skipped" files.skipped, member "succeeded" files.succeeded,
     member "failed" files.failed]
  let outer :=
    ["\"files\": \x7b\n    " ++ ",\n    ".intercalate inner ++ "\n  \x7d",
     member "directories" totals.directories, member "unreadable_directories" totals.unreadable,
     member "elapsed_ms" totals.elapsed.milliseconds]
  "\x7b\n  " ++ ",\n  ".intercalate outer ++ "\n\x7d"

end Deflow.Report
