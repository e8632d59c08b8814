import Deflow.CommandLine.Options
import Deflow.Report.Console
import Deflow.Report.Summary
import Deflow.Run.Run

/-!
# Sessions

One call of the program: its arguments are read, the run is made, and what it
has to say goes to the output as it happens. The exit code tells only whether
the run could be made; files that fail are counted in the summary.
-/

namespace Deflow.CommandLine

/-- What a session can see of its surroundings. -/
structure Surroundings where
  workingDirectory : Path
  /-- The names and values of the environment. -/
  environment : List (String × String) := []
  /-- Whether the output is a terminal. -/
  isTerminal : Bool := false
deriving Repr

/-- How a session ends. -/
inductive Ending where
  | done
  /-- Help was wanted, or the arguments were wrong. -/
  | usage (stop : Stop)
  | fatal (error : RunError)
deriving DecidableEq, Repr

/-- The name of the program. -/
def programName : String := "flowstrip"

/-- The version of the program. -/
def programVersion : String := "0.1.0"

/-- What the program can be told. -/
def helpText : String :=
  "\n".intercalate
    ["Strip Flow pragmas and type-only import/export kinds from JavaScript sources",
     "",
     s!"Usage: {programName} [OPTIONS] <PATH>",
     "",
     "  <PATH>                 File or directory to transform",
     "",
     "      --in-place         Overwrite files instead of writing results beside them",
     "      --dry-run          Transform and report, but write nothing",
     "      --suffix SUFFIX    Suffix added to the file stem of results",
     "      --ext EXT          File extension to process; replaces js, jsx, mjs, cjs",
     "  -I, --ignore PATTERN   Ignore files and directories whose name matches",
     "      --skip-pattern GLOB",
     "                         Another path pattern to skip",
     "      --disable-rule RULE",
     "                         Leave out strip-pragmas, normalize-import-kinds or",
     "                         normalize-export-kinds",
     "  -j, --jobs JOBS        Number of files at a time; 0 leaves it to the system",
     "  -q, --quiet            Only print failures and the final summary",
     "      --json             Print the final counts as JSON",
     "      --color WHEN       auto, always or never",
     "  -h, --help             Print help",
     "  -V, --version          Print version",
     ""]

namespace Ending

/-- The exit code of a session. -/
def code : Ending → Nat
  | .done | .usage .help | .usage .version => 0
  | .usage _ | .fatal _ => 1

/-- The text about arguments that cannot be read. -/
def usageText? : Ending → Option String
  | .usage .help | .usage .version => none
  | .usage stop => some s!"error: {stop.message}\n"
  | _ => none

/-- The line about an error that ended a session. -/
def fatalLine? : Ending → Option String
  | .fatal error => some s!"{programName}: {error.message}"
  | _ => none

end Ending

/-- Whether output is coloured. Left to itself, it is on a terminal that is not
dumb, and two names of the environment decide before that. -/
def usesColor (surroundings : Surroundings) : ColorChoice → Bool
  | .always => true
  | .never => false
  | .auto =>
    let value? (name : String) := surroundings.environment.lookup name
    if (value? "NO_COLOR").isSome then false
    else if (value? "FORCE_COLOR").isSome then true
    else if value? "TERM" == some "dumb" then false
    else surroundings.isTerminal

/-- An output that texts can be put on. -/
abbrev Output (m : Type → Type) := String → ExceptT OsError m Unit

variable [Monad m] [Disk m]

/-- Puts a text on the output of a run. -/
def say (out : Output m) (text : String) : ExceptT RunError m Unit :=
  ExceptT.adapt RunError.report (out text)

/-- The reporter that shows events on a console. -/
def consoleReporter (console : Report.Console) (out : Output m) : Reporter m :=
  fun event => out (console.render event)

/-- Makes the run that options ask for. -/
def perform (surroundings : Surroundings) (out : Output m) (options : Options) (input : Path) :
    ExceptT RunError m Unit := do
  let directory := surroundings.workingDirectory
  match Walker.ofSettings (m := m) options.settings directory with
  | .error invalid => throw (.invalidPattern invalid)
  | .ok walker =>
    if options.json then
      let totals ← walker.run Reporter.silent directory input
      say out (Report.json totals ++ "\n")
    else
      let colored := usesColor surroundings (options.color.getD .auto)
      let console : Report.Console := { quiet := options.quiet, colored }
      let totals ← walker.run (consoleReporter console out) directory input
      if !options.quiet then
        say out "\n"
      say out (Report.summary colored totals)

/-- One call of the program. -/
def session (surroundings : Surroundings) (out : Output m) (arguments : List Text) : m Ending := do
  match Options.parse arguments with
  | .error stop =>
    match stop with
    | .version => discard (out s!"{programName} {programVersion}\n").run
    | .help => discard (out helpText).run
    | _ => pure ()
    return .usage stop
  | .ok (options, input) =>
    match ← (perform surroundings out options input).run with
    | .error error => return .fatal error
    | .ok () => return .done

end Deflow.CommandLine
