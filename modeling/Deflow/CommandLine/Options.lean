import Deflow.Selection.Selector

/-!
# Command line options

Arguments are read from left to right. The first thing that is wrong, and a wish
for help or for the version, ends the reading.
-/

namespace Deflow.CommandLine

/-- When output is coloured. -/
inductive ColorChoice where
  | auto
  | always
  | never
deriving DecidableEq, Repr

/-- An option without a value. -/
inductive Flag where
  | inPlace
  | dryRun
  | quiet
  | json
  | help
  | version
deriving DecidableEq, Repr

/-- An option with a value. -/
inductive Setting where
  | suffix
  | extension
  | ignore
  | skipPattern
  | disableRule
  | jobs
  | color
deriving DecidableEq, Repr

/-- What an option is. -/
inductive OptionKind where
  | flag (flag : Flag)
  | setting (setting : Setting)
deriving DecidableEq, Repr

/-- The options by their long names. -/
def longOptions : List (String × OptionKind) :=
  [("in-place", .flag .inPlace), ("dry-run", .flag .dryRun), ("quiet", .flag .quiet),
   ("json", .flag .json), ("help", .flag .help), ("version", .flag .version),
   ("suffix", .setting .suffix), ("ext", .setting .extension), ("ignore", .setting .ignore),
   ("skip-pattern", .setting .skipPattern), ("disable-rule", .setting .disableRule),
   ("jobs", .setting .jobs), ("color", .setting .color)]

/-- The option of a letter. -/
def shortOption? (c : Char) : Option OptionKind :=
  match c with
  | 'q' => some (.flag .quiet)
  | 'h' => some (.flag .help)
  | 'V' => some (.flag .version)
  | 'I' => some (.setting .ignore)
  | 'j' => some (.setting .jobs)
  | _ => none

/-- Everything that was said on the command line. -/
structure Options where
  path : Option Text := none
  inPlace : Bool := false
  dryRun : Bool := false
  quiet : Bool := false
  json : Bool := false
  suffix : Option Text := none
  extensions : List Text := []
  ignoreNames : List Text := []
  skipPatterns : List Text := []
  disabledRules : List String := []
  jobs : Option Nat := none
  color : Option ColorChoice := none
deriving DecidableEq, Repr

/-- Why reading ends early. -/
inductive Stop where
  | help
  | version
  | unknownOption (argument : Text)
  | repeated (argument : Text)
  | unneededValue (argument : Text)
  | missingValue (argument : Text)
  | invalidValue (value : Text)
  | unexpectedArgument (argument : Text)
  | missingPath
  | inPlaceWithSuffix
deriving DecidableEq, Repr

/-- The wording of a usage error. -/
def Stop.message : Stop → String
  | .help | .version => ""
  | .unknownOption argument => s!"unknown option '{String.ofList argument}'"
  | .repeated argument => s!"option '{String.ofList argument}' is given twice"
  | .unneededValue argument => s!"option '{String.ofList argument}' takes no value"
  | .missingValue argument => s!"option '{String.ofList argument}' needs a value"
  | .invalidValue value => s!"invalid value '{String.ofList value}'"
  | .unexpectedArgument argument => s!"unexpected argument '{String.ofList argument}'"
  | .missingPath => "a file or directory is required"
  | .inPlaceWithSuffix => "'--in-place' cannot be used with '--suffix'"

/-- The largest number of jobs and one more. -/
def jobLimit : Nat := UInt64.size

/-- A number of decimal digits, with or without a plus sign. -/
def number? (text : Text) : Option Nat :=
  let digits := if text.head? == some '+' then text.drop 1 else text
  if digits.isEmpty || !digits.all Char.isDigit then
    none
  else
    let value := digits.foldl (fun value digit => value * 10 + (digit.toNat - '0'.toNat)) 0
    if value < jobLimit then some value else none

/-- Whether a suffix gives every result a name of its own beside its input. -/
def isSuffix (suffix : Text) : Bool :=
  !suffix.isEmpty && !suffix.contains '/' && !suffix.contains '\\'

/-- The choice of a word. -/
def colorChoice? (word : Text) : Option ColorChoice :=
  if word = "auto".toList then some .auto
  else if word = "always".toList then some .always
  else if word = "never".toList then some .never
  else none

namespace Options

/-- The options with a flag. -/
def setFlag (options : Options) (argument : Text) : Flag → Except Stop Options
  | .help => .error .help
  | .version => .error .version
  | .inPlace =>
    if options.inPlace then .error (.repeated argument) else .ok { options with inPlace := true }
  | .dryRun =>
    if options.dryRun then .error (.repeated argument) else .ok { options with dryRun := true }
  | .quiet =>
    if options.quiet then .error (.repeated argument) else .ok { options with quiet := true }
  | .json =>
    if options.json then .error (.repeated argument) else .ok { options with json := true }

/-- Sets what may be set once. -/
def setOnce (old : Option α) (new : Option α) (argument value : Text)
    (options : α → Options) : Except Stop Options :=
  match new with
  | none => .error (.invalidValue value)
  | some new => if old.isSome then .error (.repeated argument) else .ok (options new)

/-- The options with a value. -/
def setValue (options : Options) (argument value : Text) : Setting → Except Stop Options
  | .suffix =>
    setOnce options.suffix (if isSuffix value then some value else none) argument value
      fun suffix => { options with suffix := some suffix }
  | .extension => .ok { options with extensions := options.extensions ++ [value] }
  | .ignore => .ok { options with ignoreNames := options.ignoreNames ++ [value] }
  | .skipPattern => .ok { options with skipPatterns := options.skipPatterns ++ [value] }
  | .disableRule =>
    match Rule.ofName? (String.ofList value) with
    | some rule => .ok { options with disabledRules := options.disabledRules ++ [rule.name] }
    | none => .error (.invalidValue value)
  | .jobs =>
    setOnce options.jobs (number? value) argument value
      fun jobs => { options with jobs := some jobs }
  | .color =>
    setOnce options.color (colorChoice? value) argument value
      fun color => { options with color := some color }

/-- The options with the input. There is only one, and it is not empty. -/
def setPath (options : Options) (argument : Text) : Except Stop Options :=
  if options.path.isSome then .error (.unexpectedArgument argument)
  else if argument.isEmpty then .error (.invalidValue argument)
  else .ok { options with path := some argument }

/-- The options with several inputs, of which only one is accepted. -/
def setPaths (options : Options) : List Text → Except Stop Options
  | [] => .ok options
  | argument :: rest => do setPaths (← options.setPath argument) rest

/-- What the letters behind a dash come to: new options, or a setting that waits
for its value in the next argument. -/
def setLetters (options : Options) (argument : Text) :
    Text → Except Stop (Options × Option Setting)
  | [] => .ok (options, none)
  | c :: rest =>
    match shortOption? c with
    | none => .error (.unknownOption argument)
    | some (.flag flag) => do setLetters (← options.setFlag argument flag) argument rest
    | some (.setting setting) =>
      match rest with
      | [] => .ok (options, some setting)
      | '=' :: value => do return (← options.setValue argument value setting, none)
      | value => do return (← options.setValue argument value setting, none)

/-- What an argument behind two dashes comes to, like `setLetters`. -/
def setLong (options : Options) (argument : Text) : Except Stop (Options × Option Setting) :=
  let body := argument.drop 2
  let name := String.ofList (body.takeWhile (· != '='))
  let value? := if body.contains '=' then some ((body.dropWhile (· != '=')).drop 1) else none
  match longOptions.lookup name, value? with
  | none, _ => .error (.unknownOption argument)
  | some (.flag flag), none => do return (← options.setFlag argument flag, none)
  | some (.flag _), some _ => .error (.unneededValue argument)
  | some (.setting setting), none => .ok (options, some setting)
  | some (.setting setting), some value =>
    do return (← options.setValue argument value setting, none)

/-- Whether an argument is an option and not a value. -/
def isOption : Text → Bool
  | '-' :: _ :: _ => true
  | _ => false

/-- Reads arguments. The last one before them may be an option, `waiting`, that
needs its value. -/
def read (options : Options) (waiting : Option (Text × Setting)) :
    List Text → Except Stop Options
  | [] =>
    match waiting with
    | some (argument, _) => .error (.missingValue argument)
    | none => .ok options
  | argument :: rest =>
    match waiting with
    | some (option, setting) =>
      if isOption argument then .error (.missingValue option)
      else do read (← options.setValue option argument setting) none rest
    | none =>
      if argument = ['-', '-'] then
        options.setPaths rest
      else if isOption argument then do
        let (options, setting) ←
          if ['-', '-'].isPrefixOf argument then options.setLong argument
          else options.setLetters argument (argument.drop 1)
        read options (setting.map (argument, ·)) rest
      else do
        read (← options.setPath argument) none rest

/-- The options and the input of a command line. -/
def parse (arguments : List Text) : Except Stop (Options × Path) := do
  let options ← read {} none arguments
  match options.path with
  | none => throw .missingPath
  | some path =>
    if options.inPlace && options.suffix.isSome then
      throw .inPlaceWithSuffix
    return (options, ⟨path⟩)

/-- The settings of a run. -/
def settings (options : Options) : Settings where
  skip :=
    { SkipRules.usual with
      patterns := usualPatterns ++ options.skipPatterns
      ignoreNames := options.ignoreNames }
  extensions :=
    if options.extensions.isEmpty then usualExtensions
    else options.extensions.map normalExtension
  output := if options.inPlace then .inPlace else .sibling (options.suffix.getD usualSuffix)
  dryRun := options.dryRun
  jobs := options.jobs.getD 1
  disabledRules := options.disabledRules

end Options

end Deflow.CommandLine
