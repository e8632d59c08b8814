import Deflow.CommandLine.Session

/-!
# The program

The command line on a real disk. Everything it decides is decided in
`CommandLine.session`; here files are opened and texts are printed.
-/

namespace Deflow

/-- The number and the words of a failure of the system. Some calls give the
number with a minus sign. -/
def systemFailure : IO.Error → Nat × String
  | .alreadyExists _ code details | .interrupted _ code details
  | .noFileOrDirectory _ code details | .invalidArgument _ code details
  | .permissionDenied _ code details | .resourceExhausted _ code details
  | .inappropriateType _ code details | .noSuchThing _ code details
  | .otherError code details | .resourceBusy code details | .resourceVanished code details
  | .unsupportedOperation code details | .hardwareFault code details
  | .unsatisfiedConstraints code details | .illegalOperation code details
  | .protocolError code details | .timeExpired code details =>
    (code.toInt32.toInt.natAbs, details)
  | .unexpectedEof => (0, "unexpected end of file")
  | .userError details => (0, details)

/-- An action together with the reason for which it fails. -/
def attempt (action : IO α) : IO (Except OsError α) := do
  try
    return .ok (← action)
  catch error =>
    let (code, details) := systemFailure error
    return .error (if code = 0 then .other details else .ofCode code details)

/-- The kind of a file that is no link. -/
def fileKind : IO.FS.FileType → FileKind
  | .dir => .directory
  | .file => .file
  | _ => .special

/-- The entry of a directory, unless it is left out or gone. -/
def inspect (item : IO.FS.DirEntry) : IO (Option DirectoryEntry) := do
  match ← attempt item.path.symlinkMetadata with
  | .error _ => return none
  | .ok metadata =>
    match metadata.type with
    | .dir => return some ⟨item.fileName.toList, true⟩
    | .file => return some ⟨item.fileName.toList, false⟩
    | _ => return none

/-- The disk of the system. Paths there are too short for more levels. -/
instance : Disk IO where
  kindOf path := attempt do
    let file := (← IO.currentDir) / path.display
    return fileKind (← file.metadata).type
  list path := attempt do
    let file := (← IO.currentDir) / path.display
    return (← (← file.readDir).toList.mapM inspect).reduceOption
  readText path := do
    match ← attempt (IO.FS.readBinFile path.display) with
    | .error error => return .error error
    | .ok bytes =>
      match String.fromUTF8? bytes with
      | some text => return .ok text.toList
      | none => return .error .invalidText
  writeText path text := attempt (IO.FS.writeFile path.display (String.ofList text))
  clock := IO.monoNanosNow
  levels := return 4096

/-- The surroundings of this call. -/
def surroundings : IO CommandLine.Surroundings := do
  let environment ← ["NO_COLOR", "FORCE_COLOR", "TERM"].filterMapM fun name => do
    return (← IO.getEnv name).map (name, ·)
  return {
    workingDirectory := ⟨(← IO.currentDir).toString.toList⟩
    environment
    isTerminal := ← (← IO.getStdout).isTty }

end Deflow

open Deflow in
/-- Runs the program and tells how it ended. -/
def main (arguments : List String) : IO UInt32 := do
  let standard ← IO.getStdout
  let out : CommandLine.Output IO := fun text => ExceptT.mk (attempt (standard.putStr text))
  let ending ← CommandLine.session (← surroundings) out (arguments.map String.toList)
  if let some text := ending.usageText? then
    IO.eprint text
  if let some line := ending.fatalLine? then
    IO.eprintln line
  return ending.code.toUInt32
