import Deflow.Path.Basic

/-!
# Disks

What a run needs of a file system, for any monad that can provide it: to ask
what a path leads to, to list a directory, to read and to write a text. Each
operation can fail for a reason that the system gives.
-/

namespace Deflow

/-- Why an operation on files fails. -/
inductive OsError where
  | notFound
  | notADirectory
  | isADirectory
  | permissionDenied
  | nameTooLong
  | tooManyLinks
  /-- The file holds no text. -/
  | invalidText
  /-- The path holds a character that no system accepts in one. -/
  | nulInPath
  /-- Any other reason, in the words of the system. -/
  | other (message : String)
deriving DecidableEq, Repr

/-- The wording of a reason. -/
def OsError.message : OsError → String
  | .notFound => "No such file or directory (os error 2)"
  | .notADirectory => "Not a directory (os error 20)"
  | .isADirectory => "Is a directory (os error 21)"
  | .permissionDenied => "Permission denied (os error 13)"
  | .nameTooLong => "File name too long (os error 36)"
  | .tooManyLinks => "Too many levels of symbolic links (os error 40)"
  | .invalidText => "stream did not contain valid UTF-8"
  | .nulInPath => "file name contained an unexpected NUL byte"
  | .other message => message

/-- The reason with the given number, of which the system says `details`. -/
def OsError.ofCode (code : Nat) (details : String) : OsError :=
  match code with
  | 2 => .notFound
  | 13 => .permissionDenied
  | 20 => .notADirectory
  | 21 => .isADirectory
  | 36 => .nameTooLong
  | 40 => .tooManyLinks
  | code => .other s!"{details} (os error {code})"

/-- What a path leads to. -/
inductive FileKind where
  | file
  | directory
  /-- A pipe, a device or the like. -/
  | special
deriving DecidableEq, Repr

/-- A file or directory in a directory. -/
structure DirectoryEntry where
  name : Text
  isDirectory : Bool
deriving DecidableEq, Repr

/-- A monad in which files can be looked at and changed. -/
class Disk (m : Type → Type) where
  /-- What a path leads to, through links. -/
  kindOf : Path → m (Except OsError FileKind)
  /-- The files and directories in a directory. Links and special files are left
  out. -/
  list : Path → m (Except OsError (List DirectoryEntry))
  /-- The text of a file. -/
  readText : Path → m (Except OsError Text)
  /-- Makes a text the content of a file, which is created if need be. -/
  writeText : Path → Text → m (Except OsError Unit)
  /-- A clock, in nanoseconds. -/
  clock : m Nat
  /-- A number of levels below which no directory lies. -/
  levels : m Nat

/-- The state of a computation on top of a disk does not concern the disk. -/
instance [Monad m] [Disk m] : Disk (StateT σ m) where
  kindOf path := StateT.lift (Disk.kindOf path)
  list path := StateT.lift (Disk.list path)
  readText path := StateT.lift (Disk.readText path)
  writeText path text := StateT.lift (Disk.writeText path text)
  clock := StateT.lift Disk.clock
  levels := StateT.lift Disk.levels

end Deflow
