import Deflow.Disk.Basic

/-!
# File trees

A file system as a value. Every file and directory stands under its place, the
list of names that lead to it from the root. A path is followed name by name, as
a system does it: a name is looked up in a directory only, two dots lead to the
directory above, and a link is replaced by what it points to.

Computations on files run in `StateM FileTree`.
-/

namespace Deflow

/-- The names that lead from the root to a file or directory. -/
abbrev Place := List Text

/-- The content of a file. -/
inductive Content where
  | text (text : Text)
  /-- Bytes that are no text. -/
  | binary (bytes : List UInt8)
deriving DecidableEq, Repr

/-- The content that bytes are: a text, if they encode one. -/
def Content.ofBytes (bytes : List UInt8) : Content :=
  match String.fromUTF8? ⟨bytes.toArray⟩ with
  | some decoded => .text decoded.toList
  | none => .binary bytes

/-- What stands under a place. -/
inductive FileNode where
  | file (content : Content)
  | directory (readable : Bool)
  | link (target : Text)
  | special
deriving DecidableEq, Repr

/-- A file system as a list of places, in the order in which directories are
listed. The root itself is always a directory. -/
structure FileTree where
  nodes : List (Place × FileNode) := []
deriving DecidableEq, Repr

namespace FileTree

/-! ## Places -/

/-- What stands under a place. -/
def get? (tree : FileTree) (place : Place) : Option FileNode :=
  if place.isEmpty then some (.directory true) else tree.nodes.lookup place

/-- The tree with another node under a place, which keeps its rank. -/
def put (tree : FileTree) (place : Place) (node : FileNode) : FileTree where
  nodes :=
    if tree.nodes.any (·.1 == place) then
      tree.nodes.map fun entry => if entry.1 == place then (place, node) else entry
    else
      tree.nodes ++ [(place, node)]

/-- The tree without a place and everything below it. -/
def erase (tree : FileTree) (place : Place) : FileTree where
  nodes := tree.nodes.filter fun entry => !place.isPrefixOf entry.1

/-- The name of a place in a directory, if it lies directly in it. -/
def childName? (directory place : Place) : Option Text :=
  match place.drop directory.length with
  | [name] => if directory.isPrefixOf place then some name else none
  | _ => none

/-- The names and nodes in a directory, in order. -/
def children (tree : FileTree) (directory : Place) : List (Text × FileNode) :=
  tree.nodes.filterMap fun entry => (childName? directory entry.1).map (·, entry.2)

/-! ## Following paths -/

/-- Where a path leads. -/
inductive Target where
  | found (place : Place) (node : FileNode)
  /-- Nothing is there, but its directory is. -/
  | missing (place : Place)
deriving DecidableEq, Repr

/-- How many links may stand on one path. -/
def linkLimit : Nat := 40

/-- How many bytes a name may have. -/
def nameLimit : Nat := 255

/-- How many bytes a path may have. -/
def pathLimit : Nat := 4095

/-- What a path is followed for. -/
inductive Purpose where
  /-- To look at what is there. -/
  | look
  /-- To write a file, which is created if need be. -/
  | write
deriving DecidableEq, Repr

/-- Whether nothing but slashes follows a name, so that it has to be the name of a
directory. -/
def onlySlashes (rest : List Text) : Bool :=
  !rest.isEmpty && rest.all (·.isEmpty)

/-- Follows segments from a place to their end or to the first link. Behind a
link, `behindLink` goes on from a directory along the segments that are left. A
file to write cannot have a slash behind its name, whatever stands there. -/
def followSegments (tree : FileTree) (purpose : Purpose)
    (behindLink : Place → List Text → Except OsError Target) (place : Place) :
    List Text → Except OsError Target
  | [] =>
    match tree.get? place with
    | some node => .ok (.found place node)
    | none => .ok (.missing place)
  | segment :: rest =>
    match tree.get? place with
    | some (.directory _) =>
      if Path.isIdle segment then
        followSegments tree purpose behindLink place rest
      else if segment = ['.', '.'] then
        followSegments tree purpose behindLink place.dropLast rest
      else if purpose = .write && onlySlashes rest then
        .error .isADirectory
      else if nameLimit < segment.byteLength then
        .error .nameTooLong
      else
        match tree.get? (place ++ [segment]) with
        | some (.link target) =>
          let start := if target.head? == some '/' then [] else place
          behindLink start (Text.splitAt '/' target ++ rest)
        | some _ => followSegments tree purpose behindLink (place ++ [segment]) rest
        | none => if rest.isEmpty then .ok (.missing (place ++ [segment])) else .error .notFound
    | some _ => .error .notADirectory
    | none => .error .notFound

/-- Follows segments from a place, with so many links still allowed. -/
def follow (tree : FileTree) (purpose : Purpose) :
    (links : Nat) → Place → List Text → Except OsError Target
  | 0 => followSegments tree purpose fun _ _ => .error .tooManyLinks
  | links + 1 => followSegments tree purpose (follow tree purpose links)

/-- Where a path leads. A path that is not absolute starts at the root as
well. -/
def locate (tree : FileTree) (purpose : Purpose) (path : Path) : Except OsError Target :=
  if path.text.isEmpty then .error .notFound
  else if path.text.contains '\x00' then .error .nulInPath
  else if pathLimit < path.text.byteLength then .error .nameTooLong
  else follow tree purpose linkLimit [] (Text.splitAt '/' path.text)

/-! ## Operations -/

/-- What a path leads to. -/
def kindOf (tree : FileTree) (path : Path) : Except OsError FileKind := do
  match ← tree.locate .look path with
  | .found _ (.file _) => return .file
  | .found _ (.directory _) => return .directory
  | .found _ _ => return .special
  | .missing _ => throw .notFound

/-- The entry that a node in a directory is, unless it is left out. -/
def listed? (name : Text) : FileNode → Option DirectoryEntry
  | .file _ => some ⟨name, false⟩
  | .directory _ => some ⟨name, true⟩
  | _ => none

/-- The files and directories in a directory. -/
def list (tree : FileTree) (path : Path) : Except OsError (List DirectoryEntry) := do
  match ← tree.locate .look path with
  | .found place (.directory true) =>
    return (tree.children place).filterMap fun child => listed? child.1 child.2
  | .found _ (.directory false) => throw .permissionDenied
  | .found _ _ => throw .notADirectory
  | .missing _ => throw .notFound

/-- The text of a file. -/
def readText (tree : FileTree) (path : Path) : Except OsError Text := do
  match ← tree.locate .look path with
  | .found _ (.file (.text text)) => return text
  | .found _ (.file (.binary _)) => throw .invalidText
  | .found _ (.directory _) => throw .isADirectory
  | .found _ _ => return []
  | .missing _ => throw .notFound

/-- The tree in which a file has a content. What the file held before is lost, and
special files take everything. -/
def fill (tree : FileTree) (content : Content) : Target → Except OsError FileTree
  | .found place (.file _) | .missing place => .ok (tree.put place (.file content))
  | .found _ (.directory _) => .error .isADirectory
  | .found _ _ => .ok tree

/-- The tree in which a text is the content of a file. -/
def writeText (tree : FileTree) (path : Path) (text : Text) : Except OsError FileTree := do
  tree.fill (.text text) (← tree.locate .write path)

/-! ## Building trees -/

/-- Whether a text may be the name of a file or directory. -/
def isName (name : Text) : Bool :=
  !name.isEmpty && !name.contains '\x00' && name.byteLength ≤ nameLimit

/-- Whether a text may be what a link points to. -/
def isLinkTarget (target : Text) : Bool :=
  !target.isEmpty && !target.contains '\x00' && target.byteLength ≤ pathLimit

/-- The tree with a directory of the given name, which may be there already, and
the place of that directory. -/
def openDirectory? (tree : FileTree) (place : Place) (name : Text) : Option (FileTree × Place) :=
  match tree.follow .look linkLimit place [name] with
  | .ok (.found inner (.directory _)) => some (tree, inner)
  | .ok (.missing inner) =>
    if isName name && inner = place ++ [name] then
      some (tree.put inner (.directory true), inner)
    else
      none
  | _ => none

/-- The tree with directories of the given names one inside the other, as far as
they can be made, and the place of the innermost if all are there. -/
def openDirectories (tree : FileTree) (place : Place) : List Text → FileTree × Option Place
  | [] => (tree, some place)
  | name :: names =>
    match tree.openDirectory? place name with
    | some (grown, inner) => openDirectories grown inner names
    | none => (tree, none)

/-- The tree with one more node in a directory. A file may take the place of a
file, and a directory may be there already. -/
def addIn? (tree : FileTree) (directory : Place) (name : Text) (node : FileNode) :
    Option FileTree := do
  match node with
  | .file content =>
    guard (isName name)
    let target ← (tree.follow .write linkLimit directory [name]).toOption
    (tree.fill content target).toOption
  | .directory _ => (tree.openDirectory? directory name).map (·.1)
  | .link target =>
    guard (isName name && isLinkTarget target && (tree.get? (directory ++ [name])).isNone)
    some (tree.put (directory ++ [name]) node)
  | .special =>
    guard (isName name && (tree.get? (directory ++ [name])).isNone)
    some (tree.put (directory ++ [name]) node)

/-- The names on a path, from the root. Two dots are among them. -/
def namesOn (path : Path) : List Text :=
  path.components.filterMap fun
    | .name name => some name
    | .parent => some ['.', '.']
    | _ => none

/-- Whether a node may stand under a path. For anything but a directory the path
ends with the name, without a slash behind it. -/
def fits (path : Path) : FileNode → Bool
  | .directory _ => true
  | _ => path.fileName?.isSome && path.fileName? == (Text.splitAt '/' path.text).getLast?

/-- The tree with one more node and the directories on the way to it, and whether
the node could be added. -/
def add (tree : FileTree) (path : Path) (node : FileNode) : FileTree × Bool :=
  let names := namesOn path
  match tree.openDirectories [] names.dropLast, names.getLast? with
  | (grown, some directory), some name =>
    match if fits path node then grown.addIn? directory name node else none with
    | some full => (full, true)
    | none => (grown, false)
  | (grown, _), _ => (grown, false)

/-- The tree without what stands under a path, if anything does. A link is
removed by itself. -/
def remove? (tree : FileTree) (path : Path) : Option FileTree := do
  let names := namesOn path
  let name ← names.getLast?
  match tree.follow .look linkLimit [] names.dropLast with
  | .ok (.found directory (.directory _)) =>
    let place := directory ++ [name]
    if (tree.get? place).isSome then some (tree.erase place) else none
  | _ => none

/-- The files below a place, each with its place relative to that. -/
def filesBelow (tree : FileTree) (place : Place) : List (Place × Content) :=
  tree.nodes.filterMap fun entry =>
    match entry.2 with
    | .file content =>
      if place.isPrefixOf entry.1 then some (entry.1.drop place.length, content) else none
    | _ => none

/-- The files below a place that differ between two trees, each with its new
content, or without one if it is gone. -/
def changes (before after : FileTree) (place : Place) : List (Place × Option Content) :=
  let old := before.filesBelow place
  let new := after.filesBelow place
  (new.filterMap fun (name, content) =>
      if old.lookup name = some content then none else some (name, some content)) ++
    old.filterMap fun (name, _) =>
      if (new.lookup name).isNone then some (name, none) else none

end FileTree

/-- Operations on files as operations on a tree. No time passes in it. -/
instance : Disk (StateM FileTree) where
  kindOf path := do return (← get).kindOf path
  list path := do return (← get).list path
  readText path := do return (← get).readText path
  writeText path text := do
    match (← get).writeText path text with
    | .ok tree => set tree; return .ok ()
    | .error error => return .error error
  clock := return 0
  levels := do return (← get).nodes.length + 1

end Deflow
