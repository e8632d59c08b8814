import Deflow.Text.Basic

/-!
# Paths

A path is kept as the text it was given as, and read as a sequence of
components. Between components any number of slashes may stand, and a lone dot
counts only at the very beginning. Paths with the same components lead to the
same place.
-/

namespace Deflow

/-- A path as it was given. -/
structure Path where
  text : Text
deriving DecidableEq, Repr

/-- Where a path starts. -/
inductive Anchor where
  /-- At the root: the text begins with a slash. -/
  | root
  /-- At the working directory, by a dot of its own. -/
  | current
  /-- At the working directory, without saying so. -/
  | none
deriving DecidableEq, Repr

/-- The text of an anchor. -/
def Anchor.text : Anchor → Text
  | .root => ['/']
  | .current => ['.']
  | .none => []

/-- A step of a path. -/
inductive Component where
  | root
  | current
  | parent
  | name (name : Text)
deriving DecidableEq, Repr

/-- The component that an anchor is. -/
def Anchor.component? : Anchor → Option Component
  | .root => some .root
  | .current => some .current
  | .none => Option.none

namespace Path

/-- The anchor of a path, and what stands between slashes behind it. -/
def split (path : Path) : Anchor × List Text :=
  match path.text with
  | '/' :: rest => (.root, Text.splitAt '/' rest)
  | ['.'] => (.current, [])
  | '.' :: '/' :: rest => (.current, Text.splitAt '/' ('/' :: rest))
  | text => (.none, Text.splitAt '/' text)

/-- The path of an anchor and segments. -/
def ofSplit (anchor : Anchor) (segments : List Text) : Path where
  text := anchor.text ++ Text.joinWith ['/'] segments

/-- Whether a segment leads nowhere: it is empty or a dot. -/
def isIdle (segment : Text) : Bool :=
  segment.isEmpty || segment == ['.']

/-- The component that a segment is, if it leads somewhere. -/
def component? (segment : Text) : Option Component :=
  if isIdle segment then none
  else if segment = ['.', '.'] then some .parent
  else some (.name segment)

/-- Segments without idle ones at the end. -/
def trimEnd (segments : List Text) : List Text :=
  (segments.reverse.dropWhile isIdle).reverse

/-- The components of a path. -/
def components (path : Path) : List Component :=
  let (anchor, segments) := path.split
  anchor.component?.toList ++ segments.filterMap component?

/-- Whether two paths have the same components. -/
def same (first second : Path) : Bool :=
  first.components == second.components

/-- A path as messages show it. -/
def display (path : Path) : String :=
  String.ofList path.text

/-- Whether a path starts at the root. -/
def isAbsolute (path : Path) : Bool :=
  path.text.head? == some '/'

/-- The last component, if it is a name. -/
def fileName? (path : Path) : Option Text :=
  match path.components.getLast? with
  | some (.name name) => some name
  | _ => none

/-- The last component, if it is a name, or nothing. -/
def baseName (path : Path) : Text :=
  path.fileName?.getD []

/-- A path without its last component, for a path that ends with a name. -/
def dropName (path : Path) : Path :=
  let (anchor, segments) := path.split
  ofSplit anchor (trimEnd (trimEnd segments).dropLast)

/-- Goes on from a path along another. An absolute one starts afresh. -/
def join (path : Path) (next : Text) : Path where
  text :=
    if next.head? == some '/' then next
    else if path.text.isEmpty || path.text.getLast? == some '/' then path.text ++ next
    else path.text ++ ['/'] ++ next

/-- The path with another name in place of its last component, or behind it if
that is no name. -/
def withFileName (path : Path) (name : Text) : Path :=
  (if path.fileName?.isSome then path.dropName else path).join name

/-! ## Names and extensions -/

/-- A name cut at its last dot. A dot at the beginning does not count. -/
def splitName (name : Text) : Text × Option Text :=
  let extension := (name.reverse.takeWhile (· != '.')).reverse
  let stem := name.take (name.length - extension.length - 1)
  if name.contains '.' && !stem.isEmpty then (stem, some extension) else (name, none)

/-- The name of a path without its extension. -/
def fileStem? (path : Path) : Option Text :=
  path.fileName?.map fun name => (splitName name).1

/-- What follows the last dot in the name of a path. -/
def extension? (path : Path) : Option Text :=
  path.fileName?.bind fun name => (splitName name).2

/-! ## Relative paths -/

/-- Segments behind the components `front`, if they begin with those. -/
def dropComponents? : (front : List Component) → List Text → Option (List Text)
  | [], segments => some segments
  | _ :: _, [] => none
  | component :: front, segment :: segments =>
    match component? segment with
    | none => dropComponents? (component :: front) segments
    | some found => if found = component then dropComponents? front segments else none
termination_by structural _ segments => segments

/-- What is left of a path behind `base`, if it begins with the components of
`base`. -/
def relativeTo? (base path : Path) : Option Text :=
  let (anchor, segments) := path.split
  match base.components with
  | [] => some (ofSplit anchor (trimEnd segments)).text
  | front =>
    let rest? :=
      match anchor.component? with
      | none => dropComponents? front segments
      | some component =>
        if front.head? = some component then dropComponents? (front.drop 1) segments else none
    rest?.map fun rest => Text.joinWith ['/'] ((trimEnd rest).dropWhile isIdle)

end Path

end Deflow
