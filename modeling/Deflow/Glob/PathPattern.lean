import Deflow.Glob.Marked

/-!
# Path patterns

Patterns for whole paths with forward slashes. A star stands for characters
within one segment, a question mark for one such character, and two stars for
any text; two stars that fill a segment also stand for no segment at all.

A pattern can be shown as a regular expression, in which every other character
is escaped where it would mean something.
-/

namespace Deflow.Glob

/-- A part of a path pattern. -/
inductive PathPart where
  /-- This character. -/
  | literal (c : Char)
  /-- One character of a segment. -/
  | segmentChar
  /-- Any characters of a segment. -/
  | segmentText
  /-- Any text on one line. -/
  | anyText
  /-- Nothing, or any text on one line that ends with a slash. -/
  | leadingFolders
  /-- Nothing, or a slash and any text on one line. -/
  | subtree
deriving DecidableEq, Repr

namespace PathPart

/-- The parts of a pattern. The flag tells whether a segment starts here. -/
def read (segmentStart : Bool) : Text → List PathPart
  | [] => []
  | ['/', '*', '*'] => [.subtree]
  | '*' :: '*' :: '/' :: rest =>
    if segmentStart then .leadingFolders :: read true rest else .anyText :: read false ('/' :: rest)
  | '*' :: '*' :: rest => .anyText :: read false rest
  | '*' :: rest => .segmentText :: read false rest
  | '?' :: rest => .segmentChar :: read false rest
  | c :: rest => .literal c :: read (c == '/') rest

/-- Puts a part in front of the pattern of a marking. -/
def mark : PathPart → Marked → Marked
  | .literal c, rest => rest.one (· == c)
  | .segmentChar, rest => rest.one (· != '/')
  | .segmentText, rest => rest.many (· != '/')
  | .anyText, rest => rest.many (· != '\n')
  | .leadingFolders, rest => rest.either ((rest.one (· == '/')).many (· != '\n'))
  | .subtree, rest => rest.either ((rest.many (· != '\n')).one (· == '/'))

/-- The characters that mean something in a regular expression. -/
def isMeta (c : Char) : Bool :=
  "\\.+*?()|[]\x7b\x7d^$#&-~".toList.contains c

/-- A part as a regular expression. -/
def regex : PathPart → Text
  | .literal c => if isMeta c then ['\\', c] else [c]
  | .segmentChar => "[^/]".toList
  | .segmentText => "[^/]*".toList
  | .anyText => ".*".toList
  | .leadingFolders => "(?:.*/)?".toList
  | .subtree => "(?:/.*)?".toList

end PathPart

/-- A pattern for whole paths. -/
structure PathPattern where
  text : Text
deriving DecidableEq, Repr

namespace PathPattern

/-- The parts of a pattern, in order. -/
def parts (pattern : PathPattern) : List PathPart :=
  PathPart.read true pattern.text

/-- Whether a pattern matches a whole path. -/
def accepts (pattern : PathPattern) (path : Text) : Bool :=
  (pattern.parts.foldr PathPart.mark (Marked.ofText path)).here

/-- A pattern as a regular expression for whole texts. -/
def regex (pattern : PathPattern) : Text :=
  ['^'] ++ pattern.parts.flatMap PathPart.regex ++ ['$']

/-- The first of several patterns that matches a path. -/
def first? (patterns : List PathPattern) (path : Text) : Option PathPattern :=
  patterns.find? (·.accepts path)

end PathPattern

end Deflow.Glob
