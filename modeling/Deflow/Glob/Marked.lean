import Deflow.Text.Basic

/-!
# Marked texts

A text in which every suffix carries a mark: whether what is left of a pattern
matches that suffix. Putting a part in front of a pattern turns one marking into
another in one pass from the end, so a pattern is matched in a time that grows
with its length times the length of the text.
-/

namespace Deflow.Glob

/-- A text whose every suffix, the empty one included, is marked. -/
inductive Marked where
  | last (mark : Bool)
  | next (mark : Bool) (c : Char) (rest : Marked)
deriving DecidableEq, Repr

namespace Marked

/-- The mark of the whole text. -/
def here : Marked → Bool
  | .last mark => mark
  | .next mark _ _ => mark

/-- The mark of the empty suffix. -/
def atEnd : Marked → Bool
  | .last mark => mark
  | .next _ _ rest => rest.atEnd

/-- The marking of an empty pattern: only the empty suffix matches. -/
def ofText : Text → Marked
  | [] => .last true
  | c :: text => .next false c (ofText text)

/-- One character of a class, then the pattern. -/
def one (inClass : Char → Bool) : Marked → Marked
  | .last _ => .last false
  | .next _ c rest => .next (inClass c && rest.here) c (rest.one inClass)

/-- Any number of characters of a class, then the pattern. -/
def many (inClass : Char → Bool) : Marked → Marked
  | .last mark => .last mark
  | .next mark c rest =>
    let rest := rest.many inClass
    .next (mark || (inClass c && rest.here)) c rest

/-- Either of two patterns, for markings of the same text. -/
def either : Marked → Marked → Marked
  | .next first c rest, .next second _ other => .next (first || second) c (rest.either other)
  | .last first, other => .last (first || other.here)
  | .next first c rest, .last second => .next (first || second) c rest

/-- Everything to the end of the text, then the pattern. -/
def toEnd : Marked → Marked
  | .last mark => .last mark
  | .next _ c rest => .next rest.atEnd c rest.toEnd

end Marked

end Deflow.Glob
