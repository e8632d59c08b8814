import Deflow.Glob.Marked

/-!
# Name patterns

Patterns for base names. A question mark stands for one character, a star for
any text, and brackets for one character of a set or, behind an exclamation
mark, for one outside it. Two stars must fill a segment between slashes; they
stand for nothing, for text that ends with a slash, or for all that is left.
-/

namespace Deflow.Glob

/-- Characters from `first` through `last`. -/
structure CharSpan where
  first : Char
  last : Char
deriving DecidableEq, Repr

/-- Whether one of the spans holds a character. -/
def CharSpan.anyHolds (spans : List CharSpan) (c : Char) : Bool :=
  spans.any fun span => decide (span.first ≤ c) && decide (c ≤ span.last)

/-- The spans that the text between brackets lists. A dash between two
characters joins them. -/
def CharSpan.read : Text → List CharSpan
  | first :: '-' :: last :: rest => ⟨first, last⟩ :: read rest
  | c :: rest => ⟨c, c⟩ :: read rest
  | [] => []

/-- A part of a name pattern. -/
inductive NamePart where
  | literal (c : Char)
  | anyChar
  | inside (spans : List CharSpan)
  | outside (spans : List CharSpan)
  | anyText
  | anySegments
deriving DecidableEq, Repr

/-- What is wrong with a pattern. -/
inductive NamePatternFault where
  | tooManyStars
  | starsNotAlone
  | badBrackets
deriving DecidableEq, Repr

/-- The wording of a fault. -/
def NamePatternFault.message : NamePatternFault → String
  | .tooManyStars => "wildcards are either regular `*` or recursive `**`"
  | .starsNotAlone => "recursive wildcards must form a single path component"
  | .badBrackets => "invalid range pattern"

/-- A fault and the number of characters of the pattern in front of it. -/
structure NamePatternError where
  place : Nat
  fault : NamePatternFault
deriving DecidableEq, Repr

/-- The wording of an error. -/
def NamePatternError.message (error : NamePatternError) : String :=
  s!"Pattern syntax error near position {error.place}: {error.fault.message}"

namespace NamePart

/-- The set between brackets and the number of characters of the brackets, given
the text behind the opening one. The first character of the set is always taken
as it is. -/
def bracketed? : Text → Option (NamePart × Nat)
  | '!' :: first :: rest =>
    if rest.contains ']' then
      let inner := rest.takeWhile (· != ']')
      some (.outside (CharSpan.read (first :: inner)), inner.length + 4)
    else
      none
  | first :: rest =>
    if first != '!' && rest.contains ']' then
      let inner := rest.takeWhile (· != ']')
      some (.inside (CharSpan.read (first :: inner)), inner.length + 3)
    else
      none
  | [] => none

/-- Puts segments behind parts, latest first. Two in a row are one, except at
the beginning. -/
def pushSegments (read : List NamePart) : List NamePart :=
  if read.length > 1 && read.head? == some .anySegments then read else .anySegments :: read

/-- What is known about the part of a pattern already read. -/
structure State where
  /-- The parts so far, the latest first. -/
  read : List NamePart := []
  /-- How many characters have been read. -/
  place : Nat := 0
  /-- Whether a segment starts here. -/
  segmentStart : Bool := true

/-- The state behind a part of one character `c`. -/
def State.push (state : State) (part : NamePart) (c : Char) : State where
  read := part :: state.read
  place := state.place + 1
  segmentStart := c == '/'

/-- The parts of a pattern. The first `skip` characters belong to brackets
already read. -/
def read (state : State) (skip : Nat) : Text → Except NamePatternError (List NamePart)
  | [] => .ok state.read.reverse
  | c :: rest =>
    match skip with
    | skip + 1 => read { state with place := state.place + 1 } skip rest
    | 0 =>
      match c, rest with
      | '*', '*' :: '*' :: _ => .error ⟨state.place + 2, .tooManyStars⟩
      | '*', '*' :: behind =>
        if state.segmentStart then
          match behind with
          | [] => .ok (pushSegments state.read).reverse
          | '/' :: behind =>
            read { read := pushSegments state.read, place := state.place + 3 } 0 behind
          | _ :: _ => .error ⟨state.place + 2, .starsNotAlone⟩
        else
          .error ⟨state.place - 1, .starsNotAlone⟩
      | '*', rest => read (state.push .anyText c) 0 rest
      | '?', rest => read (state.push .anyChar c) 0 rest
      | '[', rest =>
        match bracketed? rest with
        | some (part, size) => read (state.push part ']') (size - 1) rest
        | none => .error ⟨state.place, .badBrackets⟩
      | c, rest => read (state.push (.literal c) c) 0 rest

/-- Puts a part in front of the pattern of a marking. -/
def mark : NamePart → Marked → Marked
  | .literal c, rest => rest.one (· == c)
  | .anyChar, rest => rest.one fun _ => true
  | .inside spans, rest => rest.one (CharSpan.anyHolds spans)
  | .outside spans, rest => rest.one (!CharSpan.anyHolds spans ·)
  | .anyText, rest => rest.many fun _ => true
  | .anySegments, rest =>
    (rest.either ((rest.one (· == '/')).many fun _ => true)).either rest.toEnd

end NamePart

/-- A pattern for base names. -/
structure NamePattern where
  text : Text
  parts : List NamePart
deriving DecidableEq, Repr

namespace NamePattern

/-- The pattern that a text writes. -/
def parse (text : Text) : Except NamePatternError NamePattern :=
  (NamePart.read {} 0 text).map fun parts => { text, parts }

/-- Whether a pattern matches a whole name. -/
def accepts (pattern : NamePattern) (name : Text) : Bool :=
  (pattern.parts.foldr NamePart.mark (Marked.ofText name)).here

end NamePattern

end Deflow.Glob
