import Deflow.Text.Basic

/-!
# Positions

A position is a line and a column, both counted from one. Columns count
characters, and a line ends with its line feed.
-/

namespace Deflow

/-- A place in a source text, as a reader of the text names it. -/
structure Position where
  line : Nat
  column : Nat
deriving DecidableEq, Repr

namespace Position

/-- The position of the first character of a text. -/
def start : Position := ⟨1, 1⟩

/-- The position just after a character that stands at `position`. -/
def advance (position : Position) (c : Char) : Position :=
  if c = '\n' then ⟨position.line + 1, 1⟩ else ⟨position.line, position.column + 1⟩

/-- The position just after a text that begins at `position`. -/
def after (position : Position) (text : Text) : Position :=
  text.foldl advance position

@[simp]
theorem after_nil (position : Position) : position.after [] = position :=
  rfl

@[simp]
theorem after_cons (position : Position) (c : Char) (text : Text) :
    position.after (c :: text) = (position.advance c).after text :=
  rfl

@[simp]
theorem after_append (position : Position) (first second : Text) :
    position.after (first ++ second) = (position.after first).after second := by
  simp [after, List.foldl_append]

/-- The position at a byte offset into a text that begins at `position`. An
offset inside a character counts as the offset of that character, and one
behind the end as the end. -/
def atOffset (position : Position) : Text → Nat → Position
  | [], _ => position
  | c :: text, offset =>
    if c.utf8Size ≤ offset then
      atOffset (position.advance c) text (offset - c.utf8Size)
    else
      position

/-- The position at a byte offset into a source text. -/
def ofOffset (source : Text) (offset : Nat) : Position :=
  start.atOffset source offset

/-- The position at the byte offset behind the front of a text is the one just
after the front. -/
theorem ofOffset_append (front rest : Text) :
    ofOffset (front ++ rest) front.byteLength = start.after front := by
  have general (position : Position) :
      position.atOffset (front ++ rest) front.byteLength = position.after front := by
    induction front generalizing position with
    | nil =>
        cases rest with
        | nil => rfl
        | cons c rest => simp [atOffset, Nat.not_le.mpr (Char.utf8Size_pos c)]
    | cons c front inductionHypothesis =>
        rw [List.cons_append, atOffset, Text.byteLength_cons, if_pos (Nat.le_add_right ..),
          Nat.add_sub_cancel_left, inductionHypothesis, after_cons]
  exact general start

/-- A position as messages write it. -/
def render (position : Position) : String :=
  s!"{position.line}:{position.column}"

end Position

end Deflow
