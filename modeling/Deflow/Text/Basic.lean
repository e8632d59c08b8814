/-!
# Text

Source text is a list of characters, so that it can be taken apart from the
front. Offsets into it count the bytes of its UTF-8 form.
-/

namespace Deflow

/-- A piece of source text. -/
abbrev Text := List Char

namespace Text

/-- The number of bytes of a text in UTF-8. -/
def byteLength (text : Text) : Nat :=
  text.foldl (fun total c => total + c.utf8Size) 0

theorem foldl_utf8Size (total : Nat) (text : Text) :
    text.foldl (fun total c => total + c.utf8Size) total = total + text.byteLength := by
  unfold byteLength
  induction text generalizing total with
  | nil => simp
  | cons c text inductionHypothesis =>
      simp only [List.foldl_cons]
      rw [inductionHypothesis, inductionHypothesis (0 + c.utf8Size)]
      omega

@[simp]
theorem byteLength_nil : byteLength [] = 0 :=
  rfl

@[simp]
theorem byteLength_cons (c : Char) (text : Text) :
    byteLength (c :: text) = c.utf8Size + byteLength text := by
  rw [byteLength, List.foldl_cons, foldl_utf8Size, Nat.zero_add]

@[simp]
theorem byteLength_append (first second : Text) :
    byteLength (first ++ second) = byteLength first + byteLength second := by
  rw [byteLength, List.foldl_append, foldl_utf8Size]
  rfl

/-- What is left of `text` when it begins with `front`. -/
def dropFront? : (front text : Text) → Option Text
  | [], text => some text
  | _ :: _, [] => none
  | f :: front, c :: text => if f = c then dropFront? front text else none

theorem dropFront?_eq_some_iff {front text rest : Text} :
    dropFront? front text = some rest ↔ text = front ++ rest := by
  fun_induction dropFront? front text with
  | case1 text => simp
  | case2 => simp
  | case3 front c text inductionHypothesis => simpa using inductionHypothesis
  | case4 f front c text different =>
      simp only [List.cons_append, List.cons.injEq, reduceCtorEq, false_iff, not_and]
      exact fun same => absurd same.symm different

/-- What is left of `text` when it ends with `back`. -/
def dropBack? (back text : Text) : Option Text :=
  (dropFront? back.reverse text.reverse).map List.reverse

theorem dropBack?_eq_some_iff {back text rest : Text} :
    dropBack? back text = some rest ↔ text = rest ++ back := by
  simp only [dropBack?, Option.map_eq_some_iff, dropFront?_eq_some_iff]
  constructor
  · rintro ⟨reversed, spelled, rfl⟩
    simpa using congrArg List.reverse spelled
  · rintro rfl
    exact ⟨rest.reverse, by simp, by simp⟩

/-- Whether `part` occurs somewhere in `text`. -/
def hasPart (part : Text) : Text → Bool
  | [] => part.isEmpty
  | c :: text => part.isPrefixOf (c :: text) || hasPart part text

/-- The pieces of a text between the occurrences of `mark`. There is always at
least one. -/
def splitAt (mark : Char) : Text → List Text
  | [] => [[]]
  | c :: text =>
    if c = mark then
      [] :: splitAt mark text
    else
      match splitAt mark text with
      | [] => [[c]]
      | piece :: pieces => (c :: piece) :: pieces

/-- Pieces put together again with `mark` between them. -/
def joinWith (mark : Text) : List Text → Text
  | [] => []
  | [piece] => piece
  | piece :: pieces => piece ++ mark ++ joinWith mark pieces

theorem splitAt_ne_nil (mark : Char) (text : Text) : splitAt mark text ≠ [] := by
  fun_induction splitAt mark text <;> simp

/-- Splitting loses nothing but the marks. -/
@[simp]
theorem joinWith_splitAt (mark : Char) (text : Text) :
    joinWith [mark] (splitAt mark text) = text := by
  fun_induction splitAt mark text with
  | case1 => rfl
  | case2 text inductionHypothesis =>
      cases pieces : splitAt mark text with
      | nil => exact absurd pieces (splitAt_ne_nil mark text)
      | cons piece rest => simpa [joinWith, pieces] using inductionHypothesis
  | case3 c text _ pieces => exact absurd pieces (splitAt_ne_nil mark text)
  | case4 c text _ piece rest pieces inductionHypothesis =>
      rw [pieces] at inductionHypothesis
      cases rest with
      | nil => simpa [joinWith] using inductionHypothesis
      | cons next rest => simpa [joinWith] using inductionHypothesis

end Text

end Deflow
