import Deflow.Proofs.Text.Stretches
import Deflow.Text.Position
import Mathlib.Data.List.Infix
import Mathlib.Data.Prod.Lex
import Mathlib.Order.Bounds.Basic

/-!
# Positions and offsets

The boundaries of a text are the byte offsets at which its characters begin and its end.
The position at an offset is that of the last boundary up to the offset: its line counts
the line feeds in front of the boundary, its column the characters of the last line.
Every character moves the position on, so positions are in the order of the boundaries.
-/

namespace Deflow

/-- A byte offset at which a character of the text begins, or the text ends. -/
def Text.IsBoundary (text : Text) (offset : Nat) : Prop :=
  ∃ front rest, text = front ++ rest ∧ front.byteLength = offset

theorem Text.isBoundary_iff_mem_inits {text : Text} {offset : Nat} :
    text.IsBoundary offset ↔ offset ∈ text.inits.map Text.byteLength := by
  simp only [IsBoundary, List.mem_map, List.mem_inits]
  constructor
  · rintro ⟨front, rest, rfl, isLength⟩
    exact ⟨front, List.prefix_append front rest, isLength⟩
  · rintro ⟨front, ⟨rest, spelled⟩, isLength⟩
    exact ⟨front, rest, spelled.symm, isLength⟩

instance (text : Text) (offset : Nat) : Decidable (text.IsBoundary offset) :=
  decidable_of_iff _ Text.isBoundary_iff_mem_inits.symm

/-- The shorter of two fronts of a text, in bytes, is a front of the longer one. -/
theorem Text.isPrefix_of_byteLength_lt {text first second : Text} (isFirst : first <+: text)
    (isSecond : second <+: text) (shorter : first.byteLength < second.byteLength) :
    ∃ c rest, second = first ++ c :: rest := by
  rcases List.prefix_or_prefix_of_prefix isFirst isSecond with ⟨rest, rfl⟩ | ⟨rest, rfl⟩
  · cases rest with
    | nil => simp at shorter
    | cons c rest => exact ⟨c, rest, rfl⟩
  · rw [byteLength_append] at shorter
    omega

namespace Position

/-- The place of a position in reading order: by line, then by column. -/
def rank (position : Position) : ℕ ×ₗ ℕ :=
  toLex (position.line, position.column)

theorem rank_lt_rank_iff {first second : Position} :
    first.rank < second.rank ↔
      first.line < second.line ∨ first.line = second.line ∧ first.column < second.column :=
  Prod.Lex.toLex_lt_toLex

/-- Every character moves the position on. -/
theorem rank_lt_rank_advance (position : Position) (c : Char) :
    position.rank < (position.advance c).rank := by
  rw [rank_lt_rank_iff]
  by_cases breaks : c = '\n'
  · exact .inl (by rw [advance, if_pos breaks]; exact Nat.lt_succ_self _)
  · exact .inr (by rw [advance, if_neg breaks]; exact ⟨rfl, Nat.lt_succ_self _⟩)

theorem rank_le_rank_after (position : Position) (text : Text) :
    position.rank ≤ (position.after text).rank := by
  induction text generalizing position with
  | nil => exact le_rfl
  | cons c text inductionHypothesis =>
      exact (position.rank_lt_rank_advance c).le.trans (inductionHypothesis (position.advance c))

/-- The position behind a text counts its line feeds and the characters of its last line. -/
theorem start_after (text : Text) :
    start.after text = ⟨text.count '\n' + 1, (lastLine text).length + 1⟩ := by
  induction text using List.reverseRecOn with
  | nil => rfl
  | append_singleton text c inductionHypothesis =>
      rw [after_append, inductionHypothesis, after_cons, after_nil, advance]
      by_cases breaks : c = '\n'
      · subst breaks
        rw [if_pos rfl, lastLine_append_of_mem (List.mem_singleton_self _)]
        simp [lastLine, List.rtakeWhile]
      · rw [if_neg breaks, lastLine_append_line (by simpa using Ne.symm breaks)]
        simp [breaks]

/-- The position at an offset is the one behind the longest front of the text that ends
at the offset or in front of it. -/
theorem exists_atOffset_eq (position : Position) (text : Text) (offset : Nat) :
    ∃ front rest, text = front ++ rest ∧ front.byteLength ≤ offset ∧
      (∀ c ∈ rest.head?, offset < front.byteLength + c.utf8Size) ∧
        position.atOffset text offset = position.after front := by
  fun_induction atOffset position text offset with
  | case1 position offset => exact ⟨[], [], rfl, Nat.zero_le _, by simp, rfl⟩
  | case2 position c text offset fits inductionHypothesis =>
      rcases inductionHypothesis with ⟨front, rest, rfl, within, next, isAfter⟩
      refine ⟨c :: front, rest, rfl, ?_, ?_, isAfter⟩
      · rw [Text.byteLength_cons]
        omega
      · intro d isNext
        have := next d isNext
        rw [Text.byteLength_cons]
        omega
  | case3 position c text offset short =>
      refine ⟨[], c :: text, rfl, Nat.zero_le _, ?_, rfl⟩
      intro d isNext
      cases isNext
      simpa using short

/-- No boundary up to an offset lies behind a front if the next character does not fit. -/
theorem isGreatest_boundary {front rest : Text} {offset : Nat} (within : front.byteLength ≤ offset)
    (next : ∀ c ∈ rest.head?, offset < front.byteLength + c.utf8Size) :
    IsGreatest
      {boundary | (front ++ rest).IsBoundary boundary ∧
        boundary ≤ min offset (front ++ rest).byteLength}
      front.byteLength := by
  constructor
  · refine ⟨⟨front, rest, rfl, rfl⟩, le_min within ?_⟩
    rw [Text.byteLength_append]
    exact Nat.le_add_right ..
  · rintro _ ⟨⟨other, behind, spelled, rfl⟩, upTo⟩
    by_contra longer
    rcases Text.isPrefix_of_byteLength_lt (List.prefix_append front rest) ⟨behind, spelled.symm⟩
      (Nat.lt_of_not_le longer) with ⟨c, more, rfl⟩
    -- A longer front has the character that does not fit.
    rw [List.append_assoc, List.append_cancel_left_eq] at spelled
    have beyond := next c (by rw [spelled]; rfl)
    have upTo := upTo.trans (min_le_left ..)
    rw [Text.byteLength_append, Text.byteLength_cons] at upTo
    omega

/-- The position at the offset behind a character of a text. -/
theorem ofOffset_next (front : Text) (c : Char) (rest : Text) :
    ofOffset (front ++ c :: rest) (front.byteLength + c.utf8Size) =
      (start.after front).advance c := by
  have spelled : front ++ c :: rest = (front ++ [c]) ++ rest := List.append_cons ..
  have isLength : front.byteLength + c.utf8Size = Text.byteLength (front ++ [c]) := by simp
  rw [spelled, isLength, ofOffset_append, after_append, after_cons, after_nil]

theorem strictMonoOn_rank (source : Text) :
    StrictMonoOn (fun offset => (ofOffset source offset).rank)
      {boundary | source.IsBoundary boundary} := by
  rintro _ ⟨first, behind, rfl, rfl⟩ _ ⟨second, rest, spelled, rfl⟩ earlier
  rcases Text.isPrefix_of_byteLength_lt (List.prefix_append first behind) ⟨rest, spelled.symm⟩
    earlier with ⟨c, between, rfl⟩
  calc
    (ofOffset (first ++ behind) first.byteLength).rank = (start.after first).rank := by
      rw [ofOffset_append]
    _ < ((start.after first).advance c).rank := rank_lt_rank_advance ..
    _ ≤ (((start.after first).advance c).after between).rank := rank_le_rank_after ..
    _ = (ofOffset (first ++ behind) (Text.byteLength (first ++ c :: between))).rank := by
      rw [spelled, ofOffset_append, after_append, after_cons]

/-- Positions are faithful to offsets.  Later boundaries have later positions; the position
at any offset is that of the greatest boundary up to the offset and the end, in the line
and the column that are counted in front of it; and each character moves on by one column
or, if it is a line feed, to the beginning of the next line. -/
theorem ofOffset_follows_boundaries (source : Text) :
    StrictMonoOn (fun offset => (ofOffset source offset).rank)
      {boundary | source.IsBoundary boundary} ∧
      (∀ offset, ∃ front rest, source = front ++ rest ∧
        IsGreatest {boundary | source.IsBoundary boundary ∧ boundary ≤ min offset source.byteLength}
          front.byteLength ∧
        ofOffset source offset = ofOffset source front.byteLength ∧
        ofOffset source offset = ⟨front.count '\n' + 1, (lastLine front).length + 1⟩) ∧
      ∀ (front : Text) (c : Char) (rest : Text), source = front ++ c :: rest →
        ofOffset source (front.byteLength + c.utf8Size) =
          if c = '\n' then ⟨(ofOffset source front.byteLength).line + 1, 1⟩
          else ⟨(ofOffset source front.byteLength).line,
            (ofOffset source front.byteLength).column + 1⟩ := by
  refine ⟨strictMonoOn_rank source, ?_, ?_⟩
  · intro offset
    rcases exists_atOffset_eq start source offset with ⟨front, rest, rfl, within, next, isAfter⟩
    refine ⟨front, rest, rfl, isGreatest_boundary within next, ?_, ?_⟩
    · rw [ofOffset_append]
      exact isAfter
    · rw [← start_after]
      exact isAfter
  · rintro front c rest rfl
    rw [ofOffset_next, ofOffset_append]
    rfl

/-- Behind a line feed, an offset inside a character of three bytes is that of the
character, and the next character stands one column further. -/
theorem ofOffset_follows_boundaries_inside :
    let source : Text := "é\n€x".toList
    (source.IsBoundary 3 ∧ ¬source.IsBoundary 5 ∧ source.IsBoundary 6) ∧
      (ofOffset source 3).rank < (ofOffset source 6).rank ∧
      ofOffset source 5 = ofOffset source 3 ∧
      ofOffset source 6 = ⟨(ofOffset source 3).line, (ofOffset source 3).column + 1⟩ := by
  intro source
  have first : source.IsBoundary 3 := by decide
  have second : source.IsBoundary 6 := by decide
  have inside : ¬source.IsBoundary 5 := by decide
  rcases ofOffset_follows_boundaries source with ⟨increases, _, advances⟩
  exact ⟨⟨first, inside, second⟩, increases first second (by decide), by decide,
    advances "é\n".toList '€' ['x'] rfl⟩

end Position

end Deflow
