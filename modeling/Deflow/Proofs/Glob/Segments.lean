import Deflow.Proofs.Glob.Regex
import Deflow.Proofs.Path.Components

/-!
# Patterns and the segments of paths

A pattern without two stars in a row matches segment by segment: it has as many segments
as the path, and each of them stands for the segment of the path at its place.  A pattern
for a directory, the name between two stars on both sides, matches the paths on which the
name is a segment.  The regular expression of a pattern matches the same paths.
-/

namespace Deflow.Glob

open Computability

/-! ## Segment by segment -/

/-- A pattern stands for a text: a star for characters other than a slash, a question
mark for one such character, and every other character for itself. -/
inductive StandsFor : (pattern text : Text) → Prop
  | nil : StandsFor [] []
  | star {pattern text inner : Text} (inSegment : '/' ∉ inner) (behind : StandsFor pattern text) :
      StandsFor ('*' :: pattern) (inner ++ text)
  | question {pattern text : Text} {c : Char} (inSegment : c ≠ '/')
      (behind : StandsFor pattern text) :
      StandsFor ('?' :: pattern) (c :: text)
  | literal {pattern text : Text} {c : Char} (notStar : c ≠ '*') (notQuestion : c ≠ '?')
      (behind : StandsFor pattern text) : StandsFor (c :: pattern) (c :: text)

namespace StandsFor

theorem append {first second text more : Text} (stands : StandsFor first text)
    (behind : StandsFor second more) : StandsFor (first ++ second) (text ++ more) := by
  induction stands with
  | nil => exact behind
  | star inSegment _ inductionHypothesis =>
      rw [List.append_assoc]
      exact .star inSegment inductionHypothesis
  | question inSegment _ inductionHypothesis => exact .question inSegment inductionHypothesis
  | literal notStar notQuestion _ inductionHypothesis =>
      exact .literal notStar notQuestion inductionHypothesis

/-- What stands within one segment belongs to the first segments. -/
theorem forall₂_splitAt_append {first inner pattern text : Text} (stands : StandsFor first inner)
    (inPattern : '/' ∉ first) (inSegment : '/' ∉ inner)
    (segments : List.Forall₂ StandsFor (Text.splitAt '/' pattern) (Text.splitAt '/' text)) :
    List.Forall₂ StandsFor (Text.splitAt '/' (first ++ pattern))
      (Text.splitAt '/' (inner ++ text)) := by
  cases ofPattern : Text.splitAt '/' pattern with
  | nil => exact absurd ofPattern (Text.splitAt_ne_nil '/' pattern)
  | cons segment others =>
      cases ofText : Text.splitAt '/' text with
      | nil => exact absurd ofText (Text.splitAt_ne_nil '/' text)
      | cons piece pieces =>
          rw [ofPattern, ofText] at segments
          rw [Text.splitAt_append_of_notMem inPattern ofPattern,
            Text.splitAt_append_of_notMem inSegment ofText]
          rcases List.forall₂_cons.mp segments with ⟨here, later⟩
          exact .cons (stands.append here) later

/-- A pattern and a text that it stands for have segments that do so one by one. -/
theorem forall₂_splitAt {pattern text : Text} (stands : StandsFor pattern text) :
    List.Forall₂ StandsFor (Text.splitAt '/' pattern) (Text.splitAt '/' text) := by
  induction stands with
  | nil => exact .cons .nil .nil
  | @star pattern text inner inSegment _ inductionHypothesis =>
      have alone : StandsFor ['*'] inner := by simpa using star inSegment .nil
      exact alone.forall₂_splitAt_append (by decide) inSegment inductionHypothesis
  | @question pattern text c inSegment _ inductionHypothesis =>
      have alone : StandsFor ['?'] [c] := question inSegment .nil
      exact alone.forall₂_splitAt_append (by decide)
        (by simpa using inSegment.symm) inductionHypothesis
  | @literal pattern text c notStar notQuestion _ inductionHypothesis =>
      by_cases isSlash : c = '/'
      · subst isSlash
        rw [Path.splitAt_slash_cons, Path.splitAt_slash_cons]
        exact .cons .nil inductionHypothesis
      · have alone : StandsFor [c] [c] := literal notStar notQuestion .nil
        have inSegment : '/' ∉ [c] := by simpa using Ne.symm isSlash
        exact alone.forall₂_splitAt_append inSegment inSegment inductionHypothesis

theorem joinWith {patterns texts : List Text} (segments : List.Forall₂ StandsFor patterns texts) :
    StandsFor (Text.joinWith ['/'] patterns) (Text.joinWith ['/'] texts) := by
  have slash : StandsFor ['/'] ['/'] := literal (by decide) (by decide) .nil
  induction segments with
  | nil => exact .nil
  | cons here later inductionHypothesis =>
      cases later with
      | nil => exact here
      | cons next others => exact (here.append slash).append inductionHypothesis

/-- A pattern stands for a text exactly if it does so segment by segment. -/
theorem iff_forall₂_splitAt {pattern text : Text} :
    StandsFor pattern text ↔
      List.Forall₂ StandsFor (Text.splitAt '/' pattern) (Text.splitAt '/' text) := by
  constructor
  · exact forall₂_splitAt
  · intro segments
    simpa using joinWith segments

end StandsFor

namespace PathPart

/-- The part that a character of a pattern is if it is not one of two stars. -/
def ofChar (c : Char) : PathPart :=
  if c = '*' then .segmentText
  else if c = '?' then .segmentChar
  else .literal c

theorem read_eq_map {pattern : Text} (single : ¬['*', '*'] <:+: pattern) (segmentStart : Bool) :
    read segmentStart pattern = pattern.map ofChar := by
  have behind {c : Char} {rest : Text} (single : ¬['*', '*'] <:+: c :: rest) :
      ¬['*', '*'] <:+: rest :=
    fun inside => single (inside.trans (List.suffix_cons c rest).isInfix)
  fun_induction read segmentStart pattern with
  | case1 => rfl
  | case2 => exact absurd ⟨['/'], [], rfl⟩ single
  | case3 => exact absurd ⟨[], _, rfl⟩ single
  | case4 => exact absurd ⟨[], _, rfl⟩ single
  | case5 => exact absurd ⟨[], _, rfl⟩ single
  | case6 _ rest _ _ inductionHypothesis => rw [inductionHypothesis (behind single)]; rfl
  | case7 _ rest inductionHypothesis => rw [inductionHypothesis (behind single)]; rfl
  | case8 _ c rest _ _ _ notStar notQuestion inductionHypothesis =>
      rw [inductionHypothesis (behind single), List.map_cons, ofChar, if_neg notStar,
        if_neg notQuestion]

end PathPart

/-- The texts that the characters of a pattern stand for are the words of its parts. -/
theorem standsFor_iff_mem {pattern text : Text} :
    StandsFor pattern text ↔ text ∈ PathPart.languageOf (pattern.map PathPart.ofChar) := by
  constructor
  · intro stands
    induction stands with
    | nil => exact Language.nil_mem_one
    | star inSegment _ inductionHypothesis =>
        refine Language.append_mem_mul (mem_kstar_oneOf.mpr ?_) inductionHypothesis
        intro c member
        simpa using ne_of_mem_of_not_mem member inSegment
    | question inSegment _ inductionHypothesis =>
        exact cons_mem_oneOf_mul.mpr ⟨by simpa using inSegment, inductionHypothesis⟩
    | literal notStar notQuestion _ inductionHypothesis =>
        rw [List.map_cons, PathPart.languageOf_cons, PathPart.ofChar, if_neg notStar,
          if_neg notQuestion]
        exact cons_mem_oneOf_mul.mpr ⟨by simp, inductionHypothesis⟩
  · intro isWord
    induction pattern generalizing text with
    | nil =>
        obtain rfl : text = [] := isWord
        exact .nil
    | cons c pattern inductionHypothesis =>
        rw [List.map_cons, PathPart.languageOf_cons, PathPart.ofChar] at isWord
        rcases Language.mem_mul.mp isWord with ⟨word, isPart, rest, isRest, rfl⟩
        have behind := inductionHypothesis isRest
        split at isPart
        · rename_i isStar
          subst isStar
          refine .star ?_ behind
          intro slash
          simpa using mem_kstar_oneOf.mp isPart '/' slash
        · rename_i notStar
          split at isPart
          · rename_i isQuestion
            subst isQuestion
            rcases isPart with ⟨d, inSegment, rfl⟩
            exact .question (by simpa using inSegment) behind
          · rename_i notQuestion
            rcases isPart with ⟨d, same, rfl⟩
            obtain rfl : d = c := by simpa using same
            exact .literal notStar notQuestion behind

/-- A pattern without two stars in a row, and so its regular expression, matches a path
exactly if the two have the same number of segments and each segment of the pattern stands for
the one of the path. -/
theorem accepts_iff_segments (pattern : PathPattern) (single : ¬['*', '*'] <:+: pattern.text)
    (path : Text) :
    (pattern.accepts path = true ↔
      List.Forall₂ StandsFor (Text.splitAt '/' pattern.text) (Text.splitAt '/' path)) ∧
      (Regex.Matches pattern.regex path ↔
        List.Forall₂ StandsFor (Text.splitAt '/' pattern.text) (Text.splitAt '/' path)) := by
  rw [pattern.matches_regex_iff, pattern.accepts_iff, PathPattern.parts,
    PathPart.read_eq_map single, ← standsFor_iff_mem, StandsFor.iff_forall₂_splitAt]
  exact ⟨.rfl, .rfl⟩

/-- Stars stand for a line break and for nothing, and a dot and brackets for themselves. -/
theorem accepts_iff_segments_line_break :
    let pattern := PathPattern.mk "[*.j?/*/".toList
    let path := "[\n.js//".toList
    ¬['*', '*'] <:+: pattern.text ∧ pattern.accepts path = true ∧
      List.Forall₂ StandsFor ["[*.j?".toList, "*".toList, []] ["[\n.js".toList, [], []] ∧
      pattern.regex = "^\\[[^/]*\\.j[^/]/[^/]*/$".toList ∧ Regex.Matches pattern.regex path := by
  intro pattern path
  have single : ¬['*', '*'] <:+: pattern.text := by decide
  have accepted : pattern.accepts path = true := by decide
  rcases accepts_iff_segments pattern single path with ⟨accepts_iff, matches_iff⟩
  have segments := accepts_iff.mp accepted
  exact ⟨single, accepted, segments, by decide, matches_iff.mpr segments⟩

/-! ## Directories by name -/

namespace PathPart

theorem read_literal_append {name : Text} (noSlash : '/' ∉ name) (noStar : '*' ∉ name)
    (noQuestion : '?' ∉ name) (segmentStart : Bool) :
    read segmentStart (name ++ ['/', '*', '*']) = name.map .literal ++ [.subtree] := by
  induction name generalizing segmentStart with
  | nil => rfl
  | cons c name inductionHypothesis =>
      simp only [List.mem_cons, not_or] at noSlash noStar noQuestion
      rw [List.cons_append, read, inductionHypothesis noSlash.2 noStar.2 noQuestion.2]
      · rfl
      all_goals grind

/-- Characters that stand for themselves spell one word. -/
theorem mem_languageOf_literal {name text : Text} :
    text ∈ languageOf (name.map .literal) ↔ text = name := by
  induction name generalizing text with
  | nil => exact Iff.rfl
  | cons c name inductionHypothesis =>
      rw [List.map_cons, languageOf_cons]
      cases text with
      | nil => simp [language, nil_notMem_oneOf_mul]
      | cons d text =>
          rw [language, cons_mem_oneOf_mul, inductionHypothesis, List.cons.injEq, beq_iff_eq]

theorem mem_oneLine {text : Text} (oneLine : '\n' ∉ text) : text ∈ (oneOf (· != '\n'))∗ := by
  rw [mem_kstar_oneOf]
  intro c member
  simpa using ne_of_mem_of_not_mem member oneLine

theorem mem_leadingFolders {text : Text} (oneLine : '\n' ∉ text) :
    text ∈ leadingFolders.language ↔ text = [] ∨ ∃ before, text = before ++ ['/'] := by
  rw [language, Language.mem_add, Language.mem_one, Language.mem_mul]
  refine or_congr_right ?_
  constructor
  · rintro ⟨before, _, _, ⟨c, isSlash, rfl⟩, rfl⟩
    obtain rfl : c = '/' := by simpa using isSlash
    exact ⟨before, rfl⟩
  · rintro ⟨before, rfl⟩
    rw [List.mem_append, not_or] at oneLine
    exact ⟨before, mem_oneLine oneLine.1, ['/'], ⟨'/', rfl, rfl⟩, rfl⟩

theorem mem_subtree {text : Text} (oneLine : '\n' ∉ text) :
    text ∈ subtree.language ↔ text = [] ∨ ∃ behind, text = '/' :: behind := by
  rw [language, Language.mem_add, Language.mem_one]
  refine or_congr_right ?_
  constructor
  · intro isWord
    rcases Language.mem_mul.mp isWord with ⟨_, ⟨c, isSlash, rfl⟩, behind, _, rfl⟩
    obtain rfl : c = '/' := by simpa using isSlash
    exact ⟨behind, rfl⟩
  · rintro ⟨behind, rfl⟩
    rw [List.mem_cons, not_or] at oneLine
    exact cons_mem_oneOf_mul.mpr ⟨rfl, mem_oneLine oneLine.2⟩

/-- The parts of the pattern for a directory stand for the paths that have its name among
their segments. -/
theorem mem_languageOf_directory {name path : Text} (noSlash : '/' ∉ name) (oneLine : '\n' ∉ path) :
    path ∈ languageOf ([.leadingFolders] ++ name.map .literal ++ [.subtree]) ↔
      name ∈ Text.splitAt '/' path := by
  rw [Text.mem_splitAt_iff, languageOf_append, languageOf_append]
  simp only [languageOf_cons, languageOf_nil, mul_one]
  constructor
  · intro isWord
    rcases Language.mem_mul.mp isWord with ⟨_, inFront, back, isBack, rfl⟩
    rcases Language.mem_mul.mp inFront with ⟨front, isFront, word, isName, rfl⟩
    obtain rfl := mem_languageOf_literal.mp isName
    simp only [List.mem_append, not_or] at oneLine
    exact ⟨noSlash, front, back, rfl, (mem_leadingFolders oneLine.1.1).mp isFront,
      (mem_subtree oneLine.2).mp isBack⟩
  · rintro ⟨_, front, back, rfl, isFront, isBack⟩
    simp only [List.mem_append, not_or] at oneLine
    have isName : name ∈ languageOf (name.map .literal) := mem_languageOf_literal.mpr rfl
    exact Language.append_mem_mul
      (Language.append_mem_mul ((mem_leadingFolders oneLine.1.1).mpr isFront) isName)
      ((mem_subtree oneLine.2).mpr isBack)

end PathPart

/-- The pattern for a directory, and so its regular expression, matches a path on one line
exactly if the name of the directory is one of the segments of the path. -/
theorem accepts_directory_iff {name path : Text} (noSlash : '/' ∉ name) (noStar : '*' ∉ name)
    (noQuestion : '?' ∉ name) (oneLine : '\n' ∉ path) :
    ((PathPattern.mk ("**/".toList ++ name ++ "/**".toList)).accepts path = true ↔
      name ∈ Text.splitAt '/' path) ∧
      (Regex.Matches (PathPattern.mk ("**/".toList ++ name ++ "/**".toList)).regex path ↔
        name ∈ Text.splitAt '/' path) := by
  have parts : (PathPattern.mk ("**/".toList ++ name ++ "/**".toList)).parts =
      [.leadingFolders] ++ name.map .literal ++ [.subtree] := by
    rw [List.append_assoc]
    exact congrArg (.leadingFolders :: ·)
      (PathPart.read_literal_append noSlash noStar noQuestion true)
  rw [PathPattern.matches_regex_iff, PathPattern.accepts_iff, parts,
    PathPart.mem_languageOf_directory noSlash oneLine]
  exact ⟨.rfl, .rfl⟩

/-- A name with characters that mean something in regular expressions, behind an empty
segment and one that only begins with it. -/
theorem accepts_directory_iff_plus :
    let name := "a+(b".toList
    let path := "/a+(b.js//a+(b".toList
    let pattern := PathPattern.mk "**/a+(b/**".toList
    ('/' ∉ name ∧ '*' ∉ name ∧ '?' ∉ name ∧ '\n' ∉ path) ∧ name ∈ Text.splitAt '/' path ∧
      pattern.accepts path = true ∧ pattern.regex = "^(?:.*/)?a\\+\\(b(?:/.*)?$".toList ∧
      Regex.Matches pattern.regex path := by
  intro name path pattern
  have isSegment : name ∈ Text.splitAt '/' path := by decide
  rcases @accepts_directory_iff name path (by decide) (by decide) (by decide) (by decide) with
    ⟨accepts_iff, matches_iff⟩
  exact ⟨by decide, isSegment, accepts_iff.mpr isSegment, by decide, matches_iff.mpr isSegment⟩

end Deflow.Glob
