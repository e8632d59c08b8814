import Deflow.Proofs.Glob.Segments

/-!
# Reading a pattern back from its regular expression

The regular expressions of the parts of a pattern follow each other without any mark in
between.  They can be told apart all the same: a character that means something is written
bare only where a wildcard begins, and the one wildcard that begins as another does goes on
with a star, with which no part begins.  So there is one way to take a regular expression
apart, and the parts spell the pattern.
-/

namespace Deflow.Glob

namespace PathPart

variable {part : PathPart} {parts : List PathPart} {c : Char} {text rest : Text}

/-! ## One part -/

/-- The parts other than characters.  One that goes on where another ends comes first. -/
def wildcards : List PathPart :=
  [.subtree, .leadingFolders, .anyText, .segmentText, .segmentChar]

/-- The part that a regular expression begins with, and what stands behind it. -/
def next? : Text → Option (PathPart × Text)
  | [] => none
  | '\\' :: c :: rest => if isMeta c then some (.literal c, rest) else none
  | c :: rest =>
    if isMeta c then
      wildcards.findSome? fun part => (Text.dropFront? part.regex (c :: rest)).map (part, ·)
    else
      some (.literal c, rest)

theorem regex_ne_nil (part : PathPart) : part.regex ≠ [] := by
  cases part with
  | literal c =>
      by_cases means : isMeta c = true
      · rw [regex_literal_of_meta means]
        exact List.cons_ne_nil _ _
      · rw [regex_literal_of_plain means]
        exact List.cons_ne_nil _ _
  | _ => decide

/-- No part begins with a bare star. -/
theorem head?_regex_ne_star (part : PathPart) : part.regex.head? ≠ some '*' := by
  cases part with
  | literal c =>
      by_cases means : isMeta c = true
      · rw [regex_literal_of_meta means]
        exact fun isStar => absurd (Option.some.inj isStar) (by decide)
      · rw [regex_literal_of_plain means]
        rintro ⟨⟩
        exact means (by decide)
  | _ => decide

theorem eq_of_next? (found : next? text = some (part, rest)) : text = part.regex ++ rest := by
  fun_cases next? text with
  | case1 => cases found
  | case2 c behind means =>
      rw [next?, if_pos means] at found
      cases found
      rw [regex_literal_of_meta means]
      rfl
  | case3 c behind plain =>
      rw [next?, if_neg plain] at found
      cases found
  | case4 c behind noEscape means =>
      rw [next?, if_pos means] at found
      · rcases List.exists_of_findSome?_eq_some found with ⟨wildcard, _, begins⟩
        rcases Option.map_eq_some_iff.mp begins with ⟨other, isFront, same⟩
        cases same
        exact Text.dropFront?_eq_some_iff.mp isFront
      · exact noEscape
  | case5 c behind noEscape plain =>
      rw [next?, if_neg plain] at found
      · cases found
        rw [regex_literal_of_plain plain]
        rfl
      · exact noEscape

theorem length_lt_of_next? (found : next? text = some (part, rest)) :
    rest.length < text.length := by
  have positive := List.length_pos_of_ne_nil part.regex_ne_nil
  rw [eq_of_next? found, List.length_append]
  omega

/-- One character of a segment is not taken for any number of them. -/
theorem dropFront?_segmentText (noStar : rest.head? ≠ some '*') :
    Text.dropFront? segmentText.regex (segmentChar.regex ++ rest) = none := by
  cases rest with
  | nil => rfl
  | cons c rest =>
      have notStar : '*' ≠ c := fun same => noStar (congrArg some same.symm)
      exact if_neg notStar

/-- A part is found in front of anything but a bare star. -/
theorem next?_append (part : PathPart) (noStar : rest.head? ≠ some '*') :
    next? (part.regex ++ rest) = some (part, rest) := by
  cases part with
  | literal c =>
      by_cases means : isMeta c = true
      · rw [regex_literal_of_meta means]
        exact if_pos means
      · rw [regex_literal_of_plain means, List.singleton_append, next?, if_neg means]
        rintro d behind rfl
        exact absurd (by decide) means
  | segmentChar =>
      have others : ∀ part ∈ [subtree, leadingFolders, anyText],
          Text.dropFront? part.regex (segmentChar.regex ++ rest) = none := by
        simp only [List.forall_mem_cons]
        exact ⟨rfl, rfl, rfl, by simp⟩
      have itself : Text.dropFront? segmentChar.regex (segmentChar.regex ++ rest) = some rest :=
        Text.dropFront?_eq_some_iff.mpr rfl
      show wildcards.findSome? (fun part =>
        (Text.dropFront? part.regex (segmentChar.regex ++ rest)).map (part, ·)) = _
      simp [wildcards, others, dropFront?_segmentText noStar, itself]
  | segmentText | anyText | leadingFolders | subtree => rfl

/-! ## All parts -/

theorem head?_flatMap_regex_ne_star (parts : List PathPart) :
    (parts.flatMap regex).head? ≠ some '*' := by
  cases parts with
  | nil => decide
  | cons part parts =>
      rw [List.flatMap_cons, List.head?_append_of_ne_nil _ part.regex_ne_nil]
      exact part.head?_regex_ne_star

/-- The parts that a regular expression is made of, read from the front. -/
def ofRegex? (text : Text) : Option (List PathPart) :=
  if text = [] then
    some []
  else
    match _found : next? text with
    | none => none
    | some (part, rest) => (ofRegex? rest).map (part :: ·)
termination_by text.length
decreasing_by exact length_lt_of_next? _found

theorem ofRegex?_nil : ofRegex? [] = some [] := by
  rw [ofRegex?, if_pos rfl]

theorem ofRegex?_of_next? (found : next? text = some (part, rest)) :
    ofRegex? text = (ofRegex? rest).map (part :: ·) := by
  have filled : text ≠ [] := by
    rintro rfl
    cases found
  rw [ofRegex?, if_neg filled]
  split
  · rename_i missed
    rw [missed] at found
    cases found
  · rename_i other behind alsoFound
    rw [alsoFound] at found
    cases found
    rfl

/-- A regular expression is read as the parts that it is made of, and as nothing else. -/
theorem ofRegex?_eq_some_iff : ofRegex? text = some parts ↔ text = parts.flatMap regex := by
  constructor
  · intro read
    fun_induction ofRegex? text generalizing parts with
    | case1 =>
        cases read
        rfl
    | case2 => cases read
    | case3 text _ part rest found inductionHypothesis =>
        rcases Option.map_eq_some_iff.mp read with ⟨others, readRest, rfl⟩
        rw [eq_of_next? found, inductionHypothesis readRest, List.flatMap_cons]
  · rintro rfl
    induction parts with
    | nil => exact ofRegex?_nil
    | cons part parts inductionHypothesis =>
        have found := part.next?_append (head?_flatMap_regex_ne_star parts)
        rw [List.flatMap_cons, ofRegex?_of_next? found, inductionHypothesis]
        rfl

/-- No two lists of parts have the same regular expression. -/
theorem flatMap_regex_injective : Function.Injective (List.flatMap regex) := by
  intro first second same
  have readFirst := ofRegex?_eq_some_iff.mpr (rfl : first.flatMap regex = _)
  exact Option.some.inj (readFirst.symm.trans (ofRegex?_eq_some_iff.mpr same))

/-! ## Patterns -/

/-- A part as it is written in a pattern. -/
def written : PathPart → Text
  | .literal c => [c]
  | .segmentChar => ['?']
  | .segmentText => ['*']
  | .anyText => "**".toList
  | .leadingFolders => "**/".toList
  | .subtree => "/**".toList

/-- The parts of a pattern are written as the pattern is. -/
theorem flatMap_written_read (segmentStart : Bool) (pattern : Text) :
    (read segmentStart pattern).flatMap written = pattern := by
  fun_induction read segmentStart pattern with
  | case1 => rfl
  | case2 => rfl
  | case3 rest inductionHypothesis => exact congrArg ("**/".toList ++ ·) inductionHypothesis
  | case4 _ rest _ inductionHypothesis => exact congrArg ("**".toList ++ ·) inductionHypothesis
  | case5 _ rest _ inductionHypothesis => exact congrArg ("**".toList ++ ·) inductionHypothesis
  | case6 _ rest _ _ inductionHypothesis => exact congrArg ('*' :: ·) inductionHypothesis
  | case7 _ rest inductionHypothesis => exact congrArg ('?' :: ·) inductionHypothesis
  | case8 _ c rest _ _ _ _ _ inductionHypothesis => exact congrArg (c :: ·) inductionHypothesis

end PathPart

namespace PathPattern

/-- The pattern that a regular expression for whole texts was made from. -/
def ofRegex? (regex : Text) : Option PathPattern :=
  ((Text.dropFront? ['^'] regex).bind (Text.dropBack? ['$'])).bind fun body =>
    (PathPart.ofRegex? body).map fun parts => ⟨parts.flatMap PathPart.written⟩

theorem ofRegex?_regex (pattern : PathPattern) : ofRegex? pattern.regex = some pattern := by
  have behindStart : Text.dropFront? ['^'] pattern.regex =
      some (pattern.parts.flatMap PathPart.regex ++ ['$']) :=
    Text.dropFront?_eq_some_iff.mpr (List.append_assoc ..)
  have between : Text.dropBack? ['$'] (pattern.parts.flatMap PathPart.regex ++ ['$']) =
      some (pattern.parts.flatMap PathPart.regex) :=
    Text.dropBack?_eq_some_iff.mpr rfl
  rw [ofRegex?, behindStart, Option.bind_some, between, Option.bind_some,
    PathPart.ofRegex?_eq_some_iff.mpr rfl, Option.map_some, parts, PathPart.flatMap_written_read]

/-- No two patterns have the same regular expression.  What stands between its anchors can
be cut into regular expressions of parts in one way only: as the parts of the pattern, of
which the characters stay characters, and which are written as the pattern is. -/
theorem regex_reads_back :
    Function.Injective PathPattern.regex ∧
      ∀ pattern : PathPattern, ∃ body,
        pattern.regex = ['^'] ++ body ++ ['$'] ∧
        (∀ parts, parts.flatMap PathPart.regex = body ↔ parts = pattern.parts) ∧
        PathPart.ofRegex? body = some pattern.parts ∧
        pattern.parts.flatMap PathPart.written = pattern.text ∧
        ofRegex? pattern.regex = some pattern := by
  constructor
  · intro first second same
    have readFirst := ofRegex?_regex first
    rw [same, ofRegex?_regex second] at readFirst
    exact (Option.some.inj readFirst).symm
  · intro pattern
    refine ⟨pattern.parts.flatMap PathPart.regex, rfl, fun parts => ?_,
      PathPart.ofRegex?_eq_some_iff.mpr rfl, PathPart.flatMap_written_read true pattern.text,
      ofRegex?_regex pattern⟩
    exact PathPart.flatMap_regex_injective.eq_iff

/-- A pattern that is spelled as the regular expression of a wildcard. -/
example : (PathPattern.mk "(?:.*/)?".toList).regex = "^\\([^/]:\\.[^/]*/\\)[^/]$".toList := by
  decide

end PathPattern

end Deflow.Glob
