import Deflow.Proofs.Glob.Language

/-!
# Regular expressions as they are matched

A pattern is shown as a regular expression, and this is a text with a meaning of its own.  It
is read from the front: a backslash takes the meaning from the character behind it, a dot
stands for any character but a line feed, brackets for any character but one, and a star or a
question mark belongs to the character or group in front of it.  Read like that, the regular
expression of a pattern matches the paths that the pattern accepts.
-/

namespace Deflow.Glob

open Computability

/-- A regular expression. -/
inductive Regex where
  | empty
  | char (c : Char)
  /-- One character other than this. -/
  | anyBut (c : Char)
  | append (first second : Regex)
  | star (inner : Regex)
  | optional (inner : Regex)
deriving DecidableEq, Repr

namespace Regex

/-- The texts that a regular expression stands for. -/
def language : Regex → Language Char
  | .empty => 1
  | .char c => oneOf (· == c)
  | .anyBut c => oneOf (· != c)
  | .append first second => first.language * second.language
  | .star inner => inner.language∗
  | .optional inner => 1 + inner.language

/-- Regular expressions one behind the other, given with the last of them first. -/
def inRow (items : List Regex) : Regex :=
  items.foldl (fun behind item => .append item behind) .empty

theorem language_inRow (items : List Regex) :
    (inRow items).language = (items.reverse.map language).prod := by
  have inFront (behind : Regex) :
      (items.foldl (fun behind item => .append item behind) behind).language =
        (items.reverse.map language).prod * behind.language := by
    induction items generalizing behind with
    | nil => exact (one_mul _).symm
    | cons item items inductionHypothesis =>
        rw [List.foldl_cons, inductionHypothesis, language, List.reverse_cons, List.map_append,
          List.prod_append, List.map_singleton, List.prod_singleton, mul_assoc]
  rw [inRow, inFront, language, mul_one]

/-- The regular expression that a text writes.  Of the innermost group, `items` have been read,
the last of them first, and `outer` of the groups around it. -/
def read (outer : List (List Regex)) (items : List Regex) : Text → Option Regex
  | [] => if outer.isEmpty then some (inRow items) else none
  | '\\' :: c :: rest =>
    if PathPart.isMeta c then read outer (.char c :: items) rest else none
  | '.' :: rest => read outer (.anyBut '\n' :: items) rest
  | '[' :: '^' :: c :: ']' :: rest =>
    if PathPart.isMeta c then none else read outer (.anyBut c :: items) rest
  | '(' :: '?' :: ':' :: rest => read (items :: outer) [] rest
  | ')' :: rest =>
    match outer with
    | [] => none
    | around :: outer => read outer (inRow items :: around) rest
  | '*' :: rest =>
    match items with
    | [] => none
    | last :: items => read outer (.star last :: items) rest
  | '?' :: rest =>
    match items with
    | [] => none
    | last :: items => read outer (.optional last :: items) rest
  | c :: rest => if PathPart.isMeta c then none else read outer (.char c :: items) rest

/-- A regular expression between anchors matches a text from end to end. -/
def Matches (regex text : Text) : Prop :=
  ∃ body expression, regex = ['^'] ++ body ++ ['$'] ∧ read [] [] body = some expression ∧
    text ∈ expression.language

end Regex

namespace PathPart

variable {c : Char}

theorem regex_literal_of_meta (means : isMeta c = true) : (literal c).regex = ['\\', c] :=
  if_pos means

theorem regex_literal_of_plain (plain : ¬isMeta c = true) : (literal c).regex = [c] :=
  if_neg plain

/-- What the regular expression of a part is read as. -/
def expression : PathPart → Regex
  | .literal c => .char c
  | .segmentChar => .anyBut '/'
  | .segmentText => .star (.anyBut '/')
  | .anyText => .star (.anyBut '\n')
  | .leadingFolders => .optional (.inRow [.char '/', .star (.anyBut '\n')])
  | .subtree => .optional (.inRow [.star (.anyBut '\n'), .char '/'])

/-- A part stands for the texts that its regular expression stands for. -/
theorem language_expression (part : PathPart) : part.expression.language = part.language := by
  cases part with
  | literal | segmentChar | segmentText | anyText => rfl
  | leadingFolders | subtree =>
      rw [expression, Regex.language, Regex.language_inRow]
      simp [Regex.language, language]

/-- The regular expression of a part is read by itself, whatever stands behind it. -/
theorem read_regex_append (part : PathPart) (outer : List (List Regex)) (items : List Regex)
    (rest : Text) :
    Regex.read outer items (part.regex ++ rest) =
      Regex.read outer (part.expression :: items) rest := by
  cases part with
  | literal c =>
      by_cases means : isMeta c = true
      · rw [regex_literal_of_meta means]
        exact if_pos means
      · rw [regex_literal_of_plain means, List.singleton_append, Regex.read, if_neg means]
        · rfl
        -- The other cases begin with characters that mean something.
        all_goals
          intros
          subst_vars
          exact absurd (by decide) means
  | segmentChar | segmentText | anyText | leadingFolders | subtree => rfl

theorem read_flatMap_regex (parts : List PathPart) (items : List Regex) :
    Regex.read [] items (parts.flatMap regex) =
      some (.inRow ((parts.map expression).reverse ++ items)) := by
  induction parts generalizing items with
  | nil => rfl
  | cons part parts inductionHypothesis =>
      rw [List.flatMap_cons, read_regex_append, inductionHypothesis, List.map_cons,
        List.reverse_cons, List.append_assoc]
      rfl

end PathPart

/-- The regular expression of a pattern matches the paths that the pattern accepts. -/
theorem PathPattern.matches_regex_iff (pattern : PathPattern) (path : Text) :
    Regex.Matches pattern.regex path ↔ pattern.accepts path = true := by
  have isRead := PathPart.read_flatMap_regex pattern.parts []
  have sameLanguage :
      (Regex.inRow ((pattern.parts.map PathPart.expression).reverse ++ [])).language =
        PathPart.languageOf pattern.parts := by
    rw [Regex.language_inRow, List.append_nil, List.reverse_reverse, List.map_map]
    exact congrArg List.prod (List.map_congr_left fun part _ => part.language_expression)
  rw [pattern.accepts_iff, ← sameLanguage]
  constructor
  · rintro ⟨body, expression, same, isExpression, isWord⟩
    obtain rfl : pattern.parts.flatMap PathPart.regex = body := by
      simpa [PathPattern.regex] using same
    rw [isRead] at isExpression
    cases isExpression
    exact isWord
  · exact fun isWord => ⟨_, _, rfl, isRead, isWord⟩

end Deflow.Glob
