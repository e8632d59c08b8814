import Deflow.Glob.PathPattern
import Mathlib.Computability.Language

/-!
# Languages of path patterns

The texts that a part of a pattern stands for make a language, and the language of a pattern
is the product over its parts.  Marking a text keeps one invariant: a suffix is marked
exactly if it is a word of the language of the parts that have been put in front.  So a
pattern accepts the words of its language and no others.
-/

namespace Deflow.Glob

open Computability

variable {words others : Language Char} {inClass : Char → Bool} {c : Char} {text : Text}

/-! ## Characters of a class -/

/-- The words of one character of a class. -/
def oneOf (inClass : Char → Bool) : Language Char :=
  {word | ∃ c, inClass c = true ∧ word = [c]}

theorem nil_notMem_oneOf_mul : [] ∉ oneOf inClass * words := by
  rw [Language.mem_mul]
  rintro ⟨_, ⟨c, _, rfl⟩, rest, _, spelled⟩
  exact List.cons_ne_nil c rest spelled

theorem cons_mem_oneOf_mul :
    c :: text ∈ oneOf inClass * words ↔ inClass c = true ∧ text ∈ words := by
  rw [Language.mem_mul]
  constructor
  · rintro ⟨_, ⟨c, inside, rfl⟩, rest, isWord, spelled⟩
    cases spelled
    exact ⟨inside, isWord⟩
  · rintro ⟨inside, isWord⟩
    exact ⟨[c], ⟨c, inside, rfl⟩, text, isWord, rfl⟩

/-- Any number of characters in front of a word are none, or one and any number. -/
theorem kstar_mul_eq (first words : Language Char) :
    first∗ * words = words + first * (first∗ * words) :=
  calc
    first∗ * words = (1 + first * first∗) * words := by
      rw [Language.one_add_self_mul_kstar_eq_kstar]
    _ = words + first * (first∗ * words) := by
      rw [add_mul, one_mul, mul_assoc]

theorem nil_mem_kstar_oneOf_mul : [] ∈ (oneOf inClass)∗ * words ↔ [] ∈ words := by
  rw [kstar_mul_eq, Language.mem_add]
  exact or_iff_left nil_notMem_oneOf_mul

theorem cons_mem_kstar_oneOf_mul :
    c :: text ∈ (oneOf inClass)∗ * words ↔
      c :: text ∈ words ∨ inClass c = true ∧ text ∈ (oneOf inClass)∗ * words := by
  rw [kstar_mul_eq, Language.mem_add, cons_mem_oneOf_mul, ← kstar_mul_eq]

/-- Any number of characters of a class are the texts in which every character is one. -/
theorem mem_kstar_oneOf {word : Text} : word ∈ (oneOf inClass)∗ ↔ ∀ c ∈ word, inClass c = true := by
  induction word with
  | nil => simp [Language.nil_mem_kstar]
  | cons c word inductionHypothesis =>
      rw [← mul_one (oneOf inClass)∗, cons_mem_kstar_oneOf_mul, mul_one, inductionHypothesis]
      simp

/-! ## Markings -/

/-- A marking marks those suffixes of a text that are words of a language. -/
inductive Marks (words : Language Char) : Text → Marked → Prop
  | last {mark : Bool} (isMarked : mark = true ↔ [] ∈ words) : Marks words [] (.last mark)
  | next {mark : Bool} {c : Char} {text : Text} {rest : Marked}
      (isMarked : mark = true ↔ c :: text ∈ words) (marks : Marks words text rest) :
      Marks words (c :: text) (.next mark c rest)

namespace Marks

variable {marked another : Marked}

theorem here_iff (marks : Marks words text marked) : marked.here = true ↔ text ∈ words := by
  cases marks with
  | last isMarked => exact isMarked
  | next isMarked => exact isMarked

theorem ofText (text : Text) : Marks 1 text (Marked.ofText text) := by
  induction text with
  | nil => exact .last (by simp)
  | cons c text inductionHypothesis => exact .next (by simp) inductionHypothesis

theorem one (marks : Marks words text marked) :
    Marks (oneOf inClass * words) text (marked.one inClass) := by
  induction marks with
  | last => exact .last (by simp [nil_notMem_oneOf_mul])
  | next isMarked marks inductionHypothesis =>
      refine .next ?_ inductionHypothesis
      rw [Bool.and_eq_true, marks.here_iff, cons_mem_oneOf_mul]

theorem many (marks : Marks words text marked) :
    Marks ((oneOf inClass)∗ * words) text (marked.many inClass) := by
  induction marks with
  | last isMarked => exact .last (isMarked.trans nil_mem_kstar_oneOf_mul.symm)
  | next isMarked marks inductionHypothesis =>
      refine .next ?_ inductionHypothesis
      rw [Bool.or_eq_true, Bool.and_eq_true, isMarked, inductionHypothesis.here_iff,
        cons_mem_kstar_oneOf_mul]

theorem either (marks : Marks words text marked) (alsoMarks : Marks others text another) :
    Marks (words + others) text (marked.either another) := by
  induction marks generalizing another with
  | last isMarked =>
      cases alsoMarks with
      | last alsoMarked =>
          refine .last ?_
          rw [Bool.or_eq_true, isMarked, Language.mem_add]
          exact or_congr_right alsoMarked
  | next isMarked marks inductionHypothesis =>
      cases alsoMarks with
      | next alsoMarked alsoMarks =>
          refine .next ?_ (inductionHypothesis alsoMarks)
          rw [Bool.or_eq_true, isMarked, alsoMarked, Language.mem_add]

end Marks

/-! ## Parts and patterns -/

namespace PathPart

/-- The texts that a part stands for. -/
def language : PathPart → Language Char
  | .literal c => oneOf (· == c)
  | .segmentChar => oneOf (· != '/')
  | .segmentText => (oneOf (· != '/'))∗
  | .anyText => (oneOf (· != '\n'))∗
  | .leadingFolders => 1 + (oneOf (· != '\n'))∗ * oneOf (· == '/')
  | .subtree => 1 + oneOf (· == '/') * (oneOf (· != '\n'))∗

/-- Putting a part in front of a pattern marks the words of the longer pattern. -/
theorem marks_mark {behind : Language Char} {marked : Marked} (part : PathPart)
    (marks : Marks behind text marked) :
    Marks (part.language * behind) text (part.mark marked) := by
  cases part with
  | literal c => exact marks.one
  | segmentChar => exact marks.one
  | segmentText => exact marks.many
  | anyText => exact marks.many
  | leadingFolders =>
      rw [language, add_mul, one_mul, mul_assoc]
      exact marks.either marks.one.many
  | subtree =>
      rw [language, add_mul, one_mul, mul_assoc]
      exact marks.either marks.many.one

/-- The texts that parts stand for one after another. -/
def languageOf (parts : List PathPart) : Language Char :=
  (parts.map language).prod

@[simp]
theorem languageOf_nil : languageOf [] = 1 :=
  rfl

@[simp]
theorem languageOf_cons (part : PathPart) (parts : List PathPart) :
    languageOf (part :: parts) = part.language * languageOf parts :=
  List.prod_cons

@[simp]
theorem languageOf_append (first second : List PathPart) :
    languageOf (first ++ second) = languageOf first * languageOf second := by
  rw [languageOf, List.map_append, List.prod_append]
  rfl

theorem marks_foldr (parts : List PathPart) (text : Text) :
    Marks (languageOf parts) text (parts.foldr mark (Marked.ofText text)) := by
  induction parts with
  | nil => exact .ofText text
  | cons part parts inductionHypothesis =>
      rw [languageOf_cons]
      exact part.marks_mark inductionHypothesis

end PathPart

/-- A pattern accepts the words of its language. -/
theorem PathPattern.accepts_iff (pattern : PathPattern) (path : Text) :
    pattern.accepts path = true ↔ path ∈ PathPart.languageOf pattern.parts :=
  (PathPart.marks_foldr pattern.parts path).here_iff

end Deflow.Glob
