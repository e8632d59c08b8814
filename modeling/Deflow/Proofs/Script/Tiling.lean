import Deflow.Proofs.Script.Readers
import Mathlib.Data.List.Chain

/-!
# Tokens tile their script

Cutting a source text into tokens loses nothing and adds nothing: the tokens
stand side by side from the first byte to the last, none of them is empty, and
each is cut out between characters.
-/

namespace Deflow.Script

/-! ## Whole scripts -/

/-- Script that runs to the end of the input leaves nothing. -/
theorem Reads.rest_eq_nil {context : Context} {text rest : Text} {tokens : List Token}
    (reads : Reads (.script .endOfInput context) text tokens rest) : rest = [] := by
  generalize isScript : Mode.script .endOfInput context = mode at reads
  induction reads generalizing context with
  | scriptEnd => rfl
  | scriptTemplate _ _ _ inductionHypothesis | scriptRegex _ _ _ _ inductionHypothesis
  | scriptMarkup _ _ _ _ _ inductionHypothesis | scriptToken _ _ _ _ inductionHypothesis =>
      cases isScript
      exact inductionHypothesis rfl
  | _ => cases isScript

/-- A source text is read as tokens: an interpreter line if it begins like one,
and script to the end. -/
inductive Scans : Text → List Token → Prop
  | script {source : Text} {tokens : List Token} (noLine : ¬['#', '!'] <+: source)
      (reads : Reads (.script .endOfInput {}) source tokens []) : Scans source tokens
  | hashbang {line rest : Text} {tokens : List Token}
      (oneLine : ∀ c ∈ '#' :: '!' :: line, isLineFeed c = false)
      (ends : rest.head?.all isLineFeed = true)
      (reads : Reads (.script .endOfInput {}) rest tokens []) :
      Scans ('#' :: '!' :: line ++ rest) (⟨.hashbang, '#' :: '!' :: line⟩ :: tokens)

/-- A script without an interpreter line has the tokens that its text reads as. -/
theorem tokenize_plain {source : Text} (noLine : ¬['#', '!'] <+: source) :
    tokenize source = readScript .endOfInput {} 0 source := by
  rw [tokenize]
  rintro rest rfl
  exact noLine ⟨rest, rfl⟩

/-- The tokens of a script that begins with an interpreter line. -/
theorem tokenize_hashbang {line rest : Text}
    (oneLine : ∀ c ∈ '#' :: '!' :: line, isLineFeed c = false)
    (ends : rest.head?.all isLineFeed = true) :
    tokenize ('#' :: '!' :: line ++ rest) =
      readScript .endOfInput { read := [⟨.hashbang, '#' :: '!' :: line⟩] } 0 rest := by
  have run : runLength (!isLineFeed ·) ('#' :: '!' :: line ++ rest) =
      ('#' :: '!' :: line).length := by
    refine runLength_append_eq_iff.mpr ⟨fun c member => by simp [oneLine c member], ?_⟩
    cases rest with
    | nil => rfl
    | cons c rest => simpa using ends
  rw [List.cons_append, List.cons_append] at run ⊢
  rw [tokenize, run, ← List.cons_append, ← List.cons_append]
  simp only [cut_append]
  rw [readScript_skip, List.drop_left]

/-- Cutting a source text into tokens is reading it by the rules. -/
theorem tokenize_eq_ok_iff {source : Text} {tokens : List Token} :
    tokenize source = .ok tokens ↔ Scans source tokens := by
  constructor
  · intro scanned
    by_cases isLine : ['#', '!'] <+: source
    · obtain ⟨behind, rfl⟩ := isLine
      obtain ⟨line, rest, rfl, inside, ends⟩ := exists_run (!isLineFeed ·) behind
      have oneLine : ∀ c ∈ '#' :: '!' :: line, isLineFeed c = false := by
        simp only [List.forall_mem_cons]
        exact ⟨by decide, by decide, fun c member => by simpa using inside c member⟩
      have ends : rest.head?.all isLineFeed = true := by
        cases rest with
        | nil => rfl
        | cons c rest => simpa using ends
      have scanned := (tokenize_hashbang oneLine ends).symm.trans scanned
      obtain ⟨tokens, rest, reads, rfl⟩ := readScript_eq_ok_iff.mp scanned
      obtain rfl := reads.rest_eq_nil
      exact .hashbang oneLine ends reads
    · rw [tokenize_plain isLine] at scanned
      obtain ⟨tokens, rest, reads, rfl⟩ := readScript_eq_ok_iff.mp scanned
      obtain rfl := reads.rest_eq_nil
      exact .script isLine reads
  · rintro (⟨noLine, reads⟩ | ⟨oneLine, ends, reads⟩)
    · rw [tokenize_plain noLine]
      exact readScript_eq_ok_iff.mpr ⟨tokens, [], reads, rfl⟩
    · rw [tokenize_hashbang oneLine ends]
      exact readScript_eq_ok_iff.mpr ⟨_, [], reads, rfl⟩

/-- The tokens of a source text spell it. -/
theorem Scans.spell_eq {source : Text} {tokens : List Token} (scans : Scans source tokens) :
    Token.spell tokens = source := by
  cases scans with
  | script noLine reads => simpa using reads.spelled.symm
  | hashbang oneLine ends reads => simpa using reads.spelled.symm

/-- No token of a source text is empty. -/
theorem Scans.text_ne_nil {source : Text} {tokens : List Token} (scans : Scans source tokens) :
    ∀ token ∈ tokens, token.text ≠ [] := by
  cases scans with
  | script noLine reads => exact reads.text_ne_nil
  | hashbang oneLine ends reads =>
      exact List.forall_mem_cons.mpr ⟨List.cons_ne_nil _ _, reads.text_ne_nil⟩

/-- What is known of every token, wherever it was read. -/
structure Token.Sound (token : Token) : Prop where
  filled : token.text ≠ []
  lexeme : token.kind = .identifier ∨ token.isComment = true → IsLexeme token
  regex : token.kind = .regex → token.text.head? = some '/'
  template : token.kind = .template → token.text.head? = some '\x60'

theorem Reads.sound {stop : Until} {context : Context} {text rest : Text} {tokens : List Token}
    (reads : Reads (.script stop context) text tokens rest) : ∀ token ∈ tokens, token.Sound := by
  intro token member
  have heads := reads.head?_eq token member
  exact ⟨reads.text_ne_nil token member, reads.isLexeme token member, heads.1, heads.2 (by simp)⟩

theorem Scans.sound {source : Text} {tokens : List Token} (scans : Scans source tokens) :
    ∀ token ∈ tokens, token.Sound := by
  cases scans with
  | script noLine reads => exact reads.sound
  | hashbang oneLine ends reads =>
      refine List.forall_mem_cons.mpr ⟨?_, reads.sound⟩
      constructor
      all_goals simp [Token.isComment]

/-! ## Tiling -/

/-- Tokens with their byte offsets cover a source text from end to end, each of
them being the characters between its offsets. -/
structure Tiles (source : Text) (spans : List (Token × Nat × Nat)) : Prop where
  startsAtZero : ∀ span ∈ spans.head?, span.2.1 = 0
  adjacent : spans.IsChain fun first second => first.2.2 = second.2.1
  endsAtEnd : ∀ span ∈ spans.getLast?, span.2.2 = source.byteLength
  nonempty : ∀ span ∈ spans, span.2.1 < span.2.2
  cutsCharacters : ∀ span ∈ spans, ∃ front back, source = front ++ span.1.text ++ back ∧
    span.2.1 = front.byteLength ∧ span.2.2 = (front ++ span.1.text).byteLength

/-- A text that is not empty takes at least a byte. -/
theorem byteLength_pos {text : Text} (nonempty : text ≠ []) : 0 < text.byteLength := by
  obtain ⟨c, more, rfl⟩ := List.exists_cons_of_ne_nil nonempty
  have positive := c.utf8Size_pos
  rw [Text.byteLength_cons]
  omega

theorem adjacent_spans (offset : Nat) (tokens : List Token) :
    (Token.spans offset tokens).IsChain fun first second => first.2.2 = second.2.1 := by
  induction tokens generalizing offset with
  | nil => exact .nil
  | cons token tokens inductionHypothesis =>
      cases tokens with
      | nil => exact .singleton _
      | cons next tokens => exact .cons_cons rfl (inductionHypothesis _)

theorem getLast_spans (offset : Nat) (tokens : List Token) :
    ∀ span ∈ (Token.spans offset tokens).getLast?,
      span.2.2 = offset + (Token.spell tokens).byteLength := by
  induction tokens generalizing offset with
  | nil => simp [Token.spans]
  | cons token tokens inductionHypothesis =>
      cases tokens with
      | nil => simp [Token.spans]
      | cons next tokens =>
          intro span isLast
          have later := inductionHypothesis (offset + token.text.byteLength) span (by
            simpa [Token.spans] using isLast)
          rw [later, Token.spell_cons token, Text.byteLength_append]
          omega

/-- Each span behind a front part holds the characters of its token. -/
theorem cut_of_mem_spans (front : Text) (tokens : List Token) :
    ∀ span ∈ Token.spans front.byteLength tokens, span.1 ∈ tokens ∧ ∃ before back,
      front ++ Token.spell tokens = before ++ span.1.text ++ back ∧
        span.2.1 = before.byteLength ∧ span.2.2 = (before ++ span.1.text).byteLength := by
  induction tokens generalizing front with
  | nil => simp [Token.spans]
  | cons token tokens inductionHypothesis =>
      intro span member
      rw [Token.spans, ← Text.byteLength_append] at member
      rcases List.mem_cons.mp member with rfl | later
      · exact ⟨List.mem_cons_self .., front, Token.spell tokens, by simp, rfl, rfl⟩
      · obtain ⟨isToken, before, back, spelled, start, finish⟩ :=
          inductionHypothesis (front ++ token.text) span later
        exact ⟨List.mem_cons_of_mem _ isToken, before, back, by simpa using spelled, start, finish⟩

/-- The tokens of a source text tile it, and only the empty text has none. -/
theorem tiles_of_tokenize {source : Text} {tokens : List Token}
    (scanned : tokenize source = .ok tokens) :
    Tiles source (Token.spans 0 tokens) ∧ (tokens = [] ↔ source = []) := by
  have scans := tokenize_eq_ok_iff.mp scanned
  obtain rfl := scans.spell_eq
  have filled := scans.text_ne_nil
  refine ⟨⟨?_, adjacent_spans 0 tokens, ?_, ?_, ?_⟩, ?_⟩
  · cases tokens <;> simp [Token.spans]
  · simpa using getLast_spans 0 tokens
  · intro span member
    obtain ⟨isToken, before, back, _, start, finish⟩ := cut_of_mem_spans [] tokens span member
    have positive := byteLength_pos (filled span.1 isToken)
    rw [start, finish, Text.byteLength_append]
    omega
  · intro span member
    exact (cut_of_mem_spans [] tokens span member).2
  · constructor
    · rintro rfl
      rfl
    · intro isEmpty
      cases tokens with
      | nil => rfl
      | cons token tokens =>
          rw [Token.spell_cons, List.append_eq_nil_iff] at isEmpty
          exact absurd isEmpty.1 (filled token (List.mem_cons_self ..))

/-- Markup around a regular expression with a letter of two bytes. -/
theorem tiles_of_tokenize_markup :
    ∃ tokens, tokenize "<b>\x7b/é/\x7d</b>".toList = .ok tokens ∧
      tokens.map Token.kind =
        [.punctuation, .jsxName, .punctuation, .punctuation, .regex, .punctuation, .punctuation,
          .punctuation, .jsxName, .punctuation] ∧
      Tiles "<b>\x7b/é/\x7d</b>".toList (Token.spans 0 tokens) := by
  refine ⟨[Token.punct '<', ⟨.jsxName, ['b']⟩, Token.punct '>', Token.punct '\x7b',
    ⟨.regex, ['/', 'é', '/']⟩, Token.punct '\x7d', Token.punct '<', Token.punct '/',
    ⟨.jsxName, ['b']⟩, Token.punct '>'], ?scanned, rfl, (tiles_of_tokenize ?scanned).1⟩
  decide +kernel

end Deflow.Script
