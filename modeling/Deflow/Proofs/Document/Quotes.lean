import Deflow.Document.Declaration
import Deflow.Document.Print
import Deflow.Proofs.Script.LineEnds

/-!
# Strings with other quotes

A string may be written anew with another quote.  This file says what stands between
the quotes of a string, and that it can stand between other quotes when their
backslashes are taken out: what is written is again a string, and denotes the same.
-/

namespace Deflow

open Script

/-! ## Between the quotes -/

/-- A text can stand between quotes.  A backslash takes the next character with it, or
a whole line end. -/
inductive IsStringBody (quote : Char) : Text → Prop
  | nil : IsStringBody quote []
  | lineEnd {text : Text} (more : IsStringBody quote text) :
      IsStringBody quote ('\\' :: '\r' :: '\n' :: text)
  | escape {c : Char} {text : Text} (single : c = '\r' → text.head? ≠ some '\n')
      (more : IsStringBody quote text) : IsStringBody quote ('\\' :: c :: text)
  | plain {c : Char} {text : Text} (notQuote : c ≠ quote) (notEscape : c ≠ '\\')
      (inLine : isLineFeed c = false) (more : IsStringBody quote text) :
      IsStringBody quote (c :: text)

/-- A backslash and a single character are passed over together. -/
theorem stringEnd?_escape_single {quote c : Char} {size : Nat} {text : Text}
    (single : c = '\r' → text.head? ≠ some '\n') :
    stringEnd? quote size ('\\' :: c :: text) = stringEnd? quote (size + 2) text := by
  rcases stringEnd?_escape quote size c text with ⟨behind, isReturn, rfl, _⟩ | same
  · exact absurd rfl (single isReturn)
  · exact same

/-- What stands between the quotes leads to the second of them. -/
theorem IsStringBody.stringEnd?_eq {quote : Char} {body : Text} (isBody : IsStringBody quote body)
    (isQuote : quote = '"' ∨ quote = '\'') (size : Nat) :
    stringEnd? quote size (body ++ [quote]) = some (size + (body ++ [quote]).length) := by
  have notEscape : quote ≠ '\\' := by
    rcases isQuote with rfl | rfl <;> decide
  induction isBody generalizing size with
  | nil =>
      rw [List.nil_append, stringEnd?_cons size [] notEscape, if_pos rfl, List.length_singleton]
  | lineEnd more inductionHypothesis =>
      simp only [List.cons_append, stringEnd?, inductionHypothesis, List.length_cons]
      congr 1
      omega
  | @escape c text single more inductionHypothesis =>
      have alsoSingle : c = '\r' → (text ++ [quote]).head? ≠ some '\n' := by
        intro isReturn
        cases text with
        | nil => rcases isQuote with rfl | rfl <;> decide
        | cons d text => exact single isReturn
      rw [List.cons_append, List.cons_append, stringEnd?_escape_single alsoSingle,
        inductionHypothesis]
      simp only [List.length_cons]
      congr 1
      omega
  | plain notQuote notEscape inLine more inductionHypothesis =>
      rw [List.cons_append, stringEnd?_cons size _ notEscape, if_neg notQuote,
        if_neg (by simp [inLine]), inductionHypothesis, List.length_cons]
      congr 1
      omega

/-- What leads to a second quote can stand in front of it. -/
theorem isStringBody_of_stringEnd? {quote : Char} {body : Text} {size : Nat}
    (isQuote : quote = '"' ∨ quote = '\'')
    (closed : stringEnd? quote size (body ++ [quote]) = some (size + (body ++ [quote]).length)) :
    IsStringBody quote body := by
  generalize isText : body ++ [quote] = text at closed
  fun_induction stringEnd? quote size text generalizing body with
  | case1 => cases closed
  | case2 size text inductionHypothesis =>
      -- The quote is none of the three characters, so they stand in the body.
      rcases body with _ | ⟨first, _ | ⟨second, _ | ⟨third, body⟩⟩⟩
      · simp at isText
      · rcases isQuote with rfl | rfl <;> simp at isText
      · rcases isQuote with rfl | rfl <;> simp at isText
      · simp only [List.cons_append, List.cons.injEq] at isText
        rcases isText with ⟨rfl, rfl, rfl, isText⟩
        refine .lineEnd (inductionHypothesis isText ?_)
        rw [closed]
        simp only [List.length_cons]
        congr 1
        omega
  | case3 size c text notLineEnd inductionHypothesis =>
      rcases body with _ | ⟨first, _ | ⟨second, body⟩⟩
      · simp at isText
      · -- An escaped quote does not end a string.
        simp only [List.cons_append, List.nil_append, List.cons.injEq] at isText
        rcases isText with ⟨_, _, rfl⟩
        cases closed
      · simp only [List.cons_append, List.cons.injEq] at isText
        rcases isText with ⟨rfl, rfl, isText⟩
        refine .escape (fun isReturn isFeed => ?_) (inductionHypothesis isText ?_)
        · rcases List.head?_eq_some_iff.mp isFeed with ⟨behind, rfl⟩
          exact notLineEnd (behind ++ [quote]) isReturn isText.symm
        · rw [closed]
          simp only [List.length_cons]
          congr 1
          omega
  | case4 => cases closed
  | case5 size text =>
      cases body with
      | nil => exact .nil
      | cons c body =>
          simp only [List.cons_append, List.cons.injEq] at isText
          rcases isText with ⟨_, rfl⟩
          simp at closed
  | case6 => cases closed
  | case7 size c text notLineEnd notEscape notLone notQuote inLine inductionHypothesis =>
      cases body with
      | nil =>
          simp only [List.nil_append, List.cons.injEq] at isText
          exact absurd isText.1.symm notQuote
      | cons d body =>
          simp only [List.cons_append, List.cons.injEq] at isText
          rcases isText with ⟨rfl, isText⟩
          refine .plain notQuote ?_ (by simpa using inLine) (inductionHypothesis isText ?_)
          · rintro rfl
            cases body with
            | nil => exact notEscape quote [] rfl isText.symm
            | cons e body => exact notEscape e (body ++ [quote]) rfl isText.symm
          · rw [closed]
            simp only [List.length_cons]
            congr 1
            omega

/-! ## Other quotes -/

/-- Taking backslashes out brings no line feed to the front. -/
theorem head?_unescapeQuote {quote : Char} (notFeed : quote ≠ '\n') {text : Text}
    (single : text.head? ≠ some '\n') : (unescapeQuote quote text).head? ≠ some '\n' := by
  unfold unescapeQuote
  split
  · simp
  · split
    · simp_all
    · simp
  · exact single

/-- What stands between quotes can stand between others that it does not hold, without
the backslashes in front of its own. -/
theorem IsStringBody.unescapeQuote {quote other : Char} {body : Text}
    (isBody : IsStringBody quote body) (isQuote : quote = '"' ∨ quote = '\'')
    (different : quote ≠ other) (absent : other ∉ body) :
    IsStringBody other (Deflow.unescapeQuote quote body) := by
  have notEscape : quote ≠ '\\' := by
    rcases isQuote with rfl | rfl <;> decide
  have inLine : isLineFeed quote = false := by
    rcases isQuote with rfl | rfl <;> decide
  have notReturn : '\r' ≠ quote := by
    rcases isQuote with rfl | rfl <;> decide
  have notFeed : quote ≠ '\n' := by
    rcases isQuote with rfl | rfl <;> decide
  induction isBody with
  | nil => exact .nil
  | lineEnd more inductionHypothesis =>
      simp only [List.mem_cons, not_or] at absent
      rw [Deflow.unescapeQuote, if_neg notReturn, Deflow.unescapeQuote]
      · exact .lineEnd (inductionHypothesis absent.2.2.2)
      · simp
  | @escape c text single more inductionHypothesis =>
      simp only [List.mem_cons, not_or] at absent
      have behind := inductionHypothesis absent.2.2
      rw [Deflow.unescapeQuote]
      split
      · rename_i isOwn
        subst isOwn
        exact .plain different notEscape inLine behind
      · exact .escape (fun isReturn => head?_unescapeQuote notFeed (single isReturn)) behind
  | @plain c text notQuote notBackslash oneLine more inductionHypothesis =>
      simp only [List.mem_cons, not_or] at absent
      rw [Deflow.unescapeQuote]
      · exact .plain (Ne.symm absent.1) notBackslash oneLine (inductionHypothesis absent.2)
      · exact fun _ _ isBackslash => absurd isBackslash notBackslash

/-- A string is a text between quotes. -/
theorem isLexeme_string_iff {text : Text} :
    IsLexeme ⟨.string, text⟩ ↔
      ∃ quote body, (quote = '"' ∨ quote = '\'') ∧ IsStringBody quote body ∧
        text = quote :: (body ++ [quote]) := by
  constructor
  · intro lexeme
    cases lexeme with
    | @string quote behind isQuote closed =>
        have last := getLast?_of_stringEnd? (closed.trans (by rw [Nat.zero_add]))
        rcases List.getLast?_eq_some_iff.mp last with ⟨body, rfl⟩
        refine ⟨quote, body, isQuote, ?_, rfl⟩
        exact isStringBody_of_stringEnd? isQuote (closed.trans (by rw [Nat.zero_add]))
  · rintro ⟨quote, body, isQuote, isBody, rfl⟩
    exact .string isQuote ((isBody.stringEnd?_eq isQuote 0).trans (by rw [Nat.zero_add]))

/-- The literal of a string is written as a string again. -/
theorem isLexeme_render {text : Text} (lexeme : IsLexeme ⟨.string, text⟩) {preferred : Char}
    (isPreferred : preferred = '"' ∨ preferred = '\'') :
    IsLexeme ⟨.string, (Declaration.literalOf text).render preferred⟩ := by
  rcases isLexeme_string_iff.mp lexeme with ⟨quote, body, isQuote, isBody, rfl⟩
  have isLiteral : Declaration.literalOf (quote :: (body ++ [quote])) = ⟨quote, body⟩ := by
    simp [Declaration.literalOf]
  rw [isLiteral, StringLiteral.render]
  simp only [Bool.or_eq_true, decide_eq_true_eq, List.contains_iff_mem]
  split
  · exact isLexeme_string_iff.mpr ⟨quote, body, isQuote, isBody, by simp⟩
  · rename_i requoted
    rw [not_or] at requoted
    exact isLexeme_string_iff.mpr
      ⟨preferred, _, isPreferred, isBody.unescapeQuote isQuote requoted.1 requoted.2, by simp⟩

/-! ## What strings denote -/

/-- What a string is made of: characters, and characters that a backslash gives another
meaning. -/
inductive StringElement where
  | plain (c : Char)
  | escaped (c : Char)
deriving DecidableEq, Repr

/-- What the text between quotes denotes, from left to right.  A backslash in front of a
quote only keeps the quote from ending the string. -/
def stringElements : Text → List StringElement
  | [] => []
  | '\\' :: c :: text =>
    (if c = '"' ∨ c = '\'' then .plain c else .escaped c) :: stringElements text
  | c :: text => .plain c :: stringElements text

/-- What a string literal denotes. -/
def StringLiteral.elements (literal : StringLiteral) : List StringElement :=
  stringElements literal.body

theorem stringElements_plain {c : Char} (notEscape : c ≠ '\\') (text : Text) :
    stringElements (c :: text) = .plain c :: stringElements text := by
  rw [stringElements]
  exact fun _ _ isEscape => absurd isEscape notEscape

/-- A quote denotes itself with and without a backslash. -/
theorem stringElements_unescapeQuote {quote : Char} (isQuote : quote = '"' ∨ quote = '\'')
    (body : Text) : stringElements (unescapeQuote quote body) = stringElements body := by
  have notEscape : quote ≠ '\\' := by
    rcases isQuote with rfl | rfl <;> decide
  fun_induction unescapeQuote quote body with
  | case1 => rfl
  | case2 text inductionHypothesis =>
      rw [stringElements_plain notEscape, inductionHypothesis, stringElements, if_pos isQuote]
  | case3 next text notQuote inductionHypothesis =>
      rw [stringElements, inductionHypothesis, stringElements]
  | case4 c text notPair inductionHypothesis =>
      by_cases isEscape : c = '\\'
      · -- A backslash with nothing behind it.
        cases text with
        | nil => rfl
        | cons d text => exact absurd rfl (notPair d text isEscape)
      · rw [stringElements_plain isEscape, stringElements_plain isEscape, inductionHypothesis]

/-- A literal with the quote that it is written with. -/
def StringLiteral.requote (literal : StringLiteral) (preferred : Char) : StringLiteral :=
  if literal.quote = preferred || literal.body.contains preferred then literal
  else ⟨preferred, unescapeQuote literal.quote literal.body⟩

/-- What a literal is written as is read as the literal with that quote. -/
theorem literalOf_render (literal : StringLiteral) (preferred : Char) :
    Declaration.literalOf (literal.render preferred) = literal.requote preferred := by
  unfold StringLiteral.render StringLiteral.requote
  split <;> simp [Declaration.literalOf]

/-- Writing a literal again does not change its text. -/
theorem render_requote (literal : StringLiteral) (preferred : Char) :
    (literal.requote preferred).render preferred = literal.render preferred := by
  unfold StringLiteral.requote
  split
  · rfl
  · rename_i requoted
    rw [StringLiteral.render, StringLiteral.render, if_neg requoted, if_pos (by simp)]

/-- Another quote does not change what a literal denotes. -/
theorem elements_requote {literal : StringLiteral}
    (isQuote : literal.quote = '"' ∨ literal.quote = '\'') (preferred : Char) :
    (literal.requote preferred).elements = literal.elements := by
  unfold StringLiteral.requote
  split
  · rfl
  · exact stringElements_unescapeQuote isQuote literal.body

/-- What a literal is written as, by its quote and body. -/
theorem render_eq_requote (literal : StringLiteral) (preferred : Char) :
    literal.render preferred =
      (literal.requote preferred).quote ::
        ((literal.requote preferred).body ++ [(literal.requote preferred).quote]) := by
  unfold StringLiteral.render StringLiteral.requote
  split <;> rfl

/-- A literal gets the preferred quote unless its body holds one. -/
theorem quote_requote (literal : StringLiteral) (preferred : Char) :
    (literal.requote preferred).quote =
      if preferred ∈ literal.body then literal.quote else preferred := by
  unfold StringLiteral.requote
  by_cases holds : preferred ∈ literal.body
  · simp [holds]
  · by_cases same : literal.quote = preferred <;> simp [holds, same]

/-! ## Strings that are read and written again -/

/-- A string by itself is one token. -/
theorem tokenize_string {text : Text} (lexeme : IsLexeme ⟨.string, text⟩) :
    tokenize text = .ok [⟨.string, text⟩] := by
  have plain : plainToken (text ++ []) = .ok ⟨.string, text⟩ := lexeme.plainToken_eq rfl
  rw [List.append_nil] at plain
  rw [tokenize_eq_ok_iff]
  apply Scans.script
  · rintro ⟨rest, rfl⟩
    cases lexeme with
    | string isQuote closed => simp at isQuote
  · apply Reads.scriptToken (List.append_nil text).symm plain _ .scriptEnd
    constructor <;> simp [Token.isPunct]

/-- The literal of a string that was measured has its quote and what stands before the
closing one. -/
theorem literalOf_of_stringEnd? {quote : Char} {text : Text} {size : Nat}
    (isQuote : quote = '"' ∨ quote = '\'') (closed : stringEnd? quote 0 text = some size) :
    IsLexeme ⟨.string, quote :: text.take size⟩ ∧
      ∃ body, text.take size = body ++ [quote] ∧
        Declaration.literalOf (quote :: text.take size) = ⟨quote, body⟩ := by
  rcases exists_string closed with ⟨front, rest, rfl, rfl, whole⟩
  rw [Nat.zero_add, List.take_left]
  constructor
  · exact .string isQuote whole
  · rcases isLexeme_string_iff.mp (.string isQuote whole) with ⟨other, body, _, _, spelled⟩
    rcases List.cons.inj spelled with ⟨rfl, rfl⟩
    exact ⟨body, rfl, by simp [Declaration.literalOf]⟩

/-- A string that was read and is written again, whichever quote is preferred, is read as
one whole string, wherever it stands, and denotes what it did.  It gets the preferred
quote unless its body holds one. -/
theorem string_rewritten {quote preferred : Char} {text : Text} {size : Nat}
    (isQuote : quote = '"' ∨ quote = '\'') (isPreferred : preferred = '"' ∨ preferred = '\'')
    (closed : stringEnd? quote 0 text = some size) :
    ∃ body other rewritten,
      text.take size = body ++ [quote] ∧
      Declaration.literalOf (quote :: text.take size) = ⟨quote, body⟩ ∧
      (StringLiteral.mk quote body).render preferred = other :: (rewritten ++ [other]) ∧
      tokenize (other :: (rewritten ++ [other])) =
        .ok [⟨.string, other :: (rewritten ++ [other])⟩] ∧
      (∀ rest, plainToken (other :: (rewritten ++ [other]) ++ rest) =
        .ok ⟨.string, other :: (rewritten ++ [other])⟩) ∧
      stringElements rewritten = stringElements body ∧
      other = if preferred ∈ body then quote else preferred := by
  rcases literalOf_of_stringEnd? isQuote closed with ⟨lexeme, body, isBody, isLiteral⟩
  have written := isLexeme_render lexeme isPreferred
  rw [isLiteral, render_eq_requote] at written
  have denotes := @elements_requote ⟨quote, body⟩ isQuote preferred
  exact ⟨body, _, _, isBody, isLiteral, render_eq_requote _ _, tokenize_string written,
    fun rest => written.plainToken_eq rfl, denotes, quote_requote _ _⟩

/-- A body with escaped backslashes, an escaped quote and a line that is continued. -/
theorem string_rewritten_continued_line :
    stringEnd? '"' 0 "\\\\\\\"\\\r\na\\\\\"+\"".toList = some 11 ∧
      ∃ rewritten,
        (StringLiteral.mk '"' "\\\\\\\"\\\r\na\\\\".toList).render '\'' =
          '\'' :: (rewritten ++ ['\'']) ∧
        tokenize ('\'' :: (rewritten ++ ['\''])) =
          .ok [⟨.string, '\'' :: (rewritten ++ ['\''])⟩] ∧
        stringElements rewritten =
          [.escaped '\\', .plain '"', .escaped '\r', .plain '\n', .plain 'a', .escaped '\\'] := by
  have closed : stringEnd? '"' 0 "\\\\\\\"\\\r\na\\\\\"+\"".toList = some 11 := by decide
  rcases @string_rewritten _ '\'' _ _ (.inl rfl) (.inr rfl) closed with
    ⟨body, other, rewritten, _, isLiteral, isWritten, scanned, _, same, isOther⟩
  cases isLiteral
  cases isOther
  exact ⟨closed, rewritten, isWritten, scanned, same⟩

end Deflow
