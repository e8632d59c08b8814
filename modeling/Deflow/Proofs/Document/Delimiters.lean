import Deflow.Proofs.Document.Standing
import Deflow.Proofs.Script.Shape

/-!
# What stands between delimiters

What takes the delimiters off a comment, or the quotes off a string, finds them
wherever the comment or the string was read: nothing else is taken off, and nothing is
left of them.
-/

namespace Deflow

open Script

/-! ## Comments -/

/-- The body of a comment between the delimiters of its kind. -/
def Comment.delimited (comment : Comment) : Text :=
  match comment.kind with
  | .line => ['/', '/'] ++ comment.body
  | .block => ['/', '*'] ++ comment.body ++ ['*', '/']

/-- A comment that has its delimiters is its body between them. -/
theorem Comment.delimited_eq {comment : Comment} (shaped : comment.token.Shaped) :
    comment.delimited = comment.text := by
  rcases comment with ⟨kind, text⟩
  cases kind with
  | line =>
      rcases shaped with ⟨⟨body, spelled⟩, _, _⟩
      have isBody : Text.dropFront? ['/', '/'] text = some body :=
        Text.dropFront?_eq_some_iff.mpr spelled.symm
      simp only [Comment.delimited, Comment.body, isBody, Option.getD_some]
      exact spelled
  | block =>
      rcases shaped with ⟨body, spelled, _⟩
      have isFront : Text.dropFront? ['/', '*'] text = some (body ++ ['*', '/']) :=
        Text.dropFront?_eq_some_iff.mpr spelled
      have isBody : Text.dropBack? ['*', '/'] (body ++ ['*', '/']) = some body :=
        Text.dropBack?_eq_some_iff.mpr rfl
      simp only [Comment.delimited, Comment.body, isFront, Option.bind_some, isBody,
        Option.getD_some, List.append_assoc]
      exact spelled.symm

/-! ## Strings -/

/-- A part of a text is what stands between two byte offsets that are those of characters. -/
def Text.IsSlice (text : Text) (start finish : Nat) (part : Text) : Prop :=
  ∃ front back, text = front ++ part ++ back ∧ start = front.byteLength ∧
    finish = (front ++ part).byteLength

/-- The body of a string's literal is all of the string but its first and last byte. -/
theorem isSlice_literalOf {token : Token} (shaped : token.Shaped)
    (isString : token.kind = .string) :
    token.text.IsSlice 1 (token.text.byteLength - 1) (Declaration.literalOf token.text).body := by
  rcases token with ⟨kind, text⟩
  cases isString
  rcases shaped with ⟨quote, body, isQuote, spelled⟩
  obtain rfl : text = quote :: (body ++ [quote]) := spelled
  have oneByte : quote.utf8Size = 1 := by
    rcases isQuote with rfl | rfl <;> rfl
  have isBody : (Declaration.literalOf (quote :: (body ++ [quote]))).body = body := by
    simp [Declaration.literalOf]
  rw [isBody]
  refine ⟨[quote], [quote], rfl, ?_, ?_⟩
  · simp [oneByte]
  · simp [oneByte, Nat.add_comm]

/-! ## Source texts -/

/-- Every token of a source text has the shape of its kind.  The body of every string
therefore lies within its text, and every comment of the document is its body between
delimiters. -/
theorem shapes_of_tokenize {source : Text} {tokens : List Token}
    (scanned : tokenize source = .ok tokens) :
    (∀ token ∈ tokens, token.Shaped) ∧
      (∀ token ∈ tokens, token.kind = .string →
        token.text.IsSlice 1 (token.text.byteLength - 1)
          (Declaration.literalOf token.text).body) ∧
      ∀ document, Document.parse source = .ok document →
        ∀ comment ∈ document.comments, comment.delimited = comment.text := by
  have shaped := (tokenize_eq_ok_iff.mp scanned).shaped
  refine ⟨shaped, fun token member => isSlice_literalOf (shaped token member), ?_⟩
  intro document parsed comment member
  have standing := standing_of_ofTokens (ofTokens_of_parse parsed scanned)
  rw [Document.comments, standing.flatMap_comments] at member
  rcases List.mem_filterMap.mp member with ⟨token, isToken, isComment⟩
  apply Comment.delimited_eq
  have sameToken : comment.token = token := (comment?_eq_some_iff.mp isComment).symm
  rw [sameToken]
  exact shaped token isToken

/-- A string over two lines in a tag, text and a comment among children, and a template. -/
theorem shapes_of_tokenize_markup :
    let source : Text := "<a b='\n'>t\x7b/* c */\x7d</a>+\x60d\x60// e".toList
    ∃ tokens document,
      tokenize source = .ok tokens ∧
      tokens.map Token.kind =
        [.punctuation, .jsxName, .whitespace, .jsxName, .punctuation, .string, .punctuation,
          .jsxText, .punctuation, .blockComment, .punctuation, .punctuation, .punctuation, .jsxName,
          .punctuation, .punctuation, .template, .lineComment] ∧
      (∀ token ∈ tokens, token.Shaped) ∧
      Document.parse source = .ok document ∧
      document.comments.map Comment.body = [" c ".toList, " e".toList] ∧
      ∀ comment ∈ document.comments, comment.delimited = comment.text := by
  intro source
  have scanned : tokenize source =
      .ok [Token.punct '<', ⟨.jsxName, ['a']⟩, ⟨.whitespace, [' ']⟩, ⟨.jsxName, ['b']⟩,
        Token.punct '=', ⟨.string, "'\n'".toList⟩, Token.punct '>', ⟨.jsxText, ['t']⟩,
        Token.punct '\x7b', ⟨.blockComment, "/* c */".toList⟩, Token.punct '\x7d',
        Token.punct '<', Token.punct '/', ⟨.jsxName, ['a']⟩, Token.punct '>', Token.punct '+',
        ⟨.template, "\x60d\x60".toList⟩, ⟨.lineComment, "// e".toList⟩] := by
    decide +kernel
  have parsed : Document.parse source =
      .ok { nodes := [.code "<a b='\n'>t\x7b".toList, .comment ⟨.block, "/* c */".toList⟩,
        .code "\x7d</a>+\x60d\x60".toList, .comment ⟨.line, "// e".toList⟩] } := by
    decide +kernel
  rcases shapes_of_tokenize scanned with ⟨shaped, _, delimited⟩
  exact ⟨_, _, scanned, rfl, shaped, parsed, rfl, delimited _ parsed⟩

end Deflow
