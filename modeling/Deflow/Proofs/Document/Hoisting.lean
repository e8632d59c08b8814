import Deflow.Proofs.Document.Drawing
import Deflow.Proofs.Document.Redrawing

/-!
# Changed declarations as if they had been read

A changed declaration is written as its comments, each on a line of its own, and the
declaration without them.  If nodes for these take its place, the document is written as
before, and every node stands for tokens again.
-/

namespace Deflow

open Script

/-! ## Nodes in place of a changed declaration -/

/-- Comments, each on a line of its own. -/
def hoistedNodes (comments : List Comment) (lineEnd : Text) : List Node :=
  comments.flatMap fun comment => [.comment comment, .trivia lineEnd]

/-- A changed `import` without its comments, as if it had been read. -/
def ImportDeclaration.asRead (declaration : ImportDeclaration) (options : PrintOptions)
    (lineEnd : Text) : ImportDeclaration :=
  let bare := { declaration with comments := [] }
  { bare with written := some (bare.render options lineEnd) }

/-- A changed `export` without its comments, as if it had been read. -/
def ExportDeclaration.asRead (declaration : ExportDeclaration) (options : PrintOptions)
    (lineEnd : Text) : ExportDeclaration :=
  let bare := { declaration with comments := [] }
  { bare with written := some (bare.render options lineEnd) }

/-- The nodes that a node is written as. -/
def Node.renewed (options : PrintOptions) (lineEnd : Text) : Node → List Node
  | .importing declaration =>
    if declaration.written.isSome then [.importing declaration]
    else hoistedNodes declaration.comments lineEnd ++
      [.importing (declaration.asRead options lineEnd)]
  | .exporting declaration =>
    if declaration.written.isSome then [.exporting declaration]
    else hoistedNodes declaration.comments lineEnd ++
      [.exporting (declaration.asRead options lineEnd)]
  | node => [node]

theorem render_hoistedNodes (comments : List Comment) (options : PrintOptions) (lineEnd : Text) :
    (hoistedNodes comments lineEnd).flatMap (Node.render options lineEnd) =
      hoist comments lineEnd := by
  rw [hoistedNodes, hoist, List.flatMap_assoc]
  refine List.flatMap_congr fun comment _ => ?_
  simp [Node.render]

/-- A node is written as those that take its place. -/
theorem Node.render_renewed (node : Node) (options : PrintOptions) (lineEnd : Text) :
    (node.renewed options lineEnd).flatMap (Node.render options lineEnd) =
      node.render options lineEnd := by
  cases node with
  | importing declaration =>
      cases written : declaration.written with
      | some text => simp [Node.renewed, Node.render, written]
      | none =>
          simp only [Node.renewed, written, Option.isSome_none, Bool.false_eq_true, if_false,
            List.flatMap_append, render_hoistedNodes, Node.render, Option.getD_none]
          rw [List.flatMap_singleton]
          rfl
  | exporting declaration =>
      cases written : declaration.written with
      | some text => simp [Node.renewed, Node.render, written]
      | none =>
          simp only [Node.renewed, written, Option.isSome_none, Bool.false_eq_true, if_false,
            List.flatMap_append, render_hoistedNodes, Node.render, Option.getD_none]
          rw [List.flatMap_singleton]
          rfl
  | _ => exact List.flatMap_singleton ..

theorem comments_hoistedNodes (comments : List Comment) (lineEnd : Text) :
    (hoistedNodes comments lineEnd).flatMap Node.comments = comments := by
  rw [hoistedNodes, List.flatMap_assoc]
  exact (List.flatMap_congr fun comment _ => rfl).trans (List.flatMap_singleton' comments)

/-- The nodes that take the place of a node have its comments. -/
theorem Node.comments_renewed (node : Node) (options : PrintOptions) (lineEnd : Text) :
    (node.renewed options lineEnd).flatMap Node.comments = node.comments := by
  cases node with
  | importing declaration =>
      simp only [Node.renewed]
      split
      · exact List.flatMap_singleton ..
      · rw [List.flatMap_append, comments_hoistedNodes]
        exact List.append_nil _
  | exporting declaration =>
      simp only [Node.renewed]
      split
      · exact List.flatMap_singleton ..
      · rw [List.flatMap_append, comments_hoistedNodes]
        exact List.append_nil _
  | _ => exact List.flatMap_singleton ..

/-! ## Tokens in place of those of a changed declaration -/

theorem standing_hoistedNodes (comments : List Comment) (lineEnd : Text) :
    Standing (hoistedNodes comments lineEnd) (drawnComments comments lineEnd) := by
  induction comments with
  | nil => exact .nil
  | cons comment comments inductionHypothesis =>
      have spaced := @Standing.cons (.trivia lineEnd) _ _ _ .trivia inductionHypothesis
      exact @Standing.cons (.comment comment) _ [⟨comment.kind.token, comment.text⟩] _
        .comment spaced

/-- Tokens from the word of a declaration to a semicolon. -/
theorem StartsDeclaration.solid {tokens : List Token} (starts : StartsDeclaration tokens)
    (ends : [.punct ';'] <:+ tokens) : Solid tokens := by
  rcases starts.exists_cons with ⟨word, more, isStart, _⟩
  rcases ends with ⟨front, isEnd⟩
  exact ⟨⟨_, more, isStart, rfl⟩, ⟨front, _, isEnd.symm, rfl⟩⟩

/-- Hoisted comments and a declaration do not begin like an interpreter line. -/
theorem unmarked_drawnComments {comments : List Comment} {lineEnd : Text} {tokens : List Token}
    (lexemes : ∀ comment ∈ comments, IsLexeme ⟨comment.kind.token, comment.text⟩)
    (starts : StartsDeclaration tokens) :
    Unmarked (Token.spell (drawnComments comments lineEnd ++ tokens)) := by
  cases comments with
  | nil => rcases starts with ⟨more, rfl⟩ | ⟨more, rfl⟩ <;> rfl
  | cons comment comments =>
      have first := lexemes comment (.head _)
      rcases comment with ⟨kind, text⟩
      cases kind with
      | line =>
          cases first
          rfl
      | block =>
          cases first
          rfl

/-- Attributes can be copied if they hold no comments, and are read by themselves if they
were. -/
theorem Declaration.AttributeTokens.isAttributes {text : Text} {block tokens : List Token}
    (isTokens : AttributeTokens text tokens) (inside : tokens <:+: block)
    (lexemes : ∀ token ∈ block, token.kind = .identifier ∨ token.isComment = true → IsLexeme token)
    (noSlash : '/' ∉ text) :
    IsAttributes (some text) tokens ∧
      ∀ rest changed, Freestanding rest block → Freestanding changed tokens := by
  rcases inside with ⟨before, after, isBlock⟩
  rcases isTokens with ⟨spelled, ⟨first, more, isTokens, isWord⟩, ends⟩
  have startsFilled : StartsFilled tokens := ⟨first, more, isTokens, by simp [isWord]⟩
  refine ⟨⟨?_, fun _ => startsFilled, ?_⟩, fun rest changed free => ?_⟩
  · rw [isTokens] at spelled ⊢
    rw [spelled]
    rfl
  · -- A comment has a slash.
    refine List.filterMap_eq_nil_iff.mpr fun token member => ?_
    by_contra isComment
    rcases Option.ne_none_iff_exists'.mp isComment with ⟨comment, isComment⟩
    have inBlock : token ∈ block := by
      rw [← isBlock]
      simp [member]
    have inText : ∀ c ∈ token.text, c ∈ text := by
      rcases List.append_of_mem member with ⟨front, back, rfl⟩
      intro c inToken
      rw [spelled]
      simp [inToken]
    rcases token with ⟨kind, tokenText⟩
    apply noSlash
    cases kind with
    | lineComment =>
        cases lexemes _ inBlock (.inr rfl)
        exact inText '/' (.head _)
    | blockComment =>
        cases lexemes _ inBlock (.inr rfl)
        exact inText '/' (.head _)
    | _ => cases isComment
  · rw [← isBlock] at free
    rcases ends with ⟨front, rfl⟩
    have ofTokens := (freestanding_append.mp (freestanding_append.mp free).1).2
    exact ofTokens.of_last rfl

theorem Parts.From.exists_attributes {parts : Parts} {block : List Token} (taken : parts.From block)
    (lexemes : ∀ token ∈ block, token.kind = .identifier ∨ token.isComment = true → IsLexeme token)
    (noSlash : ∀ text ∈ parts.attributes, '/' ∉ text) :
    ∃ tokens, IsAttributes parts.attributes tokens ∧
      ∀ rest changed, Freestanding rest block → Freestanding changed tokens := by
  cases isText : parts.attributes with
  | none => exact ⟨[], ⟨rfl, by simp, rfl⟩, fun _ _ _ => trivial⟩
  | some text =>
      rcases taken.attributes text isText with ⟨tokens, inside, isTokens⟩
      exact ⟨tokens, isTokens.isAttributes inside lexemes (noSlash text isText)⟩

/-- Tokens can be drawn in place of those of a declaration, and nodes stand for them. -/
structure Renews (nodes : List Node) (block drawn : List Token) : Prop where
  standing : Standing nodes drawn
  free : ∀ rest changed, Freestanding rest block → Freestanding changed drawn
  head : Unmarked (Token.spell drawn)
  ends : [.punct ';'] <:+ drawn

/-- Comments and a declaration without them are drawn. -/
theorem renews_of_body {node : Node} {comments : List Comment} {lineEnd : Text}
    {block body : List Token} (covers : node.Covers body) (starts : StartsDeclaration body)
    (ends : [.punct ';'] <:+ body)
    (lexemes : ∀ comment ∈ comments, IsLexeme ⟨comment.kind.token, comment.text⟩)
    (free : ∀ rest changed, Freestanding rest block →
      Freestanding changed (drawnComments comments lineEnd ++ body)) :
    Renews (hoistedNodes comments lineEnd ++ [node]) block
      (drawnComments comments lineEnd ++ body) := by
  refine ⟨(standing_hoistedNodes comments lineEnd).append ?_, free,
    unmarked_drawnComments lexemes starts, ends.trans (List.suffix_append ..)⟩
  have standing := Standing.cons covers .nil
  rwa [List.append_nil] at standing

section

variable {block : List Token} {options : PrintOptions} {lineEnd : Text}

/-- The comments of a declaration are tokens of it. -/
theorem isLexeme_of_comments {comments : List Comment} (inside : comments ⊆ commentsOf block)
    (lexemes : ∀ token ∈ block, token.isComment = true → IsLexeme token) :
    ∀ comment ∈ comments, IsLexeme ⟨comment.kind.token, comment.text⟩ := by
  intro comment member
  rcases List.mem_filterMap.mp (inside member) with ⟨token, isToken, isComment⟩
  obtain rfl := comment?_eq_some_iff.mp isComment
  apply lexemes _ isToken
  cases comment.kind <;> rfl

/-- The names of a declaration are tokens of it. -/
theorem Parts.From.isLexeme_ofName {parts : Parts} (taken : parts.From block)
    (lexemes : ∀ token ∈ block, token.isName = true → IsLexeme token) :
    ∀ name ∈ parts.names, IsLexeme (.ofName name) := by
  intro name member
  rcases taken.names name member with ⟨token, isToken, isName, rfl⟩
  have lexeme := lexemes token isToken isName
  rwa [Token.ofName_text lexeme isName]

/-- The name of a module is a string in either quote. -/
theorem Parts.From.isLexeme_source {parts : Parts} (taken : parts.From block)
    (lexemes : ∀ token ∈ block, token.isName = true → IsLexeme token)
    (isQuote : options.quote = '"' ∨ options.quote = '\'') :
    ∀ literal ∈ parts.source, IsLexeme ⟨.string, literal.render options.quote⟩ := by
  intro literal isSource
  rcases taken.source literal isSource with ⟨⟨kind, text⟩, isToken, isString, rfl⟩
  obtain rfl : kind = .string := isString
  exact isLexeme_render (lexemes _ isToken rfl) isQuote

variable (isEnd : IsLineEnd lineEnd) (isQuote : options.quote = '"' ∨ options.quote = '\'')
  (lexemes : ∀ token ∈ block, token.kind = .identifier ∨ token.isComment = true → IsLexeme token)

include isEnd isQuote lexemes

/-- A changed `import` is drawn in place of the tokens that it was read from. -/
theorem ImportDeclaration.renews {declaration : ImportDeclaration}
    (changed : declaration.written = none) (taken : declaration.parts.From block)
    (comments : declaration.comments ⊆ commentsOf block) {attributes : List Token}
    (isAttributes : IsAttributes declaration.attributes attributes)
    (freeAttributes : ∀ rest changed, Freestanding rest block → Freestanding changed attributes) :
    Renews ((Node.importing declaration).renewed options lineEnd) block
      (declaration.drawn options lineEnd attributes) := by
  have identifiers : ∀ name ∈ declaration.parts.identifiers, IsLexeme ⟨.identifier, name⟩ :=
    fun name member => lexemes _ (taken.identifiers name member) (.inl rfl)
  have commentLexemes := isLexeme_of_comments comments fun token isToken isComment =>
    lexemes token isToken (.inr isComment)
  let bare := { declaration with comments := [] }
  have starts : StartsDeclaration (bare.drawn options lineEnd attributes) :=
    .inl (ImportDeclaration.prefix_drawn rfl ..)
  have ends := bare.suffix_drawn options lineEnd attributes
  have spelled := @ImportDeclaration.spell_drawn bare _ isAttributes identifiers options lineEnd
  have noComment := @ImportDeclaration.commentsOf_drawn bare _ isAttributes options lineEnd
  have covers : (Node.importing (declaration.asRead options lineEnd)).Covers
      (bare.drawn options lineEnd attributes) :=
    .importing (starts.solid ends) noComment.symm (congrArg some spelled.symm)
  rw [Node.renewed, if_neg (by simp [changed])]
  refine renews_of_body covers starts ends commentLexemes fun rest after free => ?_
  have all : ∀ token ∈ block, token.isName = true → IsLexeme token :=
    fun token isToken _ => free.lexeme token isToken
  exact ImportDeclaration.freestanding_drawn isEnd isAttributes
    (fun after => freeAttributes rest after free) identifiers (taken.isLexeme_ofName all)
    (taken.isLexeme_source all isQuote _ rfl) commentLexemes after

theorem ImportDeclaration.exists_renews {declaration : ImportDeclaration}
    (changed : declaration.written = none) (taken : declaration.parts.From block)
    (noSlash : ∀ text ∈ declaration.attributes, '/' ∉ text)
    (comments : declaration.comments ⊆ commentsOf block) :
    ∃ drawn, Renews ((Node.importing declaration).renewed options lineEnd) block drawn := by
  rcases taken.exists_attributes lexemes noSlash with ⟨attributes, isAttributes, freeAttributes⟩
  exact ⟨_, renews isEnd isQuote lexemes changed taken comments isAttributes freeAttributes⟩

/-- A changed `export` is drawn in place of the tokens that it was read from. -/
theorem ExportDeclaration.renews {declaration : ExportDeclaration}
    (changed : declaration.written = none) (taken : declaration.parts.From block)
    (comments : declaration.comments ⊆ commentsOf block) {attributes : List Token}
    (isAttributes : IsAttributes declaration.attributes attributes)
    (freeAttributes : ∀ rest changed, Freestanding rest block → Freestanding changed attributes) :
    Renews ((Node.exporting declaration).renewed options lineEnd) block
      (declaration.drawn options lineEnd attributes) := by
  have commentLexemes := isLexeme_of_comments comments fun token isToken isComment =>
    lexemes token isToken (.inr isComment)
  let bare := { declaration with comments := [] }
  have starts : StartsDeclaration (bare.drawn options lineEnd attributes) :=
    .inr (ExportDeclaration.prefix_drawn rfl ..)
  have ends := bare.suffix_drawn options lineEnd attributes
  have spelled := @ExportDeclaration.spell_drawn bare _ isAttributes options lineEnd
  have noComment := @ExportDeclaration.commentsOf_drawn bare _ isAttributes options lineEnd
  have covers : (Node.exporting (declaration.asRead options lineEnd)).Covers
      (bare.drawn options lineEnd attributes) :=
    .exporting (starts.solid ends) noComment.symm (congrArg some spelled.symm)
  rw [Node.renewed, if_neg (by simp [changed])]
  refine renews_of_body covers starts ends commentLexemes fun rest after free => ?_
  have all : ∀ token ∈ block, token.isName = true → IsLexeme token :=
    fun token isToken _ => free.lexeme token isToken
  exact ExportDeclaration.freestanding_drawn isEnd isAttributes
    (fun after => freeAttributes rest after free) (taken.isLexeme_ofName all)
    (taken.isLexeme_source all isQuote) commentLexemes after

theorem ExportDeclaration.exists_renews {declaration : ExportDeclaration}
    (changed : declaration.written = none) (taken : declaration.parts.From block)
    (noSlash : ∀ text ∈ declaration.attributes, '/' ∉ text)
    (comments : declaration.comments ⊆ commentsOf block) :
    ∃ drawn, Renews ((Node.exporting declaration).renewed options lineEnd) block drawn := by
  rcases taken.exists_attributes lexemes noSlash with ⟨attributes, isAttributes, freeAttributes⟩
  exact ⟨_, renews isEnd isQuote lexemes changed taken comments isAttributes freeAttributes⟩

end

end Deflow
