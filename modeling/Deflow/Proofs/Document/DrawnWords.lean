import Deflow.Proofs.Document.ModuleGrammar
import Deflow.Proofs.Document.RoundTrip

/-!
# The words of declarations that are drawn

A declaration that is drawn ends with a semicolon, so that its words make it in front of
whatever follows.  The name of its module may have changed quotes, and comments that are
hoisted add no words.
-/

namespace Deflow

open Script

/-! ## Words of what is drawn -/

theorem meaningful_drawnComments (comments : List Comment) (lineEnd : Text) :
    meaningful (drawnComments comments lineEnd) = [] := by
  apply meaningful_of_trivia
  intro token member
  rcases List.mem_flatMap.mp member with ⟨comment, _, isToken⟩
  simp only [List.mem_cons, List.not_mem_nil, or_false] at isToken
  rcases isToken with rfl | rfl
  · cases comment.kind <;> rfl
  · rfl

theorem meaningful_drawnModule (binds : Bool) (literal : StringLiteral) (options : PrintOptions) :
    meaningful (drawnModule binds literal options) =
      (if binds then [.word "from"] else []) ++ [⟨.string, literal.render options.quote⟩] := by
  cases binds <;> rfl

/-- The words of an `import` that is drawn. -/
theorem ImportDeclaration.meaningful_drawn (declaration : ImportDeclaration)
    (options : PrintOptions) (lineEnd : Text) (attributes : List Token) :
    meaningful (declaration.drawn options lineEnd attributes) =
      .word "import" :: (declaration.kind.words ++
        (meaningful (declaration.drawnBindings options lineEnd
            (declaration.fits options attributes)) ++
          ((if declaration.binds then [.word "from"] else []) ++
            ⟨.string, declaration.source.render options.quote⟩ ::
              (meaningful attributes ++ [.punct ';'])))) := by
  rw [drawn_eq]
  simp [drawnThrough, drawnHead, meaningful_drawnComments, meaningful_drawnKind,
    meaningful_drawnModule, meaningful_drawnAttributes]

/-- The words of an `export` that is drawn. -/
theorem ExportDeclaration.meaningful_drawn (declaration : ExportDeclaration)
    (options : PrintOptions) (lineEnd : Text) (attributes : List Token) :
    meaningful (declaration.drawn options lineEnd attributes) =
      .word "export" :: (declaration.kind.words ++ .punct '\x7b' ::
        (meaningful (declaration.specifiers.drawnInside options lineEnd
            (declaration.fits options attributes)) ++
          (meaningful (declaration.drawnModule options) ++
            (meaningful (declaration.drawnAttributes attributes) ++ [.punct ';'])))) := by
  rw [drawn_eq]
  simp [drawnThrough, drawnHead, meaningful_drawnComments, meaningful_drawnKind]

/-! ## Attributes -/

namespace Declaration

/-- Attributes in front of a semicolon are those in front of it and anything else. -/
theorem AttributeWords.before_semicolon {has : Bool} {tokens : List Token}
    (isWords : AttributeWords [.punct ';'] has tokens) (behind : List Token) :
    AttributeWords ([.punct ';'] ++ behind) has tokens := by
  cases isWords with
  | absent =>
      apply AttributeWords.absent
      cases behind <;> rfl
  | present isWord inner => exact .present isWord inner

/-- Attributes are copied with the words that make them. -/
theorem AttributesAmong.exists_copy {attributes : Option Text} {within block : List Token}
    (among : AttributesAmong attributes within block)
    (isWords : ∃ ending has, AttributeWords ending has within)
    (lexemes : ∀ token ∈ block, token.kind = .identifier ∨ token.isComment = true → IsLexeme token)
    (noSlash : ∀ text ∈ attributes, '/' ∉ text) :
    ∃ tokens, IsAttributes attributes tokens ∧
      (∀ rest changed, Freestanding rest block → Freestanding changed tokens) ∧
      AttributeWords [.punct ';'] attributes.isSome (meaningful tokens) := by
  cases attributes with
  | none => exact ⟨[], ⟨rfl, by simp, rfl⟩, fun _ _ _ => trivial, .absent rfl⟩
  | some text =>
      rcases among.present text rfl with ⟨tokens, inside, isTokens, rfl⟩
      rcases isTokens.isAttributes inside lexemes (noSlash text rfl) with ⟨isAttributes, free⟩
      refine ⟨tokens, isAttributes, free, ?_⟩
      rcases isTokens.starts with ⟨first, more, rfl, isWord⟩
      rw [meaningful_cons (by simp [Token.isTrivia, isWord])] at isWords ⊢
      rcases isWords with ⟨ending, has, isWords⟩
      generalize isWithin : first :: meaningful more = within at isWords ⊢
      cases isWords with
      | absent => cases isWithin
      | present isWord inner => exact .present isWord inner

end Declaration

/-! ## Declarations -/

/-- An `import` without its layout, where the name of its module is in some quotes. -/
def BareImport.requote (bare : BareImport) (quote : Char) : BareImport :=
  { bare with source := bare.source.requote quote }

/-- An `export` without its layout, where the name of its module is in some quotes. -/
def BareExport.requote (bare : BareExport) (quote : Char) : BareExport :=
  { bare with source := bare.source.map (·.requote quote) }

section

variable {options : PrintOptions} {lineEnd : Text} {attributes : List Token}

/-- The words of an `import` that is drawn make it, whatever follows. -/
theorem ImportDeclaration.declarationWords_drawn {declaration : ImportDeclaration}
    (single : declaration.namespaceName = none ∨ declaration.specifiers = none)
    (bare : declaration.binds = false → declaration.kind = .value)
    (bindings : ∀ list ∈ declaration.specifiers, ∀ item ∈ list.items,
      Declaration.BindingWords item (meaningful item.drawn))
    (isAttributes : Declaration.AttributeWords [.punct ';'] declaration.attributes.isSome
      (meaningful attributes))
    (behind : List Token) :
    DeclarationWords behind (.inl (declaration.bare.requote options.quote))
      (meaningful (declaration.drawn options lineEnd attributes)) := by
  have hasAttributes := isAttributes.before_semicolon behind
  rw [meaningful_drawn]
  apply DeclarationWords.importing
  cases binds : declaration.binds with
  | true =>
      have clauses := Declaration.clauseWords_drawnBindings options lineEnd
        (declaration.fits options attributes) declaration.kind single binds bindings
      have isWords := @Declaration.ImportWords.bindings _ _ _ _ _ _
        ⟨.string, declaration.source.render options.quote⟩ _ _ _ clauses rfl
        hasAttributes .semicolon
      rw [literalOf_render] at isWords
      exact isWords
  | false =>
      have noBindings : declaration.drawnClauses = [] ∧ declaration.specifiers = none := by
        simpa [ImportDeclaration.binds] using binds
      have noNames : declaration.defaultName = none ∧ declaration.namespaceName = none := by
        simpa [drawnClauses] using noBindings.1
      have isWords := @Declaration.ImportWords.bare _ _
        ⟨.string, declaration.source.render options.quote⟩ _ _ rfl hasAttributes .semicolon
      rw [literalOf_render] at isWords
      simpa [BareImport.requote, ImportDeclaration.bare, drawnBindings, noBindings, noNames,
        bare binds, BindingKind.words] using isWords

/-- The words of an `export` that is drawn make it, whatever follows. -/
theorem ExportDeclaration.declarationWords_drawn {declaration : ExportDeclaration}
    (own : declaration.source = none → declaration.attributes = none)
    (bindings : ∀ item ∈ declaration.specifiers.items,
      Declaration.BindingWords item (meaningful item.drawn))
    (isAttributes : Declaration.AttributeWords [.punct ';'] declaration.attributes.isSome
      (meaningful attributes))
    (behind : List Token) :
    DeclarationWords behind (.inr (declaration.bare.requote options.quote))
      (meaningful (declaration.drawn options lineEnd attributes)) := by
  have isList := Declaration.listWords_drawnInside options lineEnd
    (declaration.fits options attributes) bindings
  rw [meaningful_drawn]
  cases isSource : declaration.source with
  | none =>
      have noSource : ([Token.punct ';'] ++ behind).head? ≠ some (.word "from") := by
        simp [Token.punct, Token.word]
      have isWords := @Declaration.ExportWords.own behind [] declaration.kind _ _ _ isList noSource
        rfl .semicolon
      apply DeclarationWords.exporting
      simpa [BareExport.requote, ExportDeclaration.bare, drawnModule, drawnAttributes, isSource,
        own isSource] using isWords
  | some literal =>
      have hasAttributes := isAttributes.before_semicolon behind
      have isWords := @Declaration.ExportWords.reexport _ _ declaration.kind _
        ⟨.string, literal.render options.quote⟩ _ _ _ isList rfl hasAttributes .semicolon
      rw [literalOf_render] at isWords
      apply DeclarationWords.exporting
      simpa [BareExport.requote, ExportDeclaration.bare, drawnModule, drawnAttributes, isSource,
        meaningful_drawnModule, meaningful_drawnAttributes] using isWords

end

end Deflow
