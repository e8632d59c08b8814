import Deflow.Proofs.Document.Standing
import Deflow.Proofs.Script.Rescan

/-!
# Words and bare declarations

The grammar looks at the tokens that mean something.  White space, comments and
positions come along, and they only show in what is remembered of the layout: the
text a declaration was written as, its comments, the text of its attributes, and
whether its list stood on several lines.  The words of pieces are their tokens
without what comes along, and a declaration is bare without its layout.
-/

namespace Deflow

open Script

/-! ## Words -/

/-- The tokens of pieces without what comes along. -/
def words (pieces : List Piece) : List Token :=
  pieces.map fun piece => piece.token.toToken

@[simp]
theorem words_nil : words [] = [] :=
  rfl

@[simp]
theorem words_cons (piece : Piece) (pieces : List Piece) :
    words (piece :: pieces) = piece.token.toToken :: words pieces :=
  rfl

@[simp]
theorem words_append (first second : List Piece) :
    words (first ++ second) = words first ++ words second :=
  List.map_append

/-- Pieces are found from the tokens that mean something. -/
theorem words_group (tokens : List PlacedToken) :
    words (Piece.group tokens).1 = meaningful (tokens.map PlacedToken.toToken) := by
  induction tokens with
  | nil => rfl
  | cons token tokens inductionHypothesis =>
      rw [Piece.group, List.foldr_cons, ← Piece.group]
      revert inductionHypothesis
      generalize Piece.group tokens = grouped
      obtain ⟨pieces, tail⟩ := grouped
      intro inductionHypothesis
      simp only [Piece.attach]
      by_cases trivia : token.isTrivia = true
      · rw [if_pos trivia]
        cases pieces <;> simpa [words, meaningful, trivia] using inductionHypothesis
      · rw [if_neg trivia]
        simpa [words, meaningful, trivia] using inductionHypothesis

/-! ## Bare declarations -/

/-- An `import` without its layout. -/
structure BareImport where
  kind : BindingKind
  defaultName : Option Text
  namespaceName : Option Text
  specifiers : Option (List Specifier)
  source : StringLiteral
  hasAttributes : Bool

/-- An `import` without its layout. -/
def ImportDeclaration.bare (declaration : ImportDeclaration) : BareImport where
  kind := declaration.kind
  defaultName := declaration.defaultName
  namespaceName := declaration.namespaceName
  specifiers := declaration.specifiers.map SpecifierList.items
  source := declaration.source
  hasAttributes := declaration.attributes.isSome

/-- An `export` without its layout. -/
structure BareExport where
  kind : BindingKind
  specifiers : List Specifier
  source : Option StringLiteral
  hasAttributes : Bool

/-- An `export` without its layout. -/
def ExportDeclaration.bare (declaration : ExportDeclaration) : BareExport where
  kind := declaration.kind
  specifiers := declaration.specifiers.items
  source := declaration.source
  hasAttributes := declaration.attributes.isSome

/-- The declaration that a node is, without its layout. -/
def Node.bare? : Node → Option (BareImport ⊕ BareExport)
  | .importing declaration => some (.inl declaration.bare)
  | .exporting declaration => some (.inr declaration.bare)
  | _ => none

/-- The declarations among nodes, without their layout. -/
def bareDeclarations (nodes : List Node) : List (BareImport ⊕ BareExport) :=
  nodes.filterMap Node.bare?

/-- Trivia are no declarations. -/
theorem bareDeclarations_triviaNodes (trivia : List Token) :
    bareDeclarations (Piece.triviaNodes trivia) = [] := by
  refine List.filterMap_eq_nil_iff.mpr fun node member => ?_
  obtain ⟨token, _, rfl⟩ := List.mem_map.mp member
  split <;> rfl

theorem bareDeclarations_pushLead (state : ParseState) (piece : Piece) :
    bareDeclarations (state.pushLead piece).nodes = bareDeclarations state.nodes := by
  have noneInLead := bareDeclarations_triviaNodes piece.lead
  simp only [bareDeclarations, ParseState.pushLead, List.filterMap_append,
    List.filterMap_reverse] at noneInLead ⊢
  rw [noneInLead]
  rfl

/-- Joining code changes no other nodes than code and white space. -/
theorem filterMap_joinCode {β : Type} {f : Node → Option β} (ofCode : ∀ text, f (.code text) = none)
    (ofTrivia : ∀ text, f (.trivia text) = none) (nodes : List Node) :
    (Node.joinCode nodes).filterMap f = nodes.filterMap f := by
  induction nodes with
  | nil => rfl
  | cons node nodes inductionHypothesis =>
      rw [Node.joinCode, List.foldr_cons, ← Node.joinCode]
      have ofPrepend (nodes : List Node) :
          (node.prepend nodes).filterMap f = (node :: nodes).filterMap f := by
        unfold Node.prepend
        split <;> simp [ofCode, ofTrivia]
      rw [ofPrepend, List.filterMap_cons, List.filterMap_cons, inductionHypothesis]

/-- Joining code changes no declaration. -/
theorem bareDeclarations_joinCode (nodes : List Node) :
    bareDeclarations (Node.joinCode nodes) = bareDeclarations nodes :=
  filterMap_joinCode (fun _ => rfl) (fun _ => rfl) nodes

/-- The nodes that the parser has found in the end have its declarations. -/
theorem bareDeclarations_result (state : ParseState) (tail : List Token) :
    bareDeclarations (Node.joinCode (state.nodes.reverse ++ Piece.triviaNodes tail)) =
      (bareDeclarations state.nodes).reverse := by
  have noneInTail := bareDeclarations_triviaNodes tail
  rw [bareDeclarations_joinCode, bareDeclarations, List.filterMap_append, ← bareDeclarations,
    ← bareDeclarations, noneInTail, List.append_nil, bareDeclarations, List.filterMap_reverse]
  rfl

end Deflow
