import Deflow.Proofs.Document.Grammar

/-!
# The outline of a document

`Standing` says which stretch of tokens a node stands for.  The outline adds what
the parser knew when it came to a stretch: which brackets were open, and for a
declaration also the words that made it.  Declarations have no bracket open around
them.
-/

namespace Deflow

open Script

/-! ## Brackets -/

/-- The brackets that are open behind a token, innermost first, unless the token
closes a bracket that is not the innermost. -/
def Script.Token.track? (openers : List Char) (token : Token) : Option (List Char) :=
  match token.kind, token.text with
  | .punctuation, c :: _ =>
    if isOpener c then some (c :: openers)
    else
      match openerOf? c, openers with
      | none, openers => some openers
      | some opener, innermost :: outer => if innermost = opener then some outer else none
      | some _, [] => none
  | _, _ => some openers

/-- The brackets that are open behind tokens. -/
def trackAll? (openers : List Char) (tokens : List Token) : Option (List Char) :=
  tokens.foldlM Token.track? openers

@[simp]
theorem trackAll?_cons (openers : List Char) (token : Token) (tokens : List Token) :
    trackAll? openers (token :: tokens) = (token.track? openers).bind (trackAll? · tokens) :=
  rfl

theorem trackAll?_append (openers : List Char) (first second : List Token) :
    trackAll? openers (first ++ second) = (trackAll? openers first).bind (trackAll? · second) :=
  List.foldlM_append

theorem Script.Token.track?_of_kind {token : Token} (kind : token.kind ≠ .punctuation)
    (openers : List Char) : token.track? openers = some openers := by
  obtain ⟨tokenKind, text⟩ := token
  cases tokenKind <;> first | rfl | exact absurd rfl kind

/-- Brackets are tracked by what they are. -/
theorem track?_of_trackToken {brackets behind : List OpenBracket} {token : PlacedToken}
    (tracked : trackToken brackets token = .ok behind) :
    token.track? (brackets.map OpenBracket.opener) = some (behind.map OpenBracket.opener) := by
  rcases token with ⟨⟨kind, text⟩, start⟩
  by_cases isSign : kind = .punctuation
  · subst isSign
    cases text with
    | nil =>
        cases tracked
        rfl
    | cons c more =>
        replace tracked : trackBracket brackets c start = .ok behind := tracked
        simp only [Token.track?]
        unfold trackBracket at tracked
        split at tracked
        · rename_i opens
          cases tracked
          rw [if_pos opens]
          rfl
        · rename_i notOpens
          rw [if_neg notOpens]
          split at tracked
          · rename_i noCloser
            cases tracked
            rw [noCloser]
          · rename_i opener innermost outer isCloser
            rw [isCloser]
            split at tracked
            · rename_i closes
              cases tracked
              exact if_pos closes
            · cases tracked
          · cases tracked
  · have unchanged : trackToken brackets ⟨⟨kind, text⟩, start⟩ = .ok brackets := by
      cases kind <;> first | rfl | exact absurd rfl isSign
    rw [unchanged] at tracked
    cases tracked
    exact Token.track?_of_kind isSign _

/-- Brackets that are tracked are known to the parser. -/
theorem exists_trackToken {brackets : List OpenBracket} {token : PlacedToken} {behind : List Char}
    (tracked : token.track? (brackets.map OpenBracket.opener) = some behind) :
    ∃ found, trackToken brackets token = .ok found ∧ found.map OpenBracket.opener = behind := by
  rcases token with ⟨⟨kind, text⟩, start⟩
  by_cases isSign : kind = .punctuation ∧ text ≠ []
  · rcases isSign with ⟨rfl, nonempty⟩
    rcases List.exists_cons_of_ne_nil nonempty with ⟨c, more, rfl⟩
    simp only [Token.track?] at tracked
    simp only [trackToken, trackBracket]
    split at tracked
    · rename_i opens
      cases tracked
      exact ⟨_, if_pos opens, rfl⟩
    · rename_i notOpens
      rw [if_neg notOpens]
      cases closer : openerOf? c with
      | none => exact ⟨brackets, rfl, by simpa [closer] using tracked⟩
      | some opener =>
          cases brackets with
          | nil => simp [closer] at tracked
          | cons innermost outer =>
              simp only [closer, List.map_cons] at tracked ⊢
              split at tracked
              · rename_i closes
                exact ⟨outer, if_pos closes, Option.some.inj tracked⟩
              · cases tracked
  · have passed : trackToken brackets ⟨⟨kind, text⟩, start⟩ = .ok brackets := by
      unfold trackToken
      split
      · simp_all
      · rfl
    have step := track?_of_trackToken passed
    rw [tracked] at step
    exact ⟨brackets, passed, (Option.some.inj step).symm⟩

/-! ## Declarations -/

/-- A node is the declaration that its words make in front of the words
`behind`.  Its list was read as it is. -/
inductive Node.Declares (behind : List Token) : Node → List Token → Prop
  | importing {declaration : ImportDeclaration} {block within : List Token}
      (covers : (Node.importing declaration).Covers (.word "import" :: block))
      (words : Declaration.ImportWords behind within declaration.bare (meaningful block))
      (among : Declaration.AttributesAmong declaration.attributes within block)
      (list : ∃ pieces rest read, Declaration.importDeclaration pieces = .ok (read, rest) ∧
        read.specifiers = declaration.specifiers) :
      Declares behind (.importing declaration) (.word "import" :: block)
  | exporting {declaration : ExportDeclaration} {block within : List Token}
      (covers : (Node.exporting declaration).Covers (.word "export" :: block))
      (words : Declaration.ExportWords behind within declaration.bare (meaningful block))
      (among : Declaration.AttributesAmong declaration.attributes within block)
      (list : ∃ pieces rest read, Declaration.exportDeclaration pieces = .ok (some read, rest) ∧
        read.specifiers = declaration.specifiers) :
      Declares behind (.exporting declaration) (.word "export" :: block)

theorem Node.Declares.covers {behind block : List Token} {node : Node}
    (declares : node.Declares behind block) : node.Covers block := by
  cases declares with
  | importing covers | exporting covers => exact covers

theorem Declaration.taken_append (front rest : List Piece) :
    Declaration.taken (front ++ rest) rest = front := by
  simp [Declaration.taken]

/-- What is recognised as a declaration is one by its words. -/
theorem declares_of_recognise {first : PlacedToken} {rest : List Piece} {recognised : Recognised}
    (found : recognise first rest = .ok (some recognised)) (meaning : first.isTrivia = false)
    (proper : ∀ piece ∈ rest, piece.Proper) :
    recognised.node.Declares (words (rest.drop recognised.size))
      (first.toToken :: (rest.take recognised.size).flatMap Piece.tokens) := by
  have covers := covers_of_recognise found meaning proper
  simp only [recognise, bind, Except.bind, pure, Except.pure] at found
  split at found
  · rename_i isImport
    split at found
    · cases found
    · rename_i result read
      obtain ⟨declaration, behind⟩ := result
      obtain ⟨taken, within, rfl, isWords, among⟩ :=
        Declaration.exists_of_importDeclaration read proper
      simp only [Declaration.taken_append, Except.ok.injEq, Option.some.injEq] at found
      subst found
      have isFirst : first.toToken = .word "import" :=
        Token.isWord_iff.mp (Bool.and_eq_true_iff.mp isImport).1
      simp only [Recognised.of, List.take_left, List.drop_left, isFirst] at covers ⊢
      have takenProper : ∀ piece ∈ taken, piece.Proper :=
        fun piece member => proper piece (List.mem_append_left _ member)
      rw [← meaningful_tokens takenProper] at isWords
      exact .importing covers isWords among ⟨_, _, _, read, rfl⟩
  · split at found
    · rename_i isExport
      split at found
      · cases found
      · rename_i result read
        split at found
        · cases found
        · rename_i declaration behind
          obtain ⟨taken, within, rfl, isWords, among⟩ :=
            Declaration.exists_of_exportDeclaration read proper
          simp only [Declaration.taken_append, Except.ok.injEq, Option.some.injEq] at found
          subst found
          have isFirst : first.toToken = .word "export" := Token.isWord_iff.mp isExport
          simp only [Recognised.of, List.take_left, List.drop_left, isFirst] at covers ⊢
          have takenProper : ∀ piece ∈ taken, piece.Proper :=
            fun piece member => proper piece (List.mem_append_left _ member)
          rw [← meaningful_tokens takenProper] at isWords
          exact .exporting covers isWords among ⟨_, _, _, read, rfl⟩
    · cases found

/-! ## Outlines -/

/-- Nodes outline tokens, where the brackets `openers` are open in front of
them. -/
inductive Outlined : (openers : List Char) → List Node → List Token → Prop
  | nil {openers : List Char} : Outlined openers [] []
  | trivia {openers : List Char} {node : Node} {nodes : List Node} {token : Token}
      {tokens : List Token} (isTrivia : token.isTrivia = true) (covers : node.Covers [token])
      (more : Outlined openers nodes tokens) : Outlined openers (node :: nodes) (token :: tokens)
  | code {openers behind : List Char} {nodes : List Node} {block tokens : List Token}
      (tracked : trackAll? openers block = some behind) (more : Outlined behind nodes tokens) :
      Outlined openers (.code (Token.spell block) :: nodes) (block ++ tokens)
  | declaration {node : Node} {nodes : List Node} {block tokens : List Token}
      (declares : node.Declares (meaningful tokens) block) (more : Outlined [] nodes tokens) :
      Outlined [] (node :: nodes) (block ++ tokens)

/-- White space and comments in front of nodes. -/
theorem Outlined.triviaNodes {openers : List Char} {nodes : List Node} {tokens : List Token}
    (outlined : Outlined openers nodes tokens) {trivia : List Token}
    (isTrivia : ∀ token ∈ trivia, token.isTrivia = true) :
    Outlined openers (Piece.triviaNodes trivia ++ nodes) (trivia ++ tokens) := by
  induction trivia with
  | nil => exact outlined
  | cons token trivia inductionHypothesis =>
      obtain ⟨first, others⟩ := List.forall_mem_cons.mp isTrivia
      obtain ⟨node, isNode, covers⟩ := triviaNodes_cons first trivia
      rw [isNode]
      exact .trivia first covers (inductionHypothesis others)

/-- Reading pieces adds nodes that outline the pieces. -/
theorem outlined_of_readPieces {finish : Position} {state result : ParseState} {skip : Nat}
    {pieces : List Piece} (read : readPieces finish state skip pieces = .ok result)
    (proper : ∀ piece ∈ pieces, piece.Proper) {tail : List Token}
    (isTrivia : ∀ token ∈ tail, token.isTrivia = true) :
    ∃ added, result.nodes.reverse = state.nodes.reverse ++ added ∧
      Outlined (state.brackets.map OpenBracket.opener) (added ++ Piece.triviaNodes tail)
        ((pieces.drop skip).flatMap Piece.tokens ++ tail) := by
  induction pieces generalizing state skip with
  | nil =>
      cases read
      refine ⟨[], by simp, ?_⟩
      simpa using Outlined.nil.triviaNodes isTrivia
  | cons piece pieces inductionHypothesis =>
      obtain ⟨first, others⟩ := List.forall_mem_cons.mp proper
      cases skip with
      | succ skip => exact inductionHypothesis read others
      | zero =>
          simp only [readPieces] at read
          split at read
          · cases read
          · rename_i recognised found
            unfold ParseState.recognise? at found
            split at found
            · rename_i atModuleLevel
              have noBrackets : state.brackets = [] :=
                List.isEmpty_iff.mp (Bool.and_eq_true_iff.mp atModuleLevel).1
              obtain ⟨added, isAdded, outlined⟩ := inductionHypothesis read others
              have declares := declares_of_recognise found first.token others
              have behind : meaningful
                  ((pieces.drop recognised.size).flatMap Piece.tokens ++ tail) =
                  words (pieces.drop recognised.size) :=
                meaningful_pieces (fun piece member => others piece (List.mem_of_mem_drop member))
                  isTrivia
              rw [← behind] at declares
              have all : (pieces.take recognised.size).flatMap Piece.tokens ++
                  (pieces.drop recognised.size).flatMap Piece.tokens =
                  pieces.flatMap Piece.tokens := by
                rw [← List.flatMap_append, List.take_append_drop]
              refine ⟨Piece.triviaNodes piece.lead ++ recognised.node :: added, ?_, ?_⟩
              · simpa [ParseState.pushDeclaration, ParseState.pushLead] using isAdded
              · rw [ParseState.pushDeclaration, ParseState.pushLead, noBrackets] at outlined
                rw [noBrackets]
                have whole := (Outlined.declaration declares outlined).triviaNodes first.lead
                simpa [Piece.tokens, ← all] using whole
            · cases found
          · split at read
            · cases read
            · rename_i brackets tracked
              obtain ⟨added, isAdded, outlined⟩ := inductionHypothesis read others
              have step : trackAll? (state.brackets.map OpenBracket.opener)
                  [piece.token.toToken] = some (brackets.map OpenBracket.opener) := by
                rw [trackAll?_cons, track?_of_trackToken tracked]
                rfl
              refine ⟨Piece.triviaNodes piece.lead ++ .code piece.token.text :: added, ?_, ?_⟩
              · simpa [ParseState.pushCode, ParseState.pushLead] using isAdded
              · have whole := (Outlined.code step outlined).triviaNodes first.lead
                simpa [Piece.tokens] using whole

/-! ## Joining code -/

theorem covers_code_of_trivia {text : Text} {token : Token} (isTrivia : token.isTrivia = true) :
    ¬(Node.code text).Covers [token] := by
  intro covers
  obtain ⟨solid, _, _⟩ := covers_code_iff.mp covers
  obtain ⟨first, more, same, meaning⟩ := solid.starts
  obtain ⟨rfl, _⟩ := List.cons.inj same
  simp [isTrivia] at meaning

theorem outlined_code_iff {openers : List Char} {text : Text} {nodes : List Node}
    {tokens : List Token} :
    Outlined openers (.code text :: nodes) tokens ↔
      ∃ block behind more, text = Token.spell block ∧ tokens = block ++ more ∧
        trackAll? openers block = some behind ∧ Outlined behind nodes more := by
  constructor
  · intro outlined
    cases outlined with
    | trivia isTrivia covers => exact absurd covers (covers_code_of_trivia isTrivia)
    | code tracked more => exact ⟨_, _, _, rfl, rfl, tracked, more⟩
    | declaration declares => cases declares
  · rintro ⟨block, behind, more, rfl, rfl, tracked, outlined⟩
    exact .code tracked outlined

theorem outlined_trivia_iff {openers : List Char} {text : Text} {nodes : List Node}
    {tokens : List Token} :
    Outlined openers (.trivia text :: nodes) tokens ↔
      ∃ more, tokens = ⟨.whitespace, text⟩ :: more ∧ Outlined openers nodes more := by
  constructor
  · intro outlined
    cases outlined with
    | trivia isTrivia covers more =>
        obtain ⟨rfl, _⟩ := List.cons.inj (covers_trivia_iff.mp covers)
        exact ⟨_, rfl, more⟩
    | declaration declares => cases declares
  · rintro ⟨more, rfl, outlined⟩
    exact .trivia rfl .trivia outlined

/-- Code that is joined has the same outline. -/
theorem Outlined.prepend {openers : List Char} {node : Node} {nodes : List Node}
    {tokens : List Token} (outlined : Outlined openers (node :: nodes) tokens) :
    Outlined openers (node.prepend nodes) tokens := by
  unfold Node.prepend
  split
  · obtain ⟨block, behind, _, rfl, rfl, tracked, next⟩ := outlined_code_iff.mp outlined
    obtain ⟨nextBlock, after, more, rfl, rfl, nextTracked, rest⟩ := outlined_code_iff.mp next
    refine outlined_code_iff.mpr ⟨block ++ nextBlock, after, more, by simp, by simp, ?_, rest⟩
    rw [trackAll?_append, tracked]
    exact nextTracked
  · rename_i space next nodes
    obtain ⟨block, behind, _, rfl, rfl, tracked, spaced⟩ := outlined_code_iff.mp outlined
    obtain ⟨_, rfl, next⟩ := outlined_trivia_iff.mp spaced
    obtain ⟨nextBlock, after, more, rfl, rfl, nextTracked, rest⟩ := outlined_code_iff.mp next
    refine outlined_code_iff.mpr ⟨block ++ ⟨.whitespace, space⟩ :: nextBlock, after, more,
      by simp, by simp, ?_, rest⟩
    rw [trackAll?_append, tracked]
    exact nextTracked
  · exact outlined

theorem Outlined.joinCode {openers : List Char} {nodes : List Node} {tokens : List Token}
    (outlined : Outlined openers nodes tokens) : Outlined openers (Node.joinCode nodes) tokens := by
  induction outlined with
  | nil => exact .nil
  | trivia isTrivia covers more inductionHypothesis =>
      exact (Outlined.trivia isTrivia covers inductionHypothesis).prepend
  | code tracked more inductionHypothesis =>
      exact (Outlined.code tracked inductionHypothesis).prepend
  | declaration declares more inductionHypothesis =>
      exact (Outlined.declaration declares inductionHypothesis).prepend

/-! ## Whole documents -/

theorem outlined_of_ofTokens {tokens : List Token} {document : Document}
    (built : Document.ofTokens tokens = .ok document) : Outlined [] document.nodes tokens := by
  simp only [Document.ofTokens, bind, Except.bind, pure, Except.pure] at built
  split at built
  · cases built
  · rename_i state read
    split at built
    · cases built
      obtain ⟨proper, isTrivia⟩ := proper_group (Token.place .start tokens)
      obtain ⟨added, isAdded, outlined⟩ := outlined_of_readPieces read proper isTrivia
      rw [List.drop_zero, tokens_group, map_toToken_place] at outlined
      simp only [isAdded]
      exact outlined.joinCode
    · cases built

/-- The nodes of a document outline the tokens of its source text, and in front of
them no bracket is open. -/
theorem outlined_of_parse {source : Text} {document : Document} {tokens : List Token}
    (parsed : Document.parse source = .ok document) (scanned : tokenize source = .ok tokens) :
    Outlined [] document.nodes tokens := by
  simp only [Document.parse, tokensOf, scanned, bind, Except.bind] at parsed
  exact outlined_of_ofTokens parsed

end Deflow
