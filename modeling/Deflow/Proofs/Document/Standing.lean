import Deflow.Document.Parse
import Deflow.Document.Print
import Deflow.Proofs.Script.Tiling

/-!
# What the nodes of a document stand for

Every node of a document that was read stands for a stretch of tokens: white
space and comments for one token each, code and declarations for a stretch that
begins and ends with a token that means something.  The stretches follow each
other as the nodes do, and together they are the tokens of the source text.  A
document that was only read is therefore written as its source text again.
-/

namespace Deflow

open Script

/-! ## Stretches of tokens -/

/-- Tokens that begin and end with a token that means something. -/
structure Solid (tokens : List Token) : Prop where
  starts : ∃ first more, tokens = first :: more ∧ first.isTrivia = false
  ends : ∃ front last, tokens = front ++ [last] ∧ last.isTrivia = false

theorem Solid.singleton {token : Token} (meaning : token.isTrivia = false) : Solid [token] :=
  ⟨⟨token, [], rfl, meaning⟩, ⟨[], token, rfl, meaning⟩⟩

/-- Whatever stands between two solid stretches, the whole is solid. -/
theorem Solid.append {first second : List Token} (firstSolid : Solid first)
    (between : List Token) (secondSolid : Solid second) : Solid (first ++ (between ++ second)) := by
  obtain ⟨head, more, rfl, headMeaning⟩ := firstSolid.starts
  obtain ⟨front, last, rfl, lastMeaning⟩ := secondSolid.ends
  exact ⟨⟨head, _, rfl, headMeaning⟩,
    ⟨head :: more ++ (between ++ front), last, by simp, lastMeaning⟩⟩

/-- The kind of token that a comment is. -/
def CommentKind.token : CommentKind → TokenKind
  | .line => .lineComment
  | .block => .blockComment

/-- The comments among tokens. -/
def commentsOf (tokens : List Token) : List Comment :=
  tokens.filterMap Piece.comment?

@[simp]
theorem commentsOf_append (first second : List Token) :
    commentsOf (first ++ second) = commentsOf first ++ commentsOf second :=
  List.filterMap_append

/-- A token is a comment if it is one by its kind. -/
theorem comment?_eq_some_iff {token : Token} {comment : Comment} :
    Piece.comment? token = some comment ↔ token = ⟨comment.kind.token, comment.text⟩ := by
  obtain ⟨kind, text⟩ := token
  obtain ⟨commentKind, commentText⟩ := comment
  cases kind <;> cases commentKind <;> simp [Piece.comment?, CommentKind.token]

/-- A token that means something is no comment. -/
theorem comment?_eq_none {token : Token} (meaning : token.isTrivia = false) :
    Piece.comment? token = none := by
  obtain ⟨kind, text⟩ := token
  cases kind <;> simp_all [Piece.comment?, Token.isTrivia]

/-! ## Nodes -/

/-- A node stands for tokens. -/
inductive Node.Covers : Node → List Token → Prop
  | trivia {text : Text} : Covers (.trivia text) [⟨.whitespace, text⟩]
  | comment {own : Comment} : Covers (.comment own) [⟨own.kind.token, own.text⟩]
  | code {tokens : List Token} (solid : Solid tokens) (noComment : commentsOf tokens = []) :
      Covers (.code (Token.spell tokens)) tokens
  | importing {declaration : ImportDeclaration} {tokens : List Token} (solid : Solid tokens)
      (comments : declaration.comments = commentsOf tokens)
      (written : declaration.written = some (Token.spell tokens)) :
      Covers (.importing declaration) tokens
  | exporting {declaration : ExportDeclaration} {tokens : List Token} (solid : Solid tokens)
      (comments : declaration.comments = commentsOf tokens)
      (written : declaration.written = some (Token.spell tokens)) :
      Covers (.exporting declaration) tokens

/-- Nodes stand, one after the other, for tokens. -/
inductive Standing : List Node → List Token → Prop
  | nil : Standing [] []
  | cons {node : Node} {nodes : List Node} {block tokens : List Token} (covers : node.Covers block)
      (more : Standing nodes tokens) : Standing (node :: nodes) (block ++ tokens)

theorem covers_trivia_iff {text : Text} {tokens : List Token} :
    (Node.trivia text).Covers tokens ↔ tokens = [⟨.whitespace, text⟩] := by
  constructor
  · rintro ⟨⟩
    rfl
  · rintro rfl
    exact .trivia

theorem covers_code_iff {text : Text} {tokens : List Token} :
    (Node.code text).Covers tokens ↔
      Solid tokens ∧ commentsOf tokens = [] ∧ text = Token.spell tokens := by
  constructor
  · rintro ⟨⟩
    exact ⟨by assumption, by assumption, rfl⟩
  · rintro ⟨solid, noComment, rfl⟩
    exact .code solid noComment

theorem standing_cons_iff {node : Node} {nodes : List Node} {tokens : List Token} :
    Standing (node :: nodes) tokens ↔
      ∃ block more, tokens = block ++ more ∧ node.Covers block ∧ Standing nodes more := by
  constructor
  · rintro ⟨⟩
    exact ⟨_, _, rfl, by assumption, by assumption⟩
  · rintro ⟨block, more, rfl, covers, standing⟩
    exact .cons covers standing

theorem Standing.append {firstNodes secondNodes : List Node} {first second : List Token}
    (firstStanding : Standing firstNodes first) (secondStanding : Standing secondNodes second) :
    Standing (firstNodes ++ secondNodes) (first ++ second) := by
  induction firstStanding with
  | nil => exact secondStanding
  | cons covers more inductionHypothesis =>
      rw [List.cons_append, List.append_assoc]
      exact .cons covers inductionHypothesis

/-- What a node is written as is what its tokens spell. -/
theorem Node.Covers.render_eq {node : Node} {tokens : List Token} (covers : node.Covers tokens)
    (options : PrintOptions) (lineEnd : Text) :
    node.render options lineEnd = Token.spell tokens := by
  cases covers with
  | trivia => simp [Node.render]
  | comment => simp [Node.render]
  | code solid noComment => rfl
  | importing solid comments written => simp [Node.render, written]
  | exporting solid comments written => simp [Node.render, written]

theorem Node.Covers.written?_eq {node : Node} {tokens : List Token} (covers : node.Covers tokens) :
    node.written? = some (Token.spell tokens) := by
  cases covers with
  | trivia | comment => simp [Node.written?]
  | code => rfl
  | importing solid comments written | exporting solid comments written => exact written

theorem Node.Covers.comments_eq {node : Node} {tokens : List Token} (covers : node.Covers tokens) :
    node.comments = commentsOf tokens := by
  cases covers with
  | trivia => rfl
  | @comment own =>
      rw [commentsOf, List.filterMap_cons_some (comment?_eq_some_iff.mpr rfl)]
      rfl
  | code solid noComment => exact noComment.symm
  | importing solid comments written | exporting solid comments written => exact comments

/-- The comments of nodes are those among their tokens. -/
theorem Standing.flatMap_comments {nodes : List Node} {tokens : List Token}
    (standing : Standing nodes tokens) : nodes.flatMap Node.comments = commentsOf tokens := by
  induction standing with
  | nil => rfl
  | cons covers more inductionHypothesis =>
      rw [List.flatMap_cons, commentsOf_append, inductionHypothesis, covers.comments_eq]

/-- Every node stands for some of the tokens. -/
theorem Standing.covers_of_mem {nodes : List Node} {tokens : List Token}
    (standing : Standing nodes tokens) :
    ∀ node ∈ nodes, ∃ block, block <:+: tokens ∧ node.Covers block := by
  induction standing with
  | nil => simp
  | @cons node nodes block tokens covers more inductionHypothesis =>
      intro other member
      rcases List.mem_cons.mp member with rfl | later
      · exact ⟨block, (List.prefix_append ..).isInfix, covers⟩
      · rcases inductionHypothesis other later with ⟨otherBlock, inside, otherCovers⟩
        exact ⟨otherBlock, inside.trans (List.suffix_append ..).isInfix, otherCovers⟩

/-- Nodes are written as their tokens are spelled. -/
theorem Standing.render_eq {nodes : List Node} {tokens : List Token}
    (standing : Standing nodes tokens) (options : PrintOptions) (lineEnd : Text) :
    nodes.flatMap (Node.render options lineEnd) = Token.spell tokens := by
  induction standing with
  | nil => rfl
  | cons covers more inductionHypothesis =>
      rw [List.flatMap_cons, covers.render_eq, inductionHypothesis, Token.spell_append]

/-- A document is written as its tokens are spelled. -/
theorem Standing.print_eq {document : Document} {tokens : List Token}
    (standing : Standing document.nodes tokens) (options : PrintOptions) :
    document.print options = Token.spell tokens :=
  standing.render_eq options document.lineEnd

/-! ## Joining code -/

/-- Code joined to code over tokens that hold no comment. -/
theorem Node.Covers.join {first second : Text} {firstTokens secondTokens between : List Token}
    (firstCovers : (Node.code first).Covers firstTokens)
    (secondCovers : (Node.code second).Covers secondTokens) (noComment : commentsOf between = []) :
    (Node.code (first ++ Token.spell between ++ second)).Covers
      (firstTokens ++ (between ++ secondTokens)) := by
  obtain ⟨firstSolid, firstNoComment, rfl⟩ := covers_code_iff.mp firstCovers
  obtain ⟨secondSolid, secondNoComment, rfl⟩ := covers_code_iff.mp secondCovers
  refine covers_code_iff.mpr ⟨firstSolid.append between secondSolid, ?_, by simp⟩
  simp [firstNoComment, noComment, secondNoComment]

/-- Code that is joined stands for the same tokens. -/
theorem Standing.prepend {node : Node} {nodes : List Node} {block tokens : List Token}
    (covers : node.Covers block) (standing : Standing nodes tokens) :
    Standing (node.prepend nodes) (block ++ tokens) := by
  unfold Node.prepend
  split
  · rename_i text next nodes
    obtain ⟨nextBlock, more, rfl, nextCovers, behindCode⟩ := standing_cons_iff.mp standing
    have joined := @Node.Covers.join _ _ _ _ [] covers nextCovers rfl
    rw [← List.append_assoc]
    exact .cons (by simpa using joined) behindCode
  · rename_i text space next nodes
    obtain ⟨spaceBlock, behind, rfl, spaceCovers, behindSpace⟩ := standing_cons_iff.mp standing
    obtain ⟨nextBlock, more, rfl, nextCovers, behindCode⟩ := standing_cons_iff.mp behindSpace
    obtain rfl := covers_trivia_iff.mp spaceCovers
    have joined := @Node.Covers.join _ _ _ _ [⟨.whitespace, space⟩] covers nextCovers rfl
    rw [← List.append_assoc [_], ← List.append_assoc block]
    exact .cons (by simpa using joined) behindCode
  · exact .cons covers standing

theorem Standing.joinCode {nodes : List Node} {tokens : List Token}
    (standing : Standing nodes tokens) : Standing (Node.joinCode nodes) tokens := by
  induction standing with
  | nil => exact .nil
  | cons covers more inductionHypothesis => exact inductionHypothesis.prepend covers

/-! ## Pieces -/

/-- The tokens of a piece. -/
def Piece.tokens (piece : Piece) : List Token :=
  piece.lead ++ [piece.token.toToken]

/-- A piece is trivia and a token that is none. -/
structure Piece.Proper (piece : Piece) : Prop where
  lead : ∀ token ∈ piece.lead, token.isTrivia = true
  token : piece.token.isTrivia = false

/-- A token of trivia becomes a node that covers it. -/
theorem triviaNodes_cons {token : Token} (isTrivia : token.isTrivia = true) (trivia : List Token) :
    ∃ node, Piece.triviaNodes (token :: trivia) = node :: Piece.triviaNodes trivia ∧
      node.Covers [token] := by
  rcases token with ⟨kind, text⟩
  cases kind with
  | whitespace => exact ⟨_, rfl, .trivia⟩
  | lineComment => exact ⟨_, rfl, @Node.Covers.comment ⟨.line, text⟩⟩
  | blockComment => exact ⟨_, rfl, @Node.Covers.comment ⟨.block, text⟩⟩
  | _ => contradiction

/-- Trivia become nodes that stand for them. -/
theorem standing_triviaNodes {trivia : List Token}
    (isTrivia : ∀ token ∈ trivia, token.isTrivia = true) :
    Standing (Piece.triviaNodes trivia) trivia := by
  induction trivia with
  | nil => exact .nil
  | cons token trivia inductionHypothesis =>
      obtain ⟨first, others⟩ := List.forall_mem_cons.mp isTrivia
      obtain ⟨node, isNode, covers⟩ := triviaNodes_cons first trivia
      rw [isNode]
      exact @Standing.cons _ _ [_] _ covers (inductionHypothesis others)

/-- Grouping loses no token. -/
theorem tokens_group (tokens : List PlacedToken) :
    (Piece.group tokens).1.flatMap Piece.tokens ++ (Piece.group tokens).2 =
      tokens.map PlacedToken.toToken := by
  induction tokens with
  | nil => rfl
  | cons token tokens inductionHypothesis =>
      rw [Piece.group, List.foldr_cons, ← Piece.group, List.map_cons, ← inductionHypothesis]
      generalize Piece.group tokens = grouped
      obtain ⟨pieces, tail⟩ := grouped
      simp only [Piece.attach]
      split
      · cases pieces <;> simp [Piece.tokens]
      · simp [Piece.tokens]

/-- Grouping makes proper pieces, and leaves only trivia behind them. -/
theorem proper_group (tokens : List PlacedToken) :
    (∀ piece ∈ (Piece.group tokens).1, piece.Proper) ∧
      ∀ token ∈ (Piece.group tokens).2, token.isTrivia = true := by
  induction tokens with
  | nil => simp [Piece.group]
  | cons token tokens inductionHypothesis =>
      rw [Piece.group, List.foldr_cons, ← Piece.group]
      revert inductionHypothesis
      generalize Piece.group tokens = grouped
      obtain ⟨pieces, tail⟩ := grouped
      rintro ⟨proper, trivia⟩
      simp only [Piece.attach]
      split
      · rename_i isTrivia
        cases pieces with
        | nil => exact ⟨by simp, List.forall_mem_cons.mpr ⟨isTrivia, trivia⟩⟩
        | cons piece pieces =>
            obtain ⟨first, others⟩ := List.forall_mem_cons.mp proper
            exact ⟨List.forall_mem_cons.mpr
              ⟨⟨List.forall_mem_cons.mpr ⟨isTrivia, first.lead⟩, first.token⟩, others⟩, trivia⟩
      · rename_i meaning
        exact ⟨List.forall_mem_cons.mpr ⟨⟨by simp, by simpa using meaning⟩, proper⟩, trivia⟩

/-- The tokens of pieces spell the pieces. -/
theorem spell_tokens (pieces : List Piece) :
    Token.spell (pieces.flatMap Piece.tokens) = Piece.spell pieces := by
  induction pieces with
  | nil => rfl
  | cons piece pieces inductionHypothesis =>
      rw [List.flatMap_cons, Token.spell_append, inductionHypothesis]
      simp [Piece.tokens, Piece.spell, Piece.text]

/-- The comments among the tokens of pieces are those in front of the pieces. -/
theorem commentsOf_tokens {pieces : List Piece} (proper : ∀ piece ∈ pieces, piece.Proper) :
    commentsOf (pieces.flatMap Piece.tokens) = Piece.comments pieces := by
  induction pieces with
  | nil => rfl
  | cons piece pieces inductionHypothesis =>
      obtain ⟨first, others⟩ := List.forall_mem_cons.mp proper
      rw [List.flatMap_cons, commentsOf_append, inductionHypothesis others]
      simp [Piece.tokens, Piece.comments, commentsOf, comment?_eq_none first.token]

/-- A token that means something and pieces behind it are solid. -/
theorem solid_cons_tokens {first : Token} (meaning : first.isTrivia = false) {pieces : List Piece}
    (proper : ∀ piece ∈ pieces, piece.Proper) : Solid (first :: pieces.flatMap Piece.tokens) := by
  refine ⟨⟨first, _, rfl, meaning⟩, ?_⟩
  cases pieces using List.reverseRecOn with
  | nil => exact ⟨[], first, rfl, meaning⟩
  | append_singleton pieces last =>
      exact ⟨first :: (pieces.flatMap Piece.tokens ++ last.lead), last.token.toToken,
        by simp [Piece.tokens], (proper last (by simp)).token⟩

/-! ## Declarations -/

/-- The pieces that a reader took are as many as its declaration says. -/
theorem take_size (node : Node) (first : PlacedToken) (rest behind : List Piece) :
    rest.take (Recognised.of node first (Declaration.taken rest behind)).size =
      Declaration.taken rest behind := by
  simp only [Recognised.of, Declaration.taken, List.length_take]
  rw [← List.take_take, List.take_length]

/-- What a recognised declaration is: an `import` or an `export` whose text and
comments are those of the pieces it took. -/
theorem exists_of_recognise {first : PlacedToken} {rest : List Piece} {recognised : Recognised}
    (found : recognise first rest = .ok (some recognised)) :
    (∃ declaration : ImportDeclaration, recognised.node = .importing declaration ∧
      declaration.comments = Piece.comments (rest.take recognised.size) ∧
      declaration.written = some (first.text ++ Piece.spell (rest.take recognised.size))) ∨
    (∃ declaration : ExportDeclaration, recognised.node = .exporting declaration ∧
      declaration.comments = Piece.comments (rest.take recognised.size) ∧
      declaration.written = some (first.text ++ Piece.spell (rest.take recognised.size))) := by
  simp only [recognise, bind, Except.bind, pure, Except.pure] at found
  split at found
  · split at found
    · contradiction
    · rename_i result read
      obtain ⟨declaration, behind⟩ := result
      simp only [Except.ok.injEq, Option.some.injEq] at found
      subst found
      exact .inl ⟨_, rfl, by rw [take_size], by rw [take_size]⟩
  · split at found
    · split at found
      · contradiction
      · split at found
        · cases found
        · rename_i declaration behind read
          simp only [Except.ok.injEq, Option.some.injEq] at found
          subst found
          exact .inr ⟨_, rfl, by rw [take_size], by rw [take_size]⟩
    · cases found

/-- A recognised declaration stands for its first word and the pieces it took. -/
theorem covers_of_recognise {first : PlacedToken} {rest : List Piece} {recognised : Recognised}
    (found : recognise first rest = .ok (some recognised)) (meaning : first.isTrivia = false)
    (proper : ∀ piece ∈ rest, piece.Proper) :
    recognised.node.Covers
      (first.toToken :: (rest.take recognised.size).flatMap Piece.tokens) := by
  have taken : ∀ piece ∈ rest.take recognised.size, piece.Proper :=
    fun piece member => proper piece (List.mem_of_mem_take member)
  have solid := solid_cons_tokens meaning taken
  have comments : Piece.comments (rest.take recognised.size) =
      commentsOf (first.toToken :: (rest.take recognised.size).flatMap Piece.tokens) := by
    rw [← commentsOf_tokens taken]
    simp [commentsOf, comment?_eq_none meaning]
  have spelled : first.text ++ Piece.spell (rest.take recognised.size) =
      Token.spell (first.toToken :: (rest.take recognised.size).flatMap Piece.tokens) := by
    rw [Token.spell_cons, spell_tokens]
  rcases exists_of_recognise found with ⟨declaration, isNode, isComments, written⟩ |
    ⟨declaration, isNode, isComments, written⟩
  · rw [isNode]
    exact .importing solid (isComments.trans comments) (written.trans (congrArg some spelled))
  · rw [isNode]
    exact .exporting solid (isComments.trans comments) (written.trans (congrArg some spelled))

/-! ## Whole documents -/

/-- Reading pieces adds nodes that stand for the pieces. -/
theorem standing_of_readPieces {finish : Position} {state result : ParseState} {skip : Nat}
    {pieces : List Piece} {tokens : List Token}
    (read : readPieces finish state skip pieces = .ok result)
    (proper : ∀ piece ∈ pieces, piece.Proper) (before : Standing state.nodes.reverse tokens) :
    Standing result.nodes.reverse (tokens ++ (pieces.drop skip).flatMap Piece.tokens) := by
  induction pieces generalizing state skip tokens with
  | nil =>
      cases read
      simpa using before
  | cons piece pieces inductionHypothesis =>
      obtain ⟨first, others⟩ := List.forall_mem_cons.mp proper
      cases skip with
      | succ skip => exact inductionHypothesis read others before
      | zero =>
          have withLead : Standing (state.pushLead piece).nodes.reverse (tokens ++ piece.lead) := by
            simpa [ParseState.pushLead] using before.append (standing_triviaNodes first.lead)
          simp only [readPieces] at read
          split at read
          · contradiction
          · rename_i recognised found
            have isRecognised : recognise piece.token pieces = .ok (some recognised) := by
              unfold ParseState.recognise? at found
              split at found
              · exact found
              · cases found
            have covers := covers_of_recognise isRecognised first.token others
            have pushed : Standing
                ((state.pushLead piece).pushDeclaration recognised).nodes.reverse
                (tokens ++ piece.lead ++
                  (piece.token.toToken :: (pieces.take recognised.size).flatMap Piece.tokens)) := by
              simpa [ParseState.pushDeclaration] using withLead.append (.cons covers .nil)
            have standing := inductionHypothesis read others pushed
            have all : (pieces.take recognised.size).flatMap Piece.tokens ++
                (pieces.drop recognised.size).flatMap Piece.tokens =
                pieces.flatMap Piece.tokens := by
              rw [← List.flatMap_append, List.take_append_drop]
            simpa [Piece.tokens, ← all] using standing
          · rename_i found
            split at read
            · contradiction
            · rename_i brackets tracked
              have covers : (Node.code piece.token.text).Covers [piece.token.toToken] := by
                refine covers_code_iff.mpr ⟨.singleton first.token, ?_, by simp⟩
                simp [commentsOf, comment?_eq_none first.token]
              have pushed : Standing
                  ((state.pushLead piece).pushCode piece.token brackets).nodes.reverse
                  (tokens ++ piece.lead ++ [piece.token.toToken]) := by
                simpa [ParseState.pushCode] using withLead.append (.cons covers .nil)
              simpa [Piece.tokens] using inductionHypothesis read others pushed

/-- Placing tokens does not change them. -/
theorem map_toToken_place (position : Position) (tokens : List Token) :
    (Token.place position tokens).map PlacedToken.toToken = tokens := by
  induction tokens generalizing position with
  | nil => rfl
  | cons token tokens inductionHypothesis =>
      rw [Token.place, List.map_cons, inductionHypothesis]

/-- The nodes of a document stand for its tokens. -/
theorem standing_of_ofTokens {tokens : List Token} {document : Document}
    (built : Document.ofTokens tokens = .ok document) : Standing document.nodes tokens := by
  simp only [Document.ofTokens, bind, Except.bind, pure, Except.pure] at built
  split at built
  · contradiction
  · rename_i state read
    split at built
    · rename_i closed
      cases built
      obtain ⟨proper, trivia⟩ := proper_group (Token.place .start tokens)
      have standing := (standing_of_readPieces read proper .nil).append
        (standing_triviaNodes trivia)
      rw [List.nil_append, List.drop_zero, tokens_group, map_toToken_place] at standing
      exact standing.joinCode
    · cases built

/-- A text whose tokens make a document is read as that document. -/
theorem parse_of_tokenize {source : Text} {tokens : List Token} {document : Document}
    (scanned : tokenize source = .ok tokens) (built : Document.ofTokens tokens = .ok document) :
    Document.parse source = .ok document := by
  simp [Document.parse, tokensOf, scanned, bind, Except.bind, built]

theorem ofTokens_of_parse {source : Text} {tokens : List Token} {document : Document}
    (parsed : Document.parse source = .ok document) (scanned : tokenize source = .ok tokens) :
    Document.ofTokens tokens = .ok document := by
  simpa [Document.parse, tokensOf, scanned, bind, Except.bind] using parsed

/-- A source text that has a document has tokens, and the document stands for
them. -/
theorem standing_of_parse {source : Text} {document : Document}
    (parsed : Document.parse source = .ok document) :
    ∃ tokens, tokenize source = .ok tokens ∧ Standing document.nodes tokens := by
  simp only [Document.parse, tokensOf, bind, Except.bind] at parsed
  cases scanned : tokenize source with
  | error failure => simp [scanned] at parsed
  | ok tokens =>
      simp only [scanned] at parsed
      exact ⟨tokens, rfl, standing_of_ofTokens parsed⟩

/-- A document that stands for the tokens of a source text is written as that
text. -/
theorem Standing.print_eq_source {source : Text} {tokens : List Token} {document : Document}
    (standing : Standing document.nodes tokens) (scanned : tokenize source = .ok tokens)
    (options : PrintOptions) : document.print options = source := by
  rw [standing.print_eq options, (tokenize_eq_ok_iff.mp scanned).spell_eq]

/-- A document that was only read is written as its source text, whatever the
options. -/
theorem print_of_parse {source : Text} {document : Document}
    (parsed : Document.parse source = .ok document) (options : PrintOptions) :
    document.print options = source := by
  obtain ⟨tokens, scanned, standing⟩ := standing_of_parse parsed
  exact standing.print_eq_source scanned options

/-- An `import` with a comment inside, which other options would write
otherwise. -/
theorem print_of_parse_commented_import :
    ∃ document, Document.parse "import \x7ba /* b */\x7d from 'c'\n".toList = .ok document ∧
      document.imports.length = 1 ∧ document.comments.length = 1 ∧
      document.print { quote := '"', wrapColumn := 1 } =
        "import \x7ba /* b */\x7d from 'c'\n".toList := by
  refine ⟨{ nodes := [.importing
    { specifiers := some ⟨[{ name := ['a'] }], false⟩
      source := ⟨'\'', ['c']⟩
      comments := [⟨.block, "/* b */".toList⟩]
      written := some "import \x7ba /* b */\x7d from 'c'".toList }, .trivia ['\n']] },
    ?parsed, rfl, rfl, print_of_parse ?parsed _⟩
  decide +kernel

/-! ## Comments -/

/-- The token that a comment is. -/
def Comment.token (comment : Comment) : Token :=
  ⟨comment.kind.token, comment.text⟩

theorem map_token_commentsOf (tokens : List Token) :
    (commentsOf tokens).map Comment.token = tokens.filter Token.isComment := by
  induction tokens with
  | nil => rfl
  | cons token tokens inductionHypothesis =>
      obtain ⟨kind, text⟩ := token
      cases kind with
      | lineComment | blockComment => exact congrArg (List.cons _) inductionHypothesis
      | _ => exact inductionHypothesis

/-- A document has the comments of its source text, in order and each of them once,
whether they stand between nodes or inside a declaration. -/
theorem comments_of_parse {source : Text} {tokens : List Token} {document : Document}
    (scanned : tokenize source = .ok tokens) (parsed : Document.parse source = .ok document) :
    document.comments.map Comment.token = tokens.filter Token.isComment := by
  have standing := standing_of_ofTokens (ofTokens_of_parse parsed scanned)
  rw [Document.comments, standing.flatMap_comments, map_token_commentsOf]

/-- Comments inside a declaration, behind it, and behind an `export` that turns out to be
code. -/
theorem comments_of_parse_abandoned_export :
    let source : Text := "import a/* b */from 'c'// d\nexport/* e */let f".toList
    ∃ tokens document,
      tokenize source = .ok tokens ∧
      Document.parse source = .ok document ∧
      document.comments.map Comment.token = tokens.filter Token.isComment ∧
      tokens.filter Token.isComment = [⟨.blockComment, "/* b */".toList⟩,
        ⟨.lineComment, "// d".toList⟩, ⟨.blockComment, "/* e */".toList⟩] := by
  intro source
  have parsed : Document.parse source =
      .ok { nodes := [.importing
        { defaultName := some ['a']
          source := ⟨'\'', ['c']⟩
          comments := [⟨.block, "/* b */".toList⟩]
          written := some "import a/* b */from 'c'".toList }, .comment ⟨.line, "// d".toList⟩,
        .trivia ['\n'], .code "export".toList, .comment ⟨.block, "/* e */".toList⟩,
        .code "let f".toList] } := by
    decide +kernel
  obtain ⟨tokens, scanned, _⟩ := standing_of_parse parsed
  have kept := comments_of_parse scanned parsed
  exact ⟨tokens, _, scanned, parsed, kept, kept.symm⟩

end Deflow
