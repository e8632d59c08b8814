import Deflow.Proofs.Document.Balance
import Deflow.Proofs.Document.Recognition
import Deflow.Proofs.Document.Extents

/-!
# Declarations stand at module level

An `import` or an `export` is a declaration exactly where no bracket is open, no dot stands
in front of it, and the words behind it are not those of an expression.  The brackets of
earlier declarations do not count, and neither do the words inside them.
-/

namespace Deflow

open Script

/-! ## Where declarations begin -/

/-- No bracket of the tokens `outer` is open, and no dot ends the tokens `front`. -/
structure ModuleLevel (front outer : List Token) : Prop where
  balanced : Balanced (bracketsOf outer)
  notProperty : (meaningful front).getLast? ≠ some (.punct '.')

/-- Words behind `import` that make it neither a call nor a property. -/
def BeginsImport (behind : List Token) : Prop :=
  behind.head? ≠ some (.punct '(') ∧ behind.head? ≠ some (.punct '.')

/-- Words behind `export` that begin a braced list, with or without a kind. -/
def BeginsExport (behind : List Token) : Prop :=
  ∃ kind : BindingKind, kind.words ++ [.punct '\x7b'] <+: behind

/-- A token begins a declaration in front of the words `behind`. -/
def Begins (token : Token) (behind : List Token) : Prop :=
  token = .word "import" ∧ BeginsImport behind ∨ token = .word "export" ∧ BeginsExport behind

theorem beginsImport_iff {pieces : List Piece} :
    BeginsImport (words pieces) ↔
      Declaration.nextIs (fun next => next.isPunct '(' || next.isPunct '.') pieces = false := by
  cases pieces with
  | nil => simp [BeginsImport, Declaration.nextIs]
  | cons next pieces =>
      simp [BeginsImport, Declaration.nextIs, ← Piece.isPunct_iff]

theorem beginsExport_iff {pieces : List Piece} :
    BeginsExport (words pieces) ↔ ∃ kind brace behind,
      Declaration.exportKind pieces = (kind, brace :: behind) ∧ brace.isPunct '\x7b' = true := by
  constructor
  · rintro ⟨kind, more, isWords⟩
    rw [List.append_assoc] at isWords
    rcases words_eq_append_iff.mp isWords.symm with ⟨front, back, rfl, isKind, isBack⟩
    rcases words_eq_cons_iff.mp isBack with ⟨brace, behind, rfl, isBrace, _⟩
    exact ⟨kind, brace, behind, Declaration.exportKind_of_brace isKind isBrace behind,
      Piece.isPunct_iff.mpr isBrace⟩
  · rintro ⟨kind, brace, behind, read, isBrace⟩
    rw [Declaration.exportKind_eq] at read
    rcases Declaration.exists_of_kindWhere read with ⟨front, rfl, isKind, _⟩
    refine ⟨kind, words behind, ?_⟩
    rw [words_append, words_cons, isKind, Piece.isPunct_iff.mp isBrace]
    simp

/-- An `export` is read as a declaration if and only if it begins one. -/
theorem beginsExport_of_exportDeclaration {pieces rest : List Piece}
    {found : Option ExportDeclaration}
    (read : Declaration.exportDeclaration pieces = .ok (found, rest)) :
    BeginsExport (words pieces) ↔ found.isSome = true := by
  rw [beginsExport_iff]
  unfold Declaration.exportDeclaration at read
  split at read
  · rename_i kind brace behind readKind
    split at read
    · rename_i isBrace
      simp only [Declaration.bind_eq_ok_iff] at read
      rcases read with ⟨_, _, _, _, isResult⟩
      cases isResult
      exact ⟨fun _ => rfl, fun _ => ⟨kind, brace, behind, readKind, isBrace⟩⟩
    · rename_i notBrace
      cases read
      simp [readKind, notBrace]
  · rename_i readKind
    cases read
    simp [readKind]

/-- What is recognised begins here, and nothing begins where nothing is recognised. -/
theorem recognise_eq_ok {first : PlacedToken} {rest : List Piece} {found : Option Recognised}
    (isFound : recognise first rest = .ok found) :
    (found = none ∧ ¬Begins first.toToken (words rest)) ∨
      ∃ node behind, found = some (.of node first (Declaration.taken rest behind)) ∧
        node.isDeclaration = true ∧ Begins first.toToken (words rest) := by
  simp only [recognise, bind, Except.bind, pure, Except.pure] at isFound
  split at isFound
  · rename_i isImport
    rcases Bool.and_eq_true_iff.mp isImport with ⟨isWord, noExpression⟩
    split at isFound
    · cases isFound
    · cases isFound
      refine .inr ⟨_, _, rfl, rfl, .inl ⟨Token.isWord_iff.mp isWord, ?_⟩⟩
      exact beginsImport_iff.mpr (by simpa using noExpression)
  · rename_i notImport
    have noImport : ¬(first.toToken = .word "import" ∧ BeginsImport (words rest)) := by
      rintro ⟨isWord, begins⟩
      apply notImport
      rw [Token.isWord_iff.mpr isWord, beginsImport_iff.mp begins]
      rfl
    split at isFound
    · rename_i isExport
      have isWord := Token.isWord_iff.mp isExport
      split at isFound
      · cases isFound
      · rename_i result read
        have begins := beginsExport_of_exportDeclaration read
        split at isFound
        · cases isFound
          refine .inl ⟨rfl, ?_⟩
          rintro (importing | ⟨_, exporting⟩)
          · exact noImport importing
          · simpa using begins.mp exporting
        · cases isFound
          exact .inr ⟨_, _, rfl, rfl, .inr ⟨isWord, begins.mpr rfl⟩⟩
    · rename_i notExport
      cases isFound
      refine .inl ⟨rfl, ?_⟩
      rintro (importing | ⟨isWord, _⟩)
      · exact noImport importing
      · exact notExport (Token.isWord_iff.mpr isWord)

/-! ## How the parser came to nodes -/

/-- Nodes were read from tokens behind `front`, of which `outer` are outside declarations.
Where no declaration was read, none may begin. -/
inductive Laid : (front outer : List Token) → List Node → List Token → Prop
  | nil {front outer : List Token} : Laid front outer [] []
  | passed {front outer : List Token} {node : Node} {nodes : List Node} {token : Token}
      {tokens : List Token} (covers : node.Covers [token])
      (noDeclaration : node.isDeclaration = false)
      (plain : ¬(ModuleLevel front outer ∧ Begins token (meaningful tokens)))
      (more : Laid (front ++ [token]) (outer ++ [token]) nodes tokens) :
      Laid front outer (node :: nodes) (token :: tokens)
  | declaration {front outer : List Token} {node : Node} {nodes : List Node} {word : Token}
      {block tokens : List Token} (covers : node.Covers (word :: block))
      (isDeclaration : node.isDeclaration = true) (level : ModuleLevel front outer)
      (begins : Begins word (meaningful (block ++ tokens)))
      (more : Laid (front ++ word :: block) outer nodes tokens) :
      Laid front outer (node :: nodes) (word :: block ++ tokens)

/-- White space and comments in front of nodes. -/
theorem Laid.triviaNodes {front outer trivia : List Token} {nodes : List Node} {tokens : List Token}
    (laid : Laid (front ++ trivia) (outer ++ trivia) nodes tokens)
    (isTrivia : ∀ token ∈ trivia, token.isTrivia = true) :
    Laid front outer (Piece.triviaNodes trivia ++ nodes) (trivia ++ tokens) := by
  induction trivia generalizing front outer with
  | nil =>
      rw [List.append_nil, List.append_nil] at laid
      exact laid
  | cons token trivia inductionHypothesis =>
      rcases List.forall_mem_cons.mp isTrivia with ⟨first, others⟩
      rw [List.append_cons, List.append_cons outer] at laid
      have more := inductionHypothesis laid others
      have plain : ¬(ModuleLevel front outer ∧ Begins token (meaningful (trivia ++ tokens))) := by
        rintro ⟨_, ⟨rfl, _⟩ | ⟨rfl, _⟩⟩ <;> cases first
      rcases triviaNodes_cons first trivia with ⟨node, isNode, covers⟩
      rw [isNode]
      exact .passed covers (covers.noDeclaration_of_trivia first) plain more

/-- What the parser knows behind the tokens `front`, of which `outer` are outside
declarations. -/
structure Tracks (state : ParseState) (front outer : List Token) : Prop where
  previous : state.previous = (meaningful front).getLast?
  brackets : ∃ brackets, Leaves .start outer brackets ∧
    brackets.map OpenBracket.opener = state.brackets.map OpenBracket.opener

section

variable {state : ParseState} {front outer : List Token}

/-- The parser is at module level where the tokens are. -/
theorem Tracks.atModuleLevel_iff (tracks : Tracks state front outer) :
    state.atModuleLevel = true ↔ ModuleLevel front outer := by
  rcases tracks with ⟨previous, brackets, leaves, sameOpeners⟩
  have closed : state.brackets = [] ↔ Balanced (bracketsOf outer) := by
    constructor
    · intro none
      rw [none, List.map_nil, List.map_eq_nil_iff] at sameOpeners
      subst sameOpeners
      exact leaves_nil_iff.mp leaves
    · intro balanced
      have noneLeft := (@Leaves.none .start _ balanced).tracked
      rw [leaves.tracked] at noneLeft
      cases noneLeft
      simpa using sameOpeners.symm
  have noDot : state.previous.any (·.isPunct '.') = false ↔
      (meaningful front).getLast? ≠ some (.punct '.') := by
    rw [previous]
    cases (meaningful front).getLast? with
    | none => simp
    | some last => simp [← Token.isPunct_iff]
  rw [ParseState.atModuleLevel, Bool.and_eq_true, List.isEmpty_iff, closed, Bool.not_eq_true',
    noDot]
  constructor
  · rintro ⟨balanced, notProperty⟩
    exact ⟨balanced, notProperty⟩
  · rintro ⟨balanced, notProperty⟩
    exact ⟨balanced, notProperty⟩

/-- A declaration is recognised at module level only. -/
theorem Tracks.level_of_recognise? (tracks : Tracks state front outer) {piece : Piece}
    {pieces : List Piece} {recognised : Recognised}
    (found : state.recognise? piece pieces = .ok (some recognised)) :
    ModuleLevel front outer ∧ recognise piece.token pieces = .ok (some recognised) := by
  unfold ParseState.recognise? at found
  split at found
  · rename_i atModuleLevel
    exact ⟨tracks.atModuleLevel_iff.mp atModuleLevel, found⟩
  · cases found

/-- Where none is recognised at module level, none begins. -/
theorem Tracks.not_begins_of_recognise? (tracks : Tracks state front outer) {piece : Piece}
    {pieces : List Piece} (found : state.recognise? piece pieces = .ok none) :
    ¬(ModuleLevel front outer ∧ Begins piece.token.toToken (words pieces)) := by
  rintro ⟨level, begins⟩
  rw [ParseState.recognise?, if_pos (tracks.atModuleLevel_iff.mpr level)] at found
  rcases recognise_eq_ok found with ⟨_, notBegins⟩ | ⟨_, _, isSome, _⟩
  · exact notBegins begins
  · cases isSome

theorem Tracks.pushLead (tracks : Tracks state front outer) {piece : Piece}
    (isTrivia : ∀ token ∈ piece.lead, token.isTrivia = true) :
    Tracks (state.pushLead piece) (front ++ piece.lead) (outer ++ piece.lead) := by
  rcases tracks with ⟨previous, brackets, leaves, sameOpeners⟩
  constructor
  · rw [meaningful_append, meaningful_of_trivia isTrivia, List.append_nil]
    exact previous
  · refine ⟨brackets, leaves.append ?_, sameOpeners⟩
    have noBracket : bracketsOf piece.lead = [] :=
      List.filterMap_eq_nil_iff.mpr fun token member => bracket?_of_trivia (isTrivia token member)
    rw [noBracket]
    exact .nil

theorem Tracks.pushCode (tracks : Tracks state front outer) {token : PlacedToken}
    (meaning : token.isTrivia = false) {brackets : List OpenBracket}
    (tracked : trackToken state.brackets token = .ok brackets) :
    Tracks (state.pushCode token brackets) (front ++ [token.toToken])
      (outer ++ [token.toToken]) := by
  rcases tracks with ⟨previous, outerBrackets, leaves, sameOpeners⟩
  constructor
  · simp [ParseState.pushCode, meaningful, meaning]
  · have known : token.track? (outerBrackets.map OpenBracket.opener) =
        some (brackets.map OpenBracket.opener) := by
      rw [sameOpeners]
      exact track?_of_trackToken tracked
    rcases @exists_trackToken _
      ⟨token.toToken, Position.start.after (Token.spell outer)⟩ _ known with
      ⟨behind, step, sameBehind⟩
    exact ⟨behind, leaves.step step, sameBehind⟩

theorem Tracks.pushDeclaration (tracks : Tracks state front outer) {recognised : Recognised}
    {block : List Token} (last : (meaningful block).getLast? = some recognised.last) :
    Tracks (state.pushDeclaration recognised) (front ++ block) outer := by
  constructor
  · rw [meaningful_append, List.getLast?_append, last]
    rfl
  · exact tracks.brackets

end

/-- A declaration begins with its first word and ends with its last. -/
theorem begins_of_recognise {first : PlacedToken} {rest : List Piece} {recognised : Recognised}
    (found : recognise first rest = .ok (some recognised)) (meaning : first.isTrivia = false)
    (proper : ∀ piece ∈ rest, piece.Proper) :
    recognised.node.isDeclaration = true ∧ Begins first.toToken (words rest) ∧
      (meaningful (first.toToken :: (rest.take recognised.size).flatMap Piece.tokens)).getLast? =
        some recognised.last := by
  rcases recognise_eq_ok found with ⟨none, _⟩ | ⟨node, behind, isRecognised, isDeclaration, begins⟩
  · cases none
  · cases isRecognised
    refine ⟨isDeclaration, begins, ?_⟩
    have taken : ∀ piece ∈ Declaration.taken rest behind, piece.Proper :=
      fun piece member => proper piece (List.mem_of_mem_take member)
    rw [take_size, meaningful, List.filter_cons_of_pos (by simp [meaning]), ← meaningful,
      meaningful_tokens taken, List.getLast?_cons, words, List.getLast?_map, Recognised.of]
    cases (Declaration.taken rest behind).getLast? <;> rfl

/-- Reading pieces adds nodes that were read from the pieces. -/
theorem laid_of_readPieces {finish : Position} {state result : ParseState} {skip : Nat}
    {pieces : List Piece} (read : readPieces finish state skip pieces = .ok result)
    (proper : ∀ piece ∈ pieces, piece.Proper) {tail : List Token}
    (isTrivia : ∀ token ∈ tail, token.isTrivia = true) {front outer : List Token}
    (tracks : Tracks state front outer) :
    ∃ added, result.nodes.reverse = state.nodes.reverse ++ added ∧
      Laid front outer (added ++ Piece.triviaNodes tail)
        ((pieces.drop skip).flatMap Piece.tokens ++ tail) := by
  induction pieces generalizing state skip front outer with
  | nil =>
      cases read
      refine ⟨[], by simp, ?_⟩
      simpa using (@Laid.nil (front ++ tail) (outer ++ tail)).triviaNodes isTrivia
  | cons piece pieces inductionHypothesis =>
      rcases List.forall_mem_cons.mp proper with ⟨first, others⟩
      cases skip with
      | succ skip => exact inductionHypothesis read others tracks
      | zero =>
          have behindLead := tracks.pushLead first.lead
          simp only [readPieces] at read
          split at read
          · cases read
          · rename_i recognised found
            rcases behindLead.level_of_recognise? found with ⟨level, found⟩
            have covers := covers_of_recognise found first.token others
            rcases begins_of_recognise found first.token others with ⟨isDeclaration, begins, last⟩
            rcases inductionHypothesis read others (behindLead.pushDeclaration last) with
              ⟨added, isAdded, laid⟩
            have all : (pieces.take recognised.size).flatMap Piece.tokens ++
                ((pieces.drop recognised.size).flatMap Piece.tokens ++ tail) =
                pieces.flatMap Piece.tokens ++ tail := by
              rw [← List.append_assoc, ← List.flatMap_append, List.take_append_drop]
            -- What begins a declaration may be told by words behind it.
            rw [← meaningful_pieces others isTrivia, ← all] at begins
            refine ⟨Piece.triviaNodes piece.lead ++ recognised.node :: added, ?_, ?_⟩
            · simpa [ParseState.pushDeclaration, ParseState.pushLead] using isAdded
            · have whole :=
                (Laid.declaration covers isDeclaration level begins laid).triviaNodes first.lead
              rw [List.cons_append, all] at whole
              simpa [Piece.tokens] using whole
          · rename_i found
            have plain := behindLead.not_begins_of_recognise? found
            rw [← meaningful_pieces others isTrivia] at plain
            split at read
            · cases read
            · rename_i brackets tracked
              rcases inductionHypothesis read others (behindLead.pushCode first.token tracked) with
                ⟨added, isAdded, laid⟩
              have covers : (Node.code piece.token.text).Covers [piece.token.toToken] := by
                refine covers_code_iff.mpr ⟨.singleton first.token, ?_, by simp⟩
                simp [commentsOf, comment?_eq_none first.token]
              refine ⟨Piece.triviaNodes piece.lead ++ .code piece.token.text :: added, ?_, ?_⟩
              · simpa [ParseState.pushCode, ParseState.pushLead] using isAdded
              · have whole := (Laid.passed covers rfl plain laid).triviaNodes first.lead
                simpa [Piece.tokens] using whole

/-! ## Declarations and the tokens that begin them -/

/-- The byte offset behind tokens lies inside no extent. -/
def Free (extents : List Extent) (front : List Token) : Prop :=
  ∀ extent ∈ extents, ¬(extent.start < (Token.spell front).byteLength ∧
    (Token.spell front).byteLength < extent.finish)

/-- A token that is not empty moves what stands behind it. -/
theorem byteLength_lt_of_filled (front : List Token) {token : Token} (filled : token.text ≠ [])
    (more : List Token) :
    (Token.spell front).byteLength < (Token.spell (front ++ token :: more)).byteLength := by
  have positive := byteLength_pos filled
  simp only [Token.spell_append, Token.spell_cons, Text.byteLength_append]
  omega

/-- A token behind others stands behind the first of two lists, or within it. -/
theorem split_cases {first second passed behind : List Token} {token : Token}
    (split : first ++ second = passed ++ token :: behind) :
    (∃ further, passed = first ++ further ∧ second = further ++ token :: behind) ∨
      ∃ within, first = passed ++ token :: within ∧ behind = within ++ second := by
  rcases List.append_eq_append_iff.mp split with found | ⟨within, isFirst, isSecond⟩
  · exact .inl found
  · cases within with
    | nil => exact .inl ⟨[], by simpa using isFirst.symm, isSecond.symm⟩
    | cons _ within =>
        cases isSecond
        exact .inr ⟨within, isFirst, rfl⟩

/-- A token outside all declarations begins one where one may begin, and nowhere else. -/
theorem Laid.starts_iff {front outer : List Token} {nodes : List Node} {tokens : List Token}
    (laid : Laid front outer nodes tokens) (filled : ∀ token ∈ tokens, token.text ≠ [])
    {passed : List Token} {token : Token} {behind : List Token}
    (split : tokens = passed ++ token :: behind)
    (free : Free (extents (Token.spell front).byteLength nodes) (front ++ passed)) :
    (∃ extent ∈ extents (Token.spell front).byteLength nodes,
        extent.start = (Token.spell (front ++ passed)).byteLength) ↔
      ModuleLevel (front ++ passed) (outer ++ outside
          (extents (Token.spell front).byteLength nodes) (Token.spell front).byteLength passed) ∧
        Begins token (meaningful behind) := by
  induction laid generalizing passed with
  | nil => simp at split
  | @passed front outer node nodes first tokens covers noDeclaration plain more
      inductionHypothesis =>
      rcases List.forall_mem_cons.mp filled with ⟨firstFilled, othersFilled⟩
      rw [extents_of_passed covers noDeclaration] at free ⊢
      have later : ∀ extent ∈ extents (Token.spell (front ++ [first])).byteLength nodes,
          (Token.spell front).byteLength < extent.start := fun extent member =>
        Nat.lt_of_lt_of_le (byteLength_lt_of_filled front firstFilled [])
          (offset_le_of_mem_extents member)
      cases passed with
      | nil =>
          cases split
          rw [List.append_nil]
          constructor
          · rintro ⟨extent, member, starts⟩
            exact absurd starts (Nat.ne_of_gt (later extent member))
          · intro begins
            exact absurd (by simpa [outside, Token.spans] using begins) plain
      | cons _ passed =>
          cases split
          have step := inductionHypothesis othersFilled rfl (by simpa using free)
          rw [outside_cons_of_before later]
          simpa using step
  | @declaration front outer node nodes word block tokens covers isDeclaration level begins more
      inductionHypothesis =>
      rcases List.forall_mem_append.mp filled with ⟨blockFilled, othersFilled⟩
      have wordFilled := blockFilled word (List.mem_cons_self ..)
      rw [extents_of_declaration covers isDeclaration] at free ⊢
      rcases List.forall_mem_cons.mp free with ⟨notWithin, freeLater⟩
      -- Of the tokens of the declaration only the first is not inside its extent.
      rcases split_cases split with ⟨further, rfl, behindBlock⟩ | ⟨within, isBlock, rfl⟩
      · rw [← List.append_assoc] at freeLater ⊢
        have notFirst : (Token.spell front).byteLength ≠
            (Token.spell (front ++ word :: block ++ further)).byteLength := by
          rw [List.append_assoc]
          exact Nat.ne_of_lt (byteLength_lt_of_filled front wordFilled _)
        rw [outside_of_extent (Nat.le_refl _) (by simp) blockFilled, List.exists_mem_cons_iff,
          or_iff_right notFirst]
        exact inductionHypothesis othersFilled behindBlock freeLater
      · cases passed with
        | nil =>
            cases isBlock
            constructor
            · intro
              exact ⟨by simpa [outside, Token.spans] using level, begins⟩
            · intro
              exact ⟨_, List.mem_cons_self .., by simp⟩
        | cons _ passed =>
            cases isBlock
            refine absurd ⟨byteLength_lt_of_filled front wordFilled passed, ?_⟩ notWithin
            have tokenFilled := blockFilled token (by simp)
            simpa using byteLength_lt_of_filled (front ++ word :: passed) tokenFilled within

/-- Tokens that are not empty are split in one way at a byte offset. -/
theorem split_unique {front behind otherFront otherBehind : List Token}
    (filled : ∀ token ∈ front ++ behind, token.text ≠ [])
    (same : front ++ behind = otherFront ++ otherBehind)
    (sameLength : (Token.spell front).byteLength = (Token.spell otherFront).byteLength) :
    behind = otherBehind := by
  induction front generalizing otherFront with
  | nil =>
      cases otherFront with
      | nil => exact same
      | cons token otherFront =>
          have tokenFilled := filled token (by simp [same])
          exact absurd sameLength (Nat.ne_of_lt (byteLength_lt_of_filled [] tokenFilled otherFront))
  | cons token front inductionHypothesis =>
      rcases List.forall_mem_cons.mp filled with ⟨first, others⟩
      cases otherFront with
      | nil =>
          exact absurd sameLength (Nat.ne_of_gt (byteLength_lt_of_filled [] first front))
      | cons _ otherFront =>
          rcases List.cons.inj same with ⟨rfl, sameRest⟩
          exact inductionHypothesis others sameRest (by simpa using sameLength)

/-- The word that a declaration begins with. -/
def Node.keyword? : Node → Option Token
  | .importing _ => some (.word "import")
  | .exporting _ => some (.word "export")
  | _ => none

theorem Node.Declares.starts_keyword {node : Node} {behind block : List Token}
    (declares : node.Declares behind block) :
    ∃ word more, block = word :: more ∧ node.keyword? = some word := by
  cases declares with
  | importing | exporting => exact ⟨_, _, rfl, rfl⟩

section

variable {source : Text} {document : Document} {tokens : List Token}

/-- A document was read from the tokens of its source text. -/
theorem laid_of_parse (parsed : Document.parse source = .ok document)
    (scanned : tokenize source = .ok tokens) :
    ∃ nodes, document.extents = extents 0 nodes ∧ Laid [] [] nodes tokens := by
  simp only [Document.parse, tokensOf, scanned, Document.ofTokens, bind, Except.bind, pure,
    Except.pure] at parsed
  split at parsed
  · cases parsed
  · rename_i state read
    split at parsed
    · cases parsed
      rcases proper_group (Token.place .start tokens) with ⟨proper, isTrivia⟩
      have tracks : Tracks {} [] [] := ⟨rfl, [], .none .nil, rfl⟩
      rcases laid_of_readPieces read proper isTrivia tracks with ⟨added, isAdded, laid⟩
      rw [List.drop_zero, tokens_group, map_toToken_place] at laid
      refine ⟨_, ?_, laid⟩
      rw [Document.extents, extents_joinCode, isAdded]
      rfl
    · cases parsed

/-- The word of a declaration stands where the declaration starts. -/
theorem keyword_of_mem_extents (parsed : Document.parse source = .ok document)
    (scanned : tokenize source = .ok tokens) {extent : Extent}
    (member : extent ∈ document.extents) :
    ∃ front word behind, tokens = front ++ word :: behind ∧
      extent.start = (Token.spell front).byteLength ∧ extent.node.keyword? = some word := by
  rcases (outlined_of_parse parsed scanned).declares_of_extent member with
    ⟨front, block, behind, rfl, starts, _, declares⟩
  rcases declares.starts_keyword with ⟨word, more, rfl, isKeyword⟩
  exact ⟨front, word, more ++ behind, rfl, by simpa using starts, isKeyword⟩

/-- A token outside earlier declarations begins a declaration exactly at module level, where
the words behind it are not those of an expression.  All declarations begin in this way. -/
theorem declarations_of_parse (parsed : Document.parse source = .ok document)
    (scanned : tokenize source = .ok tokens) :
    (∀ front word behind, tokens = front ++ word :: behind → Free document.extents front →
      ((∃ extent ∈ document.extents, extent.start = (Token.spell front).byteLength ∧
          extent.node.keyword? = some word) ↔
        ModuleLevel front (outside document.extents 0 front) ∧
          Begins word (meaningful behind))) ∧
    (∀ extent ∈ document.extents, ∃ front word behind, tokens = front ++ word :: behind ∧
      Free document.extents front ∧ extent.start = (Token.spell front).byteLength ∧
      extent.node.keyword? = some word) ∧
    document.extents.map Extent.node = document.nodes.filter Node.isDeclaration := by
  rcases laid_of_parse parsed scanned with ⟨nodes, sameExtents, laid⟩
  have filled := (tokenize_eq_ok_iff.mp scanned).text_ne_nil
  refine ⟨?_, ?_, map_node_extents ..⟩
  · intro front word behind split free
    rw [sameExtents] at free
    have starts := laid.starts_iff filled split free
    rw [List.nil_append, List.nil_append, Token.spell_nil, Text.byteLength_nil, ← sameExtents]
      at starts
    rw [← starts]
    constructor
    · rintro ⟨extent, member, isStart, _⟩
      exact ⟨extent, member, isStart⟩
    · rintro ⟨extent, member, isStart⟩
      refine ⟨extent, member, isStart, ?_⟩
      rcases keyword_of_mem_extents parsed scanned member with
        ⟨otherFront, otherWord, otherBehind, otherSplit, otherStart, isKeyword⟩
      -- The keyword starts at the same offset as the word, so that they are one token.
      have same := split_unique (split ▸ filled) (split.symm.trans otherSplit)
        (isStart.symm.trans otherStart)
      cases same
      exact isKeyword
  · intro extent member
    rcases keyword_of_mem_extents parsed scanned member with
      ⟨front, word, behind, split, starts, isKeyword⟩
    refine ⟨front, word, behind, split, ?_, starts, isKeyword⟩
    intro other otherMember
    rw [← starts]
    exact not_inside_of_mem_extents member otherMember

end

/-- An `import` behind a dot is code, and the `export` behind it is a declaration. -/
theorem declarations_of_parse_property :
    let source : Text := "a.import\nexport \x7ba\x7d".toList
    ∃ tokens document front behind, tokenize source = .ok tokens ∧
      Document.parse source = .ok document ∧
      tokens = front ++ .word "export" :: behind ∧
      Token.spell front = "a.import\n".toList ∧ document.extents.map Extent.start = [9] ∧
      ModuleLevel front (outside document.extents 0 front) ∧
      Begins (.word "export") (meaningful behind) := by
  intro source
  have scanned : tokenize source =
      .ok ([⟨.identifier, ['a']⟩, .punct '.', .word "import", ⟨.whitespace, ['\n']⟩] ++
        .word "export" :: [⟨.whitespace, [' ']⟩, .punct '\x7b', ⟨.identifier, ['a']⟩,
          .punct '\x7d']) := by
    decide +kernel
  have parsed : Document.parse source =
      .ok { nodes := [.code "a.import".toList, .trivia ['\n'], .exporting
        { specifiers := ⟨[{ name := ['a'] }], false⟩
          written := some "export \x7ba\x7d".toList }] } := by
    decide +kernel
  have begins := (declarations_of_parse parsed scanned).1 _ _ _ rfl (by
    unfold Free
    decide +kernel)
  refine ⟨_, _, _, _, scanned, parsed, rfl, rfl, by decide +kernel, begins.mp ?_⟩
  decide +kernel

end Deflow
