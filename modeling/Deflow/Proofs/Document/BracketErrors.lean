import Deflow.Proofs.Document.Balance

/-!
# Where brackets go wrong

A source text without declarations is refused for its brackets only.  The first closing
bracket that cannot belong to balanced brackets is at fault, whatever follows it.  If there
is none, it is the last opening bracket that is never closed.
-/

namespace Deflow

open Script

/-! ## Brackets that can still be balanced -/

/-- Tokens can be gone on with so that their brackets are balanced. -/
def CanBalance (tokens : List Token) : Prop :=
  ∃ more, Balanced (bracketsOf tokens ++ more)

theorem CanBalance.of_append {first second : List Token} (can : CanBalance (first ++ second)) :
    CanBalance first := by
  rcases can with ⟨more, balanced⟩
  rw [bracketsOf_append, List.append_assoc] at balanced
  exact ⟨_, balanced⟩

/-- Balanced brackets are brackets. -/
theorem Balanced.isBracket {chars : List Char} (balanced : Balanced chars) :
    ∀ c ∈ chars, (Token.punct c).bracket? = some c := by
  induction balanced with
  | nil => simp
  | wrap pair within inductionHypothesis =>
      rcases bracket?_punct pair with ⟨first, last⟩
      simp only [List.forall_mem_cons, List.forall_mem_append, List.not_mem_nil, IsEmpty.forall_iff,
        implies_true, and_true]
      exact ⟨first, inductionHypothesis, last⟩
  | append ofFirst ofSecond first second => exact List.forall_mem_append.mpr ⟨first, second⟩

/-- Brackets are those of the tokens that they are. -/
theorem bracketsOf_punct {chars : List Char}
    (areBrackets : ∀ c ∈ chars, (Token.punct c).bracket? = some c) :
    bracketsOf (chars.map Token.punct) = chars := by
  induction chars with
  | nil => rfl
  | cons c chars inductionHypothesis =>
      rcases List.forall_mem_cons.mp areBrackets with ⟨first, others⟩
      rw [List.map_cons, bracketsOf_cons first, inductionHypothesis others]

section

variable {start : Position} {tokens : List Token}

/-- What is open can be closed. -/
theorem Leaves.exists_closing {brackets : List OpenBracket}
    (leaves : Leaves start tokens brackets) :
    ∃ closing, ∀ position, trackPlaced brackets position closing = .ok [] := by
  induction leaves with
  | none balanced => exact ⟨[], fun position => rfl⟩
  | opened leaves opens balanced inductionHypothesis =>
      rcases opens.2 with ⟨closer, pair⟩
      rcases inductionHypothesis with ⟨closing, closed⟩
      refine ⟨.punct closer :: closing, fun position => ?_⟩
      rw [trackPlaced_cons, trackToken_of_some (bracket?_punct pair).2, trackBracket_closer pair]
      exact closed _

/-- Tokens can be gone on with if every bracket that they close was the innermost. -/
theorem canBalance_iff (start : Position) :
    CanBalance tokens ↔ ∃ brackets, Leaves start tokens brackets := by
  constructor
  · rintro ⟨more, balanced⟩
    have areBrackets := (List.forall_mem_append.mp balanced.isBracket).2
    have whole : Leaves start (tokens ++ more.map Token.punct) [] := by
      apply Leaves.none
      rwa [bracketsOf_append, bracketsOf_punct areBrackets]
    have tracked := whole.tracked
    rw [trackPlaced_append, Declaration.bind_eq_ok_iff] at tracked
    rcases tracked with ⟨brackets, first, _⟩
    exact ⟨brackets, trackPlaced_eq_ok_iff.mp first⟩
  · rintro ⟨brackets, leaves⟩
    rcases leaves.exists_closing with ⟨closing, closed⟩
    have balanced := leaves_nil_iff.mp (leaves.run (closed _))
    rw [bracketsOf_append] at balanced
    exact ⟨_, balanced⟩

/-! ## The first bracket at fault -/

/-- A token cannot be passed only if it closes a bracket that is not the innermost. -/
theorem trackToken_eq_error {token : Token} {position : Position} {brackets : List OpenBracket}
    {error : SyntaxError} (failed : trackToken brackets ⟨token, position⟩ = .error error) :
    ∃ opener closer, token.bracket? = some closer ∧ (opener, closer) ∈ bracketPairs ∧
      brackets.head?.map OpenBracket.opener ≠ some opener := by
  cases bracket : token.bracket? with
  | none =>
      rw [trackToken_of_none bracket] at failed
      cases failed
  | some closer =>
      rcases Token.opens_or_closes bracket with opens | ⟨_, opener, pair⟩
      · rw [trackToken_opener opens] at failed
        cases failed
      · refine ⟨opener, closer, rfl, pair, fun same => ?_⟩
        cases brackets with
        | nil => cases same
        | cons innermost outer =>
            rcases innermost with ⟨innermost, opened⟩
            obtain rfl : innermost = opener := by simpa using same
            rw [trackToken_of_some bracket, trackBracket_closer pair] at failed
            cases failed

/-- Tokens are refused at the first that cannot be passed. -/
theorem trackPlaced_eq_error_iff {error : SyntaxError} :
    trackPlaced [] start tokens = .error error ↔
      ∃ front token behind brackets, tokens = front ++ token :: behind ∧
        Leaves start front brackets ∧
        trackToken brackets ⟨token, start.after (Token.spell front)⟩ = .error error := by
  constructor
  · intro failed
    induction tokens using List.reverseRecOn with
    | nil => cases failed
    | append_singleton tokens last inductionHypothesis =>
        rw [trackPlaced_append] at failed
        cases tracked : trackPlaced [] start tokens with
        | error earlier =>
            rw [tracked] at failed
            cases failed
            rcases inductionHypothesis tracked with ⟨front, token, behind, brackets, rfl, fails⟩
            exact ⟨front, token, behind ++ [last], brackets, by simp, fails⟩
        | ok brackets =>
            rw [tracked] at failed
            refine ⟨tokens, last, [], brackets, rfl, trackPlaced_eq_ok_iff.mp tracked, ?_⟩
            cases passed : trackToken brackets ⟨last, start.after (Token.spell tokens)⟩ with
            | error atLast =>
                simp only [trackPlaced_cons, passed, bind, Except.bind] at failed
                exact failed
            | ok behind =>
                simp only [trackPlaced_cons, passed, bind, Except.bind, trackPlaced_nil] at failed
                cases failed
  · rintro ⟨front, token, behind, brackets, rfl, leaves, failed⟩
    simp only [trackPlaced_append, trackPlaced_cons, leaves.tracked, failed, bind, Except.bind]

/-- No closing bracket ends tokens that cannot be balanced any more. -/
def NoStray (tokens : List Token) : Prop :=
  ∀ front token behind closer, tokens = front ++ token :: behind → token.Closes closer →
    CanBalance (front ++ [token])

/-- A bracket that cannot be passed ends tokens that cannot be balanced any more. -/
theorem Leaves.not_canBalance {front : List Token} {token : Token} {brackets : List OpenBracket}
    {error : SyntaxError} (leaves : Leaves start front brackets)
    (failed : trackToken brackets ⟨token, start.after (Token.spell front)⟩ = .error error) :
    ¬CanBalance (front ++ [token]) := by
  intro can
  rcases (canBalance_iff start).mp can with ⟨behind, further⟩
  have tracked := further.tracked
  simp only [trackPlaced_append, trackPlaced_cons, leaves.tracked, failed, bind, Except.bind]
    at tracked
  cases tracked

theorem noStray_iff (start : Position) :
    NoStray tokens ↔ ∃ brackets, Leaves start tokens brackets := by
  constructor
  · intro noStray
    cases tracked : trackPlaced [] start tokens with
    | ok brackets => exact ⟨brackets, trackPlaced_eq_ok_iff.mp tracked⟩
    | error error =>
        rcases trackPlaced_eq_error_iff.mp tracked with
          ⟨front, token, behind, brackets, split, leaves, failed⟩
        rcases trackToken_eq_error failed with ⟨opener, closer, bracket, pair, _⟩
        exact absurd (noStray front token behind closer split ⟨bracket, opener, pair⟩)
          (leaves.not_canBalance failed)
  · rintro left front token behind closer rfl closes
    rw [List.append_cons] at left
    exact ((canBalance_iff start).mpr left).of_append

theorem NoStray.of_append {first second : List Token} (noStray : NoStray (first ++ second)) :
    NoStray first := by
  intro front token behind closer split
  exact noStray front token (behind ++ second) closer (by simp [split])

end

/-! ## Brackets that are never closed -/

/-- What follows a bracket `opener` closes it. -/
def IsClosed (opener : Char) (behind : List Token) : Prop :=
  ∃ inner token rest closer, behind = inner ++ token :: rest ∧ Balanced (bracketsOf inner) ∧
    token.bracket? = some closer ∧ (opener, closer) ∈ bracketPairs

theorem Balanced.not_isClosed {behind : List Token} (balanced : Balanced (bracketsOf behind))
    (opener : Char) : ¬IsClosed opener behind := by
  rintro ⟨inner, token, rest, closer, rfl, ofInner, bracket, pair⟩
  have tracked := balanced.tracked rfl [] .start
  simp only [trackPlaced_append, trackPlaced_cons, ofInner.tracked rfl,
    trackToken_of_some bracket, trackBracket_unexpected pair, bind, Except.bind] at tracked
  cases tracked

/-- Whether a token can be passed depends on the innermost bracket only. -/
theorem trackToken_append {brackets behind : List OpenBracket} {token : PlacedToken}
    (tracked : trackToken brackets token = .ok behind) (outer : List OpenBracket) :
    trackToken (brackets ++ outer) token = .ok (behind ++ outer) := by
  rcases token with ⟨token, position⟩
  cases bracket : token.bracket? with
  | none =>
      rw [trackToken_of_none bracket] at tracked ⊢
      cases tracked
      rfl
  | some c =>
      rcases Token.opens_or_closes bracket with opens | ⟨_, opener, pair⟩
      · rw [trackToken_opener opens] at tracked ⊢
        cases tracked
        rfl
      · rw [trackToken_of_some bracket] at tracked ⊢
        cases brackets with
        | nil =>
            rw [trackBracket_unexpected pair] at tracked
            cases tracked
        | cons innermost brackets =>
            by_cases same : innermost.opener = opener
            · rcases innermost with ⟨innermost, opened⟩
              subst same
              rw [trackBracket_closer pair] at tracked
              cases tracked
              exact trackBracket_closer pair opened
            · rw [trackBracket_mismatched pair same] at tracked
              cases tracked

theorem trackPlaced_append_brackets {brackets behind : List OpenBracket} {position : Position}
    {tokens : List Token} (tracked : trackPlaced brackets position tokens = .ok behind)
    (outer : List OpenBracket) :
    trackPlaced (brackets ++ outer) position tokens = .ok (behind ++ outer) := by
  induction tokens generalizing brackets position with
  | nil =>
      cases tracked
      rfl
  | cons token tokens inductionHypothesis =>
      rw [trackPlaced_cons, Declaration.bind_eq_ok_iff] at tracked ⊢
      rcases tracked with ⟨between, first, others⟩
      exact ⟨between ++ outer, trackToken_append first outer, inductionHypothesis others⟩

/-- Behind a bracket either it is closed, or it stays open below what is left open then. -/
theorem isClosed_or_leaves {innermost : OpenBracket} {outer left : List OpenBracket}
    {position : Position} {behind : List Token}
    (tracked : trackPlaced (innermost :: outer) position behind = .ok left) :
    IsClosed innermost.opener behind ∨
      ∃ inner, Leaves position behind inner ∧ left = inner ++ innermost :: outer := by
  cases alone : trackPlaced [] position behind with
  | ok inner =>
      have below := trackPlaced_append_brackets alone (innermost :: outer)
      rw [List.nil_append, tracked] at below
      exact .inr ⟨inner, trackPlaced_eq_ok_iff.mp alone, Except.ok.inj below⟩
  | error error =>
      rcases trackPlaced_eq_error_iff.mp alone with
        ⟨front, token, rest, brackets, rfl, leaves, failed⟩
      rcases trackToken_eq_error failed with ⟨opener, closer, bracket, pair, notInnermost⟩
      -- The token can be passed only because the bracket in front is open.
      have below := trackPlaced_append_brackets leaves.tracked (innermost :: outer)
      rw [List.nil_append] at below
      simp only [trackPlaced_append, below, trackPlaced_cons, trackToken_of_some bracket, bind,
        Except.bind] at tracked
      cases brackets with
      | nil =>
          refine .inl ⟨front, token, rest, closer, rfl, leaves_nil_iff.mp leaves, bracket, ?_⟩
          by_cases same : innermost.opener = opener
          · rwa [same]
          · rw [List.nil_append, trackBracket_mismatched pair same] at tracked
            cases tracked
      | cons first brackets =>
          have different : first.opener ≠ opener := by simpa using notInnermost
          rw [List.cons_append, trackBracket_mismatched pair different] at tracked
          cases tracked

/-- In balanced brackets each one that opens is closed. -/
theorem Balanced.isClosed {between behind : List Token} {token : Token} {opener : Char}
    (balanced : Balanced (bracketsOf (between ++ token :: behind))) (opens : token.Opens opener) :
    IsClosed opener behind := by
  have tracked := balanced.tracked rfl [] .start
  rw [trackPlaced_append, Declaration.bind_eq_ok_iff] at tracked
  rcases tracked with ⟨brackets, _, tracked⟩
  rw [trackPlaced_cons, trackToken_opener opens] at tracked
  rcases isClosed_or_leaves tracked with closed | ⟨inner, _, noneLeft⟩
  · exact closed
  · simp at noneLeft

/-! ## Source texts without declarations -/

/-- Tokens hold no word that can begin a declaration. -/
def NoDeclaration (tokens : List Token) : Prop :=
  ∀ token ∈ tokens, token ≠ .word "import" ∧ token ≠ .word "export"

theorem recognise_of_noDeclaration {first : PlacedToken} (noImport : first.toToken ≠ .word "import")
    (noExport : first.toToken ≠ .word "export") (rest : List Piece) :
    recognise first rest = .ok none := by
  have notImport : first.isWord "import" = false := by
    simpa using fun isWord => noImport (Token.isWord_iff.mp isWord)
  have notExport : first.isWord "export" = false := by
    simpa using fun isWord => noExport (Token.isWord_iff.mp isWord)
  simp [recognise, notImport, notExport, pure, Except.pure]

/-- Where nothing can begin a declaration, reading pieces is no more than keeping track of
brackets. -/
theorem readPieces_of_noDeclaration {finish : Position} {state : ParseState} {pieces : List Piece}
    (noDeclaration : NoDeclaration (words pieces)) :
    (readPieces finish state 0 pieces).map ParseState.brackets =
      pieces.foldlM (fun brackets piece => trackToken brackets piece.token) state.brackets := by
  induction pieces generalizing state with
  | nil => rfl
  | cons piece pieces inductionHypothesis =>
      rw [words_cons] at noDeclaration
      rcases List.forall_mem_cons.mp noDeclaration with ⟨⟨noImport, noExport⟩, others⟩
      have none : state.recognise? piece pieces = .ok none := by
        unfold ParseState.recognise?
        split
        · exact recognise_of_noDeclaration noImport noExport pieces
        · rfl
      simp only [readPieces, none, List.foldlM_cons]
      cases trackToken state.brackets piece.token with
      | error error => rfl
      | ok brackets => exact inductionHypothesis others

/-- White space and comments have no brackets. -/
theorem foldlM_group (tokens : List PlacedToken) (brackets : List OpenBracket) :
    (Piece.group tokens).1.foldlM (fun brackets piece => trackToken brackets piece.token) brackets =
      tokens.foldlM trackToken brackets := by
  induction tokens generalizing brackets with
  | nil => rfl
  | cons token tokens inductionHypothesis =>
      rw [Piece.group, List.foldr_cons, ← Piece.group, List.foldlM_cons]
      revert inductionHypothesis
      generalize Piece.group tokens = grouped
      rcases grouped with ⟨pieces, tail⟩
      intro inductionHypothesis
      simp only [Piece.attach]
      by_cases isTrivia : token.isTrivia = true
      · have passed : trackToken brackets token = .ok brackets :=
          trackToken_of_none (bracket?_of_trivia isTrivia) token.start
        rw [if_pos isTrivia, passed]
        cases pieces <;> exact inductionHypothesis brackets
      · rw [if_neg isTrivia, List.foldlM_cons]
        exact congrArg _ (funext inductionHypothesis)

/-- What is said of the brackets that are open at the end. -/
def atEnd : List OpenBracket → Except SyntaxError Unit
  | [] => .ok ()
  | innermost :: _ => .error ⟨innermost.position, .unclosedBracket innermost.opener⟩

/-- A source text without declarations is refused as its brackets are. -/
theorem parse_of_noDeclaration {source : Text} {tokens : List Token}
    (scanned : tokenize source = .ok tokens) (noDeclaration : NoDeclaration tokens) :
    (Document.parse source).map (fun _ => ()) = trackPlaced [] .start tokens >>= atEnd := by
  have noneInPieces : NoDeclaration (words (Piece.group (Token.place .start tokens)).1) := by
    intro token member
    rw [words_group, map_toToken_place] at member
    exact noDeclaration token (List.mem_of_mem_filter member)
  have read := @readPieces_of_noDeclaration (Position.start.after (Token.spell tokens)) {} _
    noneInPieces
  rw [foldlM_group] at read
  rw [trackPlaced, ← read]
  simp only [Document.parse, tokensOf, scanned, bind, Except.bind, Document.ofTokens]
  cases readPieces (Position.start.after (Token.spell tokens)) {} 0
      (Piece.group (Token.place .start tokens)).1 with
  | error error => rfl
  | ok state =>
      rcases state with ⟨nodes, brackets, previous⟩
      cases brackets <;> rfl

/-! ## The error of a source text -/

/-- The first closing bracket with which tokens cannot be balanced any more. -/
structure FirstStray (front : List Token) (token : Token) (closer : Char) : Prop where
  closes : token.Closes closer
  stray : ¬CanBalance (front ++ [token])
  first : NoStray front

theorem firstStray_iff {start : Position} {front : List Token} {token : Token} {closer : Char} :
    FirstStray front token closer ↔ token.bracket? = some closer ∧ ∃ brackets error,
      Leaves start front brackets ∧
      trackToken brackets ⟨token, start.after (Token.spell front)⟩ = .error error := by
  constructor
  · rintro ⟨closes, stray, first⟩
    rcases (noStray_iff start).mp first with ⟨brackets, leaves⟩
    cases tracked : trackToken brackets ⟨token, start.after (Token.spell front)⟩ with
    | ok behind => exact absurd ((canBalance_iff start).mpr ⟨behind, leaves.step tracked⟩) stray
    | error error => exact ⟨closes.1, brackets, error, leaves, tracked⟩
  · rintro ⟨bracket, brackets, error, leaves, failed⟩
    rcases trackToken_eq_error failed with ⟨opener, found, isFound, pair, _⟩
    rw [bracket] at isFound
    cases isFound
    exact ⟨⟨bracket, opener, pair⟩, leaves.not_canBalance failed,
      (noStray_iff start).mpr ⟨brackets, leaves⟩⟩

/-- The error that the brackets of a source text give rise to, and its wording. -/
inductive BracketError (source : Text) (tokens : List Token) : SyntaxError → String → Prop
  /-- The first stray bracket, if nothing is open there. -/
  | unexpected {front behind : List Token} {token : Token} {closer : Char}
      (split : tokens = front ++ token :: behind) (stray : FirstStray front token closer)
      (noneOpen : Balanced (bracketsOf front)) :
      BracketError source tokens
        ⟨.ofOffset source (Token.spell front).byteLength, .unexpectedBracket closer⟩
        s!"unexpected `{closer}`"
  /-- The first stray bracket, with the innermost one that is open there. -/
  | mismatched {outer inner behind : List Token} {first token : Token} {opener closer : Char}
      {opened : Position} (split : tokens = outer ++ first :: inner ++ token :: behind)
      (stray : FirstStray (outer ++ first :: inner) token closer) (opens : first.Opens opener)
      (innermost : Balanced (bracketsOf inner))
      (isOpened : opened = .ofOffset source (Token.spell outer).byteLength) :
      BracketError source tokens
        ⟨.ofOffset source (Token.spell (outer ++ first :: inner)).byteLength,
          .mismatchedBracket closer opener opened⟩
        s!"mismatched `{closer}` (`{opener}` opened at {opened.render})"
  /-- Without a stray bracket, the last one that is never closed. -/
  | unclosed {front behind : List Token} {token : Token} {opener : Char}
      (split : tokens = front ++ token :: behind) (noStray : NoStray tokens)
      (opens : token.Opens opener) (never : ¬IsClosed opener behind)
      (last : ∀ between later rest other, behind = between ++ later :: rest → later.Opens other →
        IsClosed other rest) :
      BracketError source tokens
        ⟨.ofOffset source (Token.spell front).byteLength, .unclosedBracket opener⟩
        s!"unclosed `{opener}`"

section

variable {source : Text} {tokens : List Token} {error : SyntaxError}

theorem ofOffset_of_split {front behind : List Token} (spelled : source = Token.spell tokens)
    (split : tokens = front ++ behind) :
    Position.ofOffset source (Token.spell front).byteLength =
      Position.start.after (Token.spell front) := by
  rw [spelled, split, Token.spell_append, Position.ofOffset_append]

/-- A bracket that cannot be passed is the first stray one. -/
theorem bracketError_of_trackPlaced (spelled : source = Token.spell tokens)
    (failed : trackPlaced [] .start tokens = .error error) :
    BracketError source tokens error error.fault.message := by
  rcases trackPlaced_eq_error_iff.mp failed with
    ⟨front, token, behind, brackets, split, leaves, failed⟩
  rcases trackToken_eq_error failed with ⟨opener, closer, bracket, pair, notInnermost⟩
  have stray := firstStray_iff.mpr ⟨bracket, brackets, error, leaves, failed⟩
  rw [← ofOffset_of_split spelled split, trackToken_of_some bracket] at failed
  cases leaves with
  | none balanced =>
      rw [trackBracket_unexpected pair] at failed
      cases failed
      exact .unexpected split stray balanced
  | @opened outer inner first innermost brackets leaves opens balanced =>
      have different : innermost ≠ opener := by simpa using notInnermost
      rw [trackBracket_mismatched pair different] at failed
      cases failed
      apply BracketError.mismatched split stray opens balanced
      exact (ofOffset_of_split spelled (split.trans (List.append_assoc ..))).symm

/-- What is open at the end is the last bracket that is never closed. -/
theorem bracketError_of_leaves {innermost : OpenBracket} {outer : List OpenBracket}
    (spelled : source = Token.spell tokens) (leaves : Leaves .start tokens (innermost :: outer)) :
    BracketError source tokens ⟨innermost.position, .unclosedBracket innermost.opener⟩
      (SyntaxFault.unclosedBracket innermost.opener).message := by
  have noStray : NoStray tokens := (noStray_iff .start).mpr ⟨_, leaves⟩
  cases leaves with
  | @opened front behind token opener _ leaves opens balanced =>
      rw [← ofOffset_of_split spelled rfl]
      refine .unclosed rfl noStray opens (balanced.not_isClosed opener) ?_
      rintro between later rest other rfl laterOpens
      exact balanced.isClosed laterOpens

/-- The error that is described is the one that arises. -/
theorem BracketError.tracked (spelled : source = Token.spell tokens) {message : String}
    (described : BracketError source tokens error message) :
    trackPlaced [] .start tokens >>= atEnd = .error error := by
  have refused {front behind : List Token} {token : Token} {brackets : List OpenBracket}
      {error : SyntaxError} (split : tokens = front ++ token :: behind)
      (leaves : Leaves .start front brackets)
      (failed : trackToken brackets ⟨token, Position.start.after (Token.spell front)⟩ =
        .error error) : trackPlaced [] .start tokens >>= atEnd = .error error := by
    rw [trackPlaced_eq_error_iff.mpr ⟨front, token, behind, brackets, split, leaves, failed⟩]
    rfl
  cases described with
  | unexpected split stray noneOpen =>
      rcases stray.closes with ⟨bracket, opener, pair⟩
      apply refused split (.none noneOpen)
      rw [trackToken_of_some bracket, trackBracket_unexpected pair, ofOffset_of_split spelled split]
  | @mismatched outer inner behind first token opener closer opened split stray opens innermost
      isOpened =>
      rcases stray.closes with ⟨bracket, other, pair⟩
      rcases (noStray_iff .start).mp stray.first.of_append with ⟨brackets, leaves⟩
      have leaves := leaves.opened opens innermost
      have different : opener ≠ other := by
        rintro rfl
        have tracked := leaves.step (by rw [trackToken_of_some bracket, trackBracket_closer pair])
        exact stray.stray ((canBalance_iff .start).mpr ⟨_, tracked⟩)
      apply refused split leaves
      rw [trackToken_of_some bracket, trackBracket_mismatched pair different,
        ofOffset_of_split spelled split, isOpened,
        ofOffset_of_split spelled (split.trans (List.append_assoc ..))]
  | @unclosed front behind token opener split noStray opens never last =>
      rcases (noStray_iff .start).mp noStray with ⟨brackets, leaves⟩
      have tracked := leaves.tracked
      rw [split, trackPlaced_append, Declaration.bind_eq_ok_iff] at tracked
      rcases tracked with ⟨outer, _, tracked⟩
      rw [trackPlaced_cons, trackToken_opener opens] at tracked
      rcases isClosed_or_leaves tracked with closed | ⟨inner, ofBehind, rfl⟩
      · exact absurd closed never
      · cases ofBehind with
        | none balanced =>
            rw [leaves.tracked, ofOffset_of_split spelled split]
            rfl
        | opened _ laterOpens balanced =>
            exact absurd (last _ _ _ _ rfl laterOpens) (balanced.not_isClosed _)

/-- A source text without declarations is read if and only if its brackets are balanced.
Otherwise the error is at the first stray bracket or, if there is none, at the last one that is
never closed. -/
theorem parse_brackets (scanned : tokenize source = .ok tokens)
    (noDeclaration : NoDeclaration tokens) :
    ((∃ document, Document.parse source = .ok document) ↔ Balanced (bracketsOf tokens)) ∧
      ∀ error, Document.parse source = .error error ↔
        BracketError source tokens error error.fault.message := by
  have spelled := (tokenize_eq_ok_iff.mp scanned).spell_eq.symm
  have verdict := parse_of_noDeclaration scanned noDeclaration
  constructor
  · have isRead : (∃ document, Document.parse source = .ok document) ↔
        trackPlaced [] .start tokens >>= atEnd = .ok () := by
      rw [← verdict]
      cases Document.parse source <;> simp [Except.map]
    rw [isRead, ← @leaves_nil_iff .start, ← trackPlaced_eq_ok_iff, Declaration.bind_eq_ok_iff]
    constructor
    · rintro ⟨brackets, tracked, closed⟩
      cases brackets with
      | nil => exact tracked
      | cons => cases closed
    · intro tracked
      exact ⟨[], tracked, rfl⟩
  · intro error
    have isRefused : Document.parse source = .error error ↔
        trackPlaced [] .start tokens >>= atEnd = .error error := by
      rw [← verdict]
      cases Document.parse source <;> simp [Except.map]
    rw [isRefused]
    constructor
    · intro failed
      cases tracked : trackPlaced [] .start tokens with
      | error first =>
          rw [tracked] at failed
          cases failed
          exact bracketError_of_trackPlaced spelled tracked
      | ok brackets =>
          rw [tracked] at failed
          cases brackets with
          | nil => cases failed
          | cons innermost outer =>
              cases failed
              exact bracketError_of_leaves spelled (trackPlaced_eq_ok_iff.mp tracked)
    · exact BracketError.tracked spelled

end

/-- A bracket that closes another kind than the innermost one, on the second line. -/
theorem parse_brackets_second_line :
    ∃ tokens, tokenize "a(\n [)".toList = .ok tokens ∧ NoDeclaration tokens ∧
      Document.parse "a(\n [)".toList =
        .error ⟨⟨2, 3⟩, .mismatchedBracket ')' '[' ⟨2, 2⟩⟩ ∧
      BracketError "a(\n [)".toList tokens ⟨⟨2, 3⟩, .mismatchedBracket ')' '[' ⟨2, 2⟩⟩
        "mismatched `)` (`[` opened at 2:2)" := by
  have scanned : tokenize "a(\n [)".toList = .ok [⟨.identifier, ['a']⟩, .punct '(',
      ⟨.whitespace, ['\n', ' ']⟩, .punct '[', .punct ')'] := by
    decide +kernel
  have noDeclaration : NoDeclaration [⟨.identifier, ['a']⟩, .punct '(',
      ⟨.whitespace, ['\n', ' ']⟩, .punct '[', .punct ')'] := by
    unfold NoDeclaration
    decide +kernel
  have refused : Document.parse "a(\n [)".toList =
      .error ⟨⟨2, 3⟩, .mismatchedBracket ')' '[' ⟨2, 2⟩⟩ := by
    decide +kernel
  exact ⟨_, scanned, noDeclaration, refused,
    ((parse_brackets scanned noDeclaration).2 _).mp refused⟩

end Deflow
