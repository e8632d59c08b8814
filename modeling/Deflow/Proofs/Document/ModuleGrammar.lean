import Deflow.Proofs.Document.ModuleLevel
import Deflow.Proofs.Document.Reread

/-!
# The words of modules

What the parser does next depends on the brackets that are open, on whether it has just
passed a dot, and on the words in front of it.  It passes one word of code or takes a
declaration.  So there is a grammar of modules, and the tokens of a script are a document
exactly if the grammar makes their words.
-/

namespace Deflow

open Script

/-! ## Declarations in front of words -/

namespace Declaration

theorem isSome_attributesOf {behind : List Token} {has : Bool} {pieces : List Piece}
    (isWords : AttributeWords behind has (words pieces)) : (attributesOf pieces).isSome = has := by
  generalize isPieces : words pieces = tokens at isWords
  cases isWords with
  | absent =>
      rw [List.map_eq_nil_iff.mp isPieces]
      rfl
  | present =>
      rcases words_eq_cons_iff.mp isPieces with ⟨first, more, rfl, _⟩
      rfl

/-- The words of an `import` are read as it, layout aside. -/
theorem importDeclaration_of_words {taken rest : List Piece} {within : List Token}
    {bare : BareImport} (isWords : ImportWords (words rest) within bare (words taken)) :
    ∃ declaration, importDeclaration (taken ++ rest) = .ok (declaration, rest) ∧
      declaration.bare = bare := by
  generalize isTaken : words taken = tokens at isWords
  cases isWords with
  | bare isString hasAttributes ends =>
      rcases words_eq_cons_iff.mp isTaken with ⟨name, behind, rfl, rfl, isBehind⟩
      rcases words_eq_append_iff.mp isBehind with ⟨attributePieces, ending, rfl, rfl, rfl⟩
      rw [← words_append] at hasAttributes
      have read := importDeclaration_of_source isString hasAttributes ends
      refine ⟨_, by simpa using read, ?_⟩
      simp [ImportDeclaration.bare, isSome_attributesOf hasAttributes]
  | bindings isClauses isString hasAttributes ends =>
      rcases words_eq_append_iff.mp isTaken with ⟨front, behindKind, rfl, isKind, isBehindKind⟩
      rcases words_eq_append_iff.mp isBehindKind with ⟨clauses, behind, rfl, rfl, isBehind⟩
      rcases words_eq_cons_iff.mp isBehind with ⟨word, behindFrom, rfl, isFrom, isModule⟩
      rcases words_eq_cons_iff.mp isModule with ⟨name, behindName, rfl, rfl, isRest⟩
      rcases words_eq_append_iff.mp isRest with ⟨attributePieces, ending, rfl, rfl, rfl⟩
      rw [← words_append] at hasAttributes
      have read := importDeclaration_of_clauses isFrom isString hasAttributes ends isKind isClauses
      refine ⟨_, by simpa using read, ?_⟩
      simp [ImportDeclaration.bare, isSome_attributesOf hasAttributes, Function.comp_def, listOf]

/-- The words of an `export` are read as it, layout aside. -/
theorem exportDeclaration_of_words {taken rest : List Piece} {within : List Token}
    {bare : BareExport} (isWords : ExportWords (words rest) within bare (words taken)) :
    ∃ declaration, exportDeclaration (taken ++ rest) = .ok (some declaration, rest) ∧
      declaration.bare = bare := by
  generalize isTaken : words taken = tokens at isWords
  cases isWords with
  | own isList noSource noAttributes ends =>
      rcases words_eq_append_iff.mp isTaken with ⟨front, behindKind, rfl, isKind, isBehindKind⟩
      rcases words_eq_cons_iff.mp isBehindKind with ⟨brace, behind, rfl, isBrace, isBehind⟩
      rcases words_eq_append_iff.mp isBehind with ⟨list, ending, rfl, rfl, rfl⟩
      rw [← words_append] at noSource
      have read := exportDeclaration_of_own ends isKind isBrace isList noSource
      exact ⟨_, by simpa using read, rfl⟩
  | reexport isList isString hasAttributes ends =>
      rcases words_eq_append_iff.mp isTaken with ⟨front, behindKind, rfl, isKind, isBehindKind⟩
      rcases words_eq_cons_iff.mp isBehindKind with ⟨brace, behind, rfl, isBrace, isBehind⟩
      rcases words_eq_append_iff.mp isBehind with ⟨list, behindList, rfl, rfl, isBehindList⟩
      rcases words_eq_cons_iff.mp isBehindList with ⟨word, behindFrom, rfl, isFrom, isModule⟩
      rcases words_eq_cons_iff.mp isModule with ⟨name, behindName, rfl, rfl, isRest⟩
      rcases words_eq_append_iff.mp isRest with ⟨attributePieces, ending, rfl, rfl, rfl⟩
      rw [← words_append] at hasAttributes
      have read :=
        exportDeclaration_of_module isFrom isString hasAttributes ends isKind isBrace isList
      refine ⟨_, by simpa using read, ?_⟩
      simp [ExportDeclaration.bare, isSome_attributesOf hasAttributes, listOf]

end Declaration

/-- The words of a declaration in front of the words `behind`. -/
inductive DeclarationWords (behind : List Token) : BareImport ⊕ BareExport → List Token → Prop
  | importing {bare : BareImport} {within block : List Token}
      (isWords : Declaration.ImportWords behind within bare block) :
      DeclarationWords behind (.inl bare) (.word "import" :: block)
  | exporting {bare : BareExport} {within block : List Token}
      (isWords : Declaration.ExportWords behind within bare block) :
      DeclarationWords behind (.inr bare) (.word "export" :: block)

theorem Declaration.ImportWords.begins {behind within block : List Token} {bare : BareImport}
    (isWords : ImportWords behind within bare block) (rest : List Token) :
    BeginsImport (block ++ rest) := by
  have ofFirst {first : Token} {more : List Token}
      (noSign : (first.isPunct '(' || first.isPunct '.') = false) :
      BeginsImport (first :: more) := by
    rcases Bool.or_eq_false_iff.mp noSign with ⟨notCall, notProperty⟩
    constructor
    · rintro ⟨⟩
      cases notCall
    · rintro ⟨⟩
      cases notProperty
  cases isWords with
  | bare isString => exact ofFirst (by simp [Token.isPunct, isString])
  | @bindings kind _ _ _ _ _ _ _ isClauses =>
      cases kind with
      | value =>
          rcases isClauses.begins with ⟨first, more, rfl, noSign⟩
          exact ofFirst noSign
      | type | typeof => exact ofFirst rfl

theorem Declaration.ExportWords.begins {behind within block : List Token} {bare : BareExport}
    (isWords : ExportWords behind within bare block) (rest : List Token) :
    BeginsExport (block ++ rest) := by
  cases isWords with
  | own | reexport => exact ⟨_, _, by rw [List.append_assoc, List.append_assoc]; rfl⟩

/-- The first word of a declaration begins it. -/
theorem DeclarationWords.begins {behind block : List Token} {declaration : BareImport ⊕ BareExport}
    (isWords : DeclarationWords behind declaration block) :
    ∃ word more, block = word :: more ∧ Begins word (more ++ behind) := by
  cases isWords with
  | importing isWords => exact ⟨_, _, rfl, .inl ⟨rfl, isWords.begins behind⟩⟩
  | exporting isWords => exact ⟨_, _, rfl, .inr ⟨rfl, isWords.begins behind⟩⟩

namespace Declaration

/-- A list ends with its closing brace. -/
theorem ListWords.closes {items : List Specifier} {tokens : List Token}
    (list : ListWords items tokens) : [.punct '\x7d'] <:+ tokens := by
  induction list with
  | nil => exact List.suffix_rfl
  | last => exact List.suffix_append ..
  | cons binding rest inductionHypothesis =>
      exact List.suffix_append_of_suffix (inductionHypothesis.trans (List.suffix_cons ..))

/-- The name of a module, its attributes and a semicolon do not end with a dot. -/
theorem exists_last_of_module {source : Token} {behind rest attributes ending : List Token}
    {has : Bool} (isString : source.kind = .string)
    (hasAttributes : AttributeWords rest has attributes) (ends : EndWords behind ending) :
    ∃ last, [last] <:+ source :: (attributes ++ ending) ∧ last.isPunct '.' = false := by
  cases ends with
  | semicolon => exact ⟨_, ⟨source :: attributes, rfl⟩, rfl⟩
  | absent =>
      rw [List.append_nil]
      cases hasAttributes with
      | absent => exact ⟨source, List.suffix_rfl, by simp [Token.isPunct, isString]⟩
      | @present first inside =>
          exact ⟨.punct '\x7d', ⟨source :: first :: .punct '\x7b' :: inside, by simp⟩, rfl⟩

theorem ImportWords.exists_last {behind within block : List Token} {bare : BareImport}
    (isWords : ImportWords behind within bare block) :
    ∃ last, [last] <:+ block ∧ last.isPunct '.' = false := by
  cases isWords with
  | bare isString hasAttributes ends => exact exists_last_of_module isString hasAttributes ends
  | bindings isClauses isString hasAttributes ends =>
      rcases exists_last_of_module isString hasAttributes ends with ⟨last, suffix, notDot⟩
      refine ⟨last, List.suffix_append_of_suffix (List.suffix_append_of_suffix ?_), notDot⟩
      exact suffix.trans (List.suffix_cons ..)

theorem ExportWords.exists_last {behind within block : List Token} {bare : BareExport}
    (isWords : ExportWords behind within bare block) :
    ∃ last, [last] <:+ block ∧ last.isPunct '.' = false := by
  cases isWords with
  | own isList noSource noAttributes ends =>
      cases ends with
      | semicolon =>
          refine ⟨.punct ';', List.suffix_append_of_suffix ?_, rfl⟩
          exact (List.suffix_append ..).trans (List.suffix_cons ..)
      | absent =>
          rw [List.append_nil]
          refine ⟨.punct '\x7d', List.suffix_append_of_suffix ?_, rfl⟩
          exact isList.closes.trans (List.suffix_cons ..)
  | reexport isList isString hasAttributes ends =>
      rcases exists_last_of_module isString hasAttributes ends with ⟨last, suffix, notDot⟩
      refine ⟨last, List.suffix_append_of_suffix ?_, notDot⟩
      refine List.IsSuffix.trans (List.suffix_append_of_suffix ?_) (List.suffix_cons ..)
      exact suffix.trans (List.suffix_cons ..)

end Declaration

/-- A declaration does not end with a dot. -/
theorem DeclarationWords.last {behind block : List Token} {declaration : BareImport ⊕ BareExport}
    (isWords : DeclarationWords behind declaration block) :
    ∃ last, block.getLast? = some last ∧ last.isPunct '.' = false := by
  have ofRest {word : Token} {more : List Token}
      (ends : ∃ last, [last] <:+ more ∧ last.isPunct '.' = false) :
      ∃ last, (word :: more).getLast? = some last ∧ last.isPunct '.' = false := by
    rcases ends with ⟨last, suffix, notDot⟩
    have whole := suffix.trans (List.suffix_cons word more)
    exact ⟨last, List.singleton_suffix_iff_getLast?_eq_some.mp whole, notDot⟩
  cases isWords with
  | importing isWords => exact ofRest isWords.exists_last
  | exporting isWords => exact ofRest isWords.exists_last

/-- The words of a declaration are recognised as it, layout aside. -/
theorem DeclarationWords.exists_recognise {first : PlacedToken} {taken rest : List Piece}
    {declaration : BareImport ⊕ BareExport}
    (isWords : DeclarationWords (words rest) declaration (first.toToken :: words taken)) :
    ∃ recognised, recognise first (taken ++ rest) = .ok (some recognised) ∧
      recognised.node.bare? = some declaration ∧ recognised.size = taken.length ∧
      recognised.last.isPunct '.' = false := by
  rcases isWords.last with ⟨last, isLast, notDot⟩
  have ends (node : Node) : (Recognised.of node first taken).last.isPunct '.' = false := by
    have same : (Recognised.of node first taken).last = last := by
      rw [List.getLast?_cons, words, List.getLast?_map, Option.some.injEq] at isLast
      rw [← isLast, Recognised.of]
      cases taken.getLast? <;> rfl
    rw [same, notDot]
  generalize isBlock : first.toToken :: words taken = block at isWords
  cases isWords with
  | importing isWords =>
      rcases List.cons.inj isBlock with ⟨isFirst, rfl⟩
      have begins := isWords.begins (words rest)
      rw [← words_append, beginsImport_iff] at begins
      rcases Declaration.importDeclaration_of_words isWords with ⟨declaration, read, rfl⟩
      simp only [recognise, Token.isWord_iff.mpr isFirst, begins, Bool.not_false, Bool.and_self,
        if_true, read, Declaration.taken_append, bind, Except.bind]
      exact ⟨_, rfl, rfl, rfl, ends _⟩
  | exporting isWords =>
      rcases List.cons.inj isBlock with ⟨isFirst, rfl⟩
      have notImport : first.isWord "import" = false := by
        rw [isFirst]
        decide
      rcases Declaration.exportDeclaration_of_words isWords with ⟨declaration, read, rfl⟩
      simp only [recognise, notImport, Token.isWord_iff.mpr isFirst, Bool.false_and,
        Bool.false_eq_true, if_false, if_true, read, Declaration.taken_append, bind, Except.bind]
      exact ⟨_, rfl, rfl, rfl, ends _⟩

/-- Nothing is recognised where no declaration begins. -/
theorem recognise_of_not_begins {first : PlacedToken} {rest : List Piece}
    (notBegins : ¬Begins first.toToken (words rest)) : recognise first rest = .ok none := by
  simp only [recognise, bind, Except.bind, pure, Except.pure]
  split
  · rename_i isImport
    rcases Bool.and_eq_true_iff.mp isImport with ⟨isWord, noExpression⟩
    refine absurd (.inl ⟨Token.isWord_iff.mp isWord, ?_⟩) notBegins
    exact beginsImport_iff.mpr (by simpa using noExpression)
  · split
    · rename_i isExport
      have noList : Declaration.exportDeclaration rest = .ok (none, rest) := by
        unfold Declaration.exportDeclaration
        split
        · rename_i kind brace behind readKind
          refine if_neg fun isBrace => notBegins (.inr ⟨Token.isWord_iff.mp isExport, ?_⟩)
          exact beginsExport_iff.mpr ⟨kind, brace, behind, readKind, isBrace⟩
        · rfl
      rw [noList]
    · rfl

/-! ## Modules -/

/-- A declaration may begin here: no bracket is open, and no dot stands in front. -/
def AtModuleLevel (openers : List Char) (dotted : Bool) : Prop :=
  openers = [] ∧ dotted = false

/-- Words make a module with some declarations, where the brackets `openers` are open in
front of them.  The word in front of them is a dot if `dotted` holds.  A word that begins a
declaration at module level is no code. -/
inductive ModuleWords :
    (openers : List Char) → (dotted : Bool) → List (BareImport ⊕ BareExport) → List Token → Prop
  | nil {dotted : Bool} : ModuleWords [] dotted [] []
  | code {openers behind : List Char} {dotted : Bool}
      {declarations : List (BareImport ⊕ BareExport)} {token : Token} {tokens : List Token}
      (plain : ¬(AtModuleLevel openers dotted ∧ Begins token tokens))
      (tracked : token.track? openers = some behind)
      (more : ModuleWords behind (token.isPunct '.') declarations tokens) :
      ModuleWords openers dotted declarations (token :: tokens)
  | declaration {declaration : BareImport ⊕ BareExport}
      {declarations : List (BareImport ⊕ BareExport)} {block tokens : List Token}
      (isWords : DeclarationWords tokens declaration block)
      (more : ModuleWords [] false declarations tokens) :
      ModuleWords [] false (declaration :: declarations) (block ++ tokens)

/-- What the parser knows where it has passed some words. -/
structure ParseState.At (state : ParseState) (openers : List Char) (dotted : Bool) : Prop where
  openers : state.brackets.map OpenBracket.opener = openers
  dotted : state.previous.any (·.isPunct '.') = dotted

section

variable {state : ParseState} {openers : List Char} {dotted : Bool}

theorem ParseState.At.atModuleLevel_iff (here : state.At openers dotted) :
    state.atModuleLevel = true ↔ AtModuleLevel openers dotted := by
  rcases here with ⟨rfl, rfl⟩
  simp [ParseState.atModuleLevel, AtModuleLevel]

/-- Where a word is code, none is recognised. -/
theorem ParseState.At.recognise?_eq_none (here : state.At openers dotted) {piece : Piece}
    {pieces : List Piece}
    (plain : ¬(AtModuleLevel openers dotted ∧ Begins piece.token.toToken (words pieces))) :
    state.recognise? piece pieces = .ok none := by
  unfold ParseState.recognise?
  split
  · rename_i atModuleLevel
    exact recognise_of_not_begins fun begins =>
      plain ⟨here.atModuleLevel_iff.mp atModuleLevel, begins⟩
  · rfl

/-- Where no declaration is recognised, a word is code. -/
theorem ParseState.At.not_begins_of_recognise? (here : state.At openers dotted) {piece : Piece}
    {pieces : List Piece} (found : state.recognise? piece pieces = .ok none) :
    ¬(AtModuleLevel openers dotted ∧ Begins piece.token.toToken (words pieces)) := by
  rintro ⟨level, begins⟩
  rw [ParseState.recognise?, if_pos (here.atModuleLevel_iff.mpr level)] at found
  rcases recognise_eq_ok found with ⟨_, notBegins⟩ | ⟨_, _, isSome, _⟩
  · exact notBegins begins
  · cases isSome

/-- Pieces that belong to a declaration already read are passed over. -/
theorem readPieces_append (finish : Position) (state : ParseState) (taken rest : List Piece) :
    readPieces finish state taken.length (taken ++ rest) = readPieces finish state 0 rest := by
  induction taken with
  | nil => rfl
  | cons piece taken inductionHypothesis => exact inductionHypothesis

/-- The parser reads the words of a module to the end, and finds its declarations. -/
theorem ModuleWords.exists_readPieces {declarations : List (BareImport ⊕ BareExport)}
    {tokens : List Token} (isWords : ModuleWords openers dotted declarations tokens)
    {pieces : List Piece} (isPieces : words pieces = tokens) (here : state.At openers dotted)
    (finish : Position) :
    ∃ result, readPieces finish state 0 pieces = .ok result ∧ result.brackets = [] ∧
      bareDeclarations result.nodes = declarations.reverse ++ bareDeclarations state.nodes := by
  induction isWords generalizing state pieces with
  | nil =>
      rw [List.map_eq_nil_iff.mp isPieces]
      exact ⟨state, rfl, List.map_eq_nil_iff.mp here.openers, rfl⟩
  | code plain tracked more inductionHypothesis =>
      rcases words_eq_cons_iff.mp isPieces with ⟨piece, rest, rfl, rfl, rfl⟩
      rw [← here.openers] at tracked
      rcases exists_trackToken tracked with ⟨brackets, isTracked, isBehind⟩
      have next : ((state.pushLead piece).pushCode piece.token brackets).At _
          (piece.token.isPunct '.') := ⟨isBehind, rfl⟩
      rcases inductionHypothesis rfl next with ⟨result, read, closed, isResult⟩
      refine ⟨result, ?_, closed, ?_⟩
      · simp only [readPieces, here.recognise?_eq_none plain, isTracked, read]
      · rw [isResult, ParseState.pushCode, bareDeclarations, List.filterMap_cons,
          ← bareDeclarations, bareDeclarations_pushLead]
        rfl
  | @declaration declaration declarations block tokens isWords more inductionHypothesis =>
      rcases words_eq_append_iff.mp isPieces with ⟨front, rest, rfl, rfl, rfl⟩
      rcases isWords.begins with ⟨word, others, isBlock, _⟩
      rcases words_eq_cons_iff.mp isBlock with ⟨piece, taken, rfl, rfl, rfl⟩
      rcases isWords.exists_recognise with ⟨recognised, found, isBare, isSize, notDot⟩
      have atModuleLevel := here.atModuleLevel_iff.mpr ⟨rfl, rfl⟩
      have next : ((state.pushLead piece).pushDeclaration recognised).At [] false :=
        ⟨here.openers, notDot⟩
      rcases inductionHypothesis rfl next with ⟨result, read, closed, isResult⟩
      refine ⟨result, ?_, closed, ?_⟩
      · rw [List.cons_append]
        simp only [readPieces, ParseState.recognise?, atModuleLevel, if_true, found, isSize]
        rw [readPieces_append, read]
      · rw [isResult, ParseState.pushDeclaration, bareDeclarations, List.filterMap_cons, isBare,
          ← bareDeclarations, bareDeclarations_pushLead]
        simp

end

/-! ## Traces of the parser -/

/-- Nodes were read from tokens, where the brackets `openers` were open in front of them and
the word in front of them was a dot if `dotted` holds.  In the end no bracket is open. -/
inductive Traced : (openers : List Char) → (dotted : Bool) → List Node → List Token → Prop
  | nil {dotted : Bool} : Traced [] dotted [] []
  | trivia {openers : List Char} {dotted : Bool} {node : Node} {nodes : List Node} {token : Token}
      {tokens : List Token} (isTrivia : token.isTrivia = true) (covers : node.Covers [token])
      (more : Traced openers dotted nodes tokens) :
      Traced openers dotted (node :: nodes) (token :: tokens)
  | code {openers behind : List Char} {dotted : Bool} {nodes : List Node} {token : Token}
      {tokens : List Token} (meaning : token.isTrivia = false)
      (plain : ¬(AtModuleLevel openers dotted ∧ Begins token (meaningful tokens)))
      (tracked : token.track? openers = some behind)
      (more : Traced behind (token.isPunct '.') nodes tokens) :
      Traced openers dotted (.code token.text :: nodes) (token :: tokens)
  | declaration {node : Node} {nodes : List Node} {block tokens : List Token}
      (declares : node.Declares (meaningful tokens) block) (more : Traced [] false nodes tokens) :
      Traced [] false (node :: nodes) (block ++ tokens)

/-- White space and comments in front of nodes. -/
theorem Traced.triviaNodes {openers : List Char} {dotted : Bool} {nodes : List Node}
    {tokens : List Token} (traced : Traced openers dotted nodes tokens) {trivia : List Token}
    (isTrivia : ∀ token ∈ trivia, token.isTrivia = true) :
    Traced openers dotted (Piece.triviaNodes trivia ++ nodes) (trivia ++ tokens) := by
  induction trivia with
  | nil => exact traced
  | cons token trivia inductionHypothesis =>
      rcases List.forall_mem_cons.mp isTrivia with ⟨first, others⟩
      rcases triviaNodes_cons first trivia with ⟨node, isNode, covers⟩
      rw [isNode]
      exact .trivia first covers (inductionHypothesis others)

theorem Node.Declares.declarationWords {behind block : List Token} {node : Node}
    (declares : node.Declares behind block) :
    ∃ declaration, node.bare? = some declaration ∧
      DeclarationWords behind declaration (meaningful block) := by
  cases declares with
  | importing covers words => exact ⟨_, rfl, .importing words⟩
  | exporting covers words => exact ⟨_, rfl, .exporting words⟩

theorem Node.bare?_eq_none {node : Node} (noDeclaration : node.isDeclaration = false) :
    node.bare? = none := by
  cases node with
  | trivia | comment | code => rfl
  | importing | exporting => cases noDeclaration

/-- The words of what was read make a module of its declarations. -/
theorem Traced.moduleWords {openers : List Char} {dotted : Bool} {nodes : List Node}
    {tokens : List Token} (traced : Traced openers dotted nodes tokens) :
    ModuleWords openers dotted (bareDeclarations nodes) (meaningful tokens) := by
  induction traced with
  | nil => exact .nil
  | @trivia openers dotted node nodes token tokens isTrivia covers more inductionHypothesis =>
      have noDeclaration := Node.bare?_eq_none (covers.noDeclaration_of_trivia isTrivia)
      rw [bareDeclarations, List.filterMap_cons, noDeclaration, meaningful,
        List.filter_cons_of_neg (by simp [isTrivia])]
      exact inductionHypothesis
  | code meaning plain tracked more inductionHypothesis =>
      rw [meaningful_cons meaning]
      exact .code plain tracked inductionHypothesis
  | declaration declares more inductionHypothesis =>
      rcases declares.declarationWords with ⟨declaration, isBare, isWords⟩
      rw [bareDeclarations, List.filterMap_cons, isBare, meaningful_append]
      exact .declaration isWords inductionHypothesis

/-- Reading pieces to the end adds nodes with a trace. -/
theorem traced_of_readPieces {finish : Position} {state result : ParseState} {skip : Nat}
    {pieces : List Piece} (read : readPieces finish state skip pieces = .ok result)
    (closed : result.brackets = []) (proper : ∀ piece ∈ pieces, piece.Proper) {tail : List Token}
    (isTrivia : ∀ token ∈ tail, token.isTrivia = true) {openers : List Char} {dotted : Bool}
    (here : state.At openers dotted) :
    ∃ added, result.nodes.reverse = state.nodes.reverse ++ added ∧
      Traced openers dotted (added ++ Piece.triviaNodes tail)
        ((pieces.drop skip).flatMap Piece.tokens ++ tail) := by
  induction pieces generalizing state skip openers dotted with
  | nil =>
      cases read
      obtain rfl : openers = [] := by rw [← here.openers, closed]; rfl
      refine ⟨[], by simp, ?_⟩
      simpa using Traced.nil.triviaNodes isTrivia
  | cons piece pieces inductionHypothesis =>
      rcases List.forall_mem_cons.mp proper with ⟨first, others⟩
      cases skip with
      | succ skip => exact inductionHypothesis read others here
      | zero =>
          simp only [readPieces] at read
          split at read
          · cases read
          · rename_i recognised found
            unfold ParseState.recognise? at found
            split at found
            · rename_i atModuleLevel
              rcases here.atModuleLevel_iff.mp atModuleLevel with ⟨rfl, rfl⟩
              have declares := declares_of_recognise found first.token others
              have last := (begins_of_recognise found first.token others).2.2
              have notDot : recognised.last.isPunct '.' = false := by
                rcases declares.declarationWords with ⟨_, _, isWords⟩
                rcases isWords.last with ⟨other, isOther, notDot⟩
                rw [last] at isOther
                rw [Option.some.inj isOther, notDot]
              have next : ((state.pushLead piece).pushDeclaration recognised).At [] false :=
                ⟨here.openers, notDot⟩
              rcases inductionHypothesis read others next with ⟨added, isAdded, traced⟩
              have behind : meaningful
                  ((pieces.drop recognised.size).flatMap Piece.tokens ++ tail) =
                  words (pieces.drop recognised.size) :=
                meaningful_pieces (fun piece member => others piece (List.mem_of_mem_drop member))
                  isTrivia
              rw [← behind] at declares
              have all : (pieces.take recognised.size).flatMap Piece.tokens ++
                  (pieces.drop recognised.size).flatMap Piece.tokens =
                  pieces.flatMap Piece.tokens := by
                rw [← List.flatMap_append, List.take_append_drop]
              refine ⟨Piece.triviaNodes piece.lead ++ recognised.node :: added, ?_, ?_⟩
              · simpa [ParseState.pushDeclaration, ParseState.pushLead] using isAdded
              · have whole := (Traced.declaration declares traced).triviaNodes first.lead
                simpa [Piece.tokens, ← all] using whole
            · cases found
          · rename_i found
            split at read
            · cases read
            · rename_i brackets tracked
              have step := track?_of_trackToken tracked
              rw [here.openers] at step
              have plain : ¬(AtModuleLevel openers dotted ∧
                  Begins piece.token.toToken
                    (meaningful (pieces.flatMap Piece.tokens ++ tail))) := by
                rw [meaningful_pieces others isTrivia]
                exact here.not_begins_of_recognise? found
              rcases inductionHypothesis read others ⟨rfl, rfl⟩ with ⟨added, isAdded, traced⟩
              refine ⟨Piece.triviaNodes piece.lead ++ .code piece.token.text :: added, ?_, ?_⟩
              · simpa [ParseState.pushCode, ParseState.pushLead] using isAdded
              · have whole := (Traced.code first.token plain step traced).triviaNodes first.lead
                simpa [Piece.tokens] using whole

/-- A document was read from its tokens, and its code was joined in the end. -/
theorem exists_traced_of_ofTokens {tokens : List Token} {document : Document}
    (built : Document.ofTokens tokens = .ok document) :
    ∃ nodes, document.nodes = Node.joinCode nodes ∧ Traced [] false nodes tokens := by
  simp only [Document.ofTokens, bind, Except.bind, pure, Except.pure] at built
  split at built
  · cases built
  · rename_i state read
    split at built
    · rename_i closed
      cases built
      rcases proper_group (Token.place .start tokens) with ⟨proper, isTrivia⟩
      rcases traced_of_readPieces read closed proper isTrivia ⟨rfl, rfl⟩ with
        ⟨added, isAdded, traced⟩
      rw [List.drop_zero, tokens_group, map_toToken_place] at traced
      exact ⟨_, congrArg Node.joinCode (congrArg (· ++ _) isAdded), traced⟩
    · cases built

/-- Tokens are a document with some declarations, layout aside, exactly if their words make
a module of these. -/
theorem ofTokens_iff_moduleWords {tokens : List Token}
    {declarations : List (BareImport ⊕ BareExport)} :
    (∃ document, Document.ofTokens tokens = .ok document ∧
      bareDeclarations document.nodes = declarations) ↔
      ModuleWords [] false declarations (meaningful tokens) := by
  constructor
  · rintro ⟨document, built, rfl⟩
    rcases exists_traced_of_ofTokens built with ⟨nodes, isNodes, traced⟩
    rw [isNodes, bareDeclarations_joinCode]
    exact traced.moduleWords
  · intro isWords
    have isPieces : words (Piece.group (Token.place .start tokens)).1 = meaningful tokens := by
      rw [words_group, map_toToken_place]
    have start : ParseState.At {} [] false := ⟨rfl, rfl⟩
    rcases isWords.exists_readPieces isPieces start
      (Position.start.after (Token.spell tokens)) with ⟨result, read, closed, isResult⟩
    refine ⟨⟨Node.joinCode (result.nodes.reverse ++
      Piece.triviaNodes (Piece.group (Token.place .start tokens)).2)⟩, ?_, ?_⟩
    · simp only [Document.ofTokens, bind, Except.bind, read, closed]
      rfl
    · rw [bareDeclarations_result, isResult]
      simp [bareDeclarations]

/-! ## Each word has one place -/

/-- Words with nothing in between, as pieces. -/
def Piece.ofWords (tokens : List Token) : List Piece :=
  tokens.map fun token => ⟨[], ⟨token, .start⟩⟩

@[simp]
theorem words_ofWords (tokens : List Token) : words (Piece.ofWords tokens) = tokens := by
  simp [Piece.ofWords, words, Function.comp_def]

/-- Words have one declaration in front. -/
theorem DeclarationWords.unique {block other behind otherBehind : List Token}
    {declaration otherDeclaration : BareImport ⊕ BareExport}
    (isWords : DeclarationWords behind declaration block)
    (isOther : DeclarationWords otherBehind otherDeclaration other)
    (same : block ++ behind = other ++ otherBehind) :
    declaration = otherDeclaration ∧ block = other ∧ behind = otherBehind := by
  -- The declaration is what the parser recognises, in whatever layout.
  have recognised {word : Token} {more behind : List Token} {declaration : BareImport ⊕ BareExport}
      (isWords : DeclarationWords behind declaration (word :: more)) :
      ∃ found, recognise ⟨word, .start⟩ (Piece.ofWords (more ++ behind)) = .ok (some found) ∧
        found.node.bare? = some declaration ∧ found.size = more.length := by
    have isPieces : DeclarationWords (words (Piece.ofWords behind)) declaration
        ((⟨word, .start⟩ : PlacedToken).toToken :: words (Piece.ofWords more)) := by
      simpa using isWords
    rcases isPieces.exists_recognise with ⟨found, isFound, isBare, isSize, _⟩
    exact ⟨found, by simpa [Piece.ofWords] using isFound, isBare,
      by simpa [Piece.ofWords] using isSize⟩
  rcases isWords.begins with ⟨word, more, rfl, _⟩
  rcases isOther.begins with ⟨otherWord, otherMore, rfl, _⟩
  obtain ⟨rfl, sameRest⟩ : word = otherWord ∧ more ++ behind = otherMore ++ otherBehind :=
    List.cons.inj same
  rcases recognised isWords with ⟨found, isFound, isBare, isSize⟩
  rcases recognised isOther with ⟨otherFound, isOtherFound, isOtherBare, isOtherSize⟩
  rw [sameRest, isOtherFound] at isFound
  cases isFound
  rw [isBare] at isOtherBare
  rw [isSize] at isOtherSize
  rcases List.append_inj sameRest isOtherSize with ⟨rfl, rfl⟩
  exact ⟨Option.some.inj isOtherBare, rfl, rfl⟩

section

variable {declarations : List (BareImport ⊕ BareExport)} {tokens : List Token}

/-- A word of code is passed. -/
theorem moduleWords_code_iff {openers : List Char} {dotted : Bool} {token : Token}
    (plain : ¬(AtModuleLevel openers dotted ∧ Begins token tokens)) :
    ModuleWords openers dotted declarations (token :: tokens) ↔
      ∃ behind, token.track? openers = some behind ∧
        ModuleWords behind (token.isPunct '.') declarations tokens := by
  constructor
  · intro isModule
    generalize isAll : token :: tokens = all at isModule
    cases isModule with
    | nil => cases isAll
    | code _ tracked more =>
        cases isAll
        exact ⟨_, tracked, more⟩
    | declaration isWords more =>
        rcases isWords.begins with ⟨word, others, rfl, begins⟩
        cases isAll
        exact absurd ⟨⟨rfl, rfl⟩, begins⟩ plain
  · rintro ⟨behind, tracked, more⟩
    exact .code plain tracked more

/-- A declaration is taken as a whole. -/
theorem DeclarationWords.moduleWords_iff {declaration : BareImport ⊕ BareExport}
    {block : List Token} (isWords : DeclarationWords tokens declaration block) :
    ModuleWords [] false declarations (block ++ tokens) ↔
      ∃ more, declarations = declaration :: more ∧ ModuleWords [] false more tokens := by
  constructor
  · intro isModule
    rcases isWords.begins with ⟨word, others, isBlock, begins⟩
    generalize isAll : block ++ tokens = all at isModule
    cases isModule with
    | nil => simp [isBlock] at isAll
    | code plain _ _ =>
        rw [isBlock] at isAll
        cases isAll
        exact absurd ⟨⟨rfl, rfl⟩, begins⟩ plain
    | declaration isOther more =>
        rcases isWords.unique isOther isAll with ⟨rfl, rfl, rfl⟩
        exact ⟨_, rfl, more⟩
  · rintro ⟨more, rfl, isModule⟩
    exact .declaration isWords isModule

end

/-! ## Words that begin alike -/

/-- Words that begin with the same word.  Unless this is the word of a declaration, the next
is the same too. -/
inductive Alike : List Token → List Token → Prop
  | nil : Alike [] []
  | cons {token : Token} {old new : List Token} (next : old.head? = new.head?) :
      Alike (token :: old) (token :: new)
  | declaration {word : Token} {old new : List Token}
      (isWord : word = .word "import" ∨ word = .word "export") : Alike (word :: old) (word :: new)

section

variable {old new : List Token}

theorem Alike.symm (alike : Alike old new) : Alike new old := by
  cases alike with
  | nil => exact .nil
  | cons next => exact .cons next.symm
  | declaration isWord => exact .declaration isWord

theorem Alike.head?_eq (alike : Alike old new) : old.head? = new.head? := by
  cases alike <;> rfl

theorem startsAttributes_of_declaration {word : Token}
    (isWord : word = .word "import" ∨ word = .word "export") (tokens : List Token) :
    Declaration.startsAttributes (word :: tokens) = false := by
  cases tokens with
  | nil => rfl
  | cons next tokens =>
      have notAttributes : (word.isWord "with" || word.isWord "assert") = false := by
        rcases isWord with rfl | rfl <;> decide
      rw [Declaration.startsAttributes, notAttributes, Bool.false_and]

theorem Alike.startsAttributes_eq (alike : Alike old new) :
    Declaration.startsAttributes old = Declaration.startsAttributes new := by
  cases alike with
  | nil => rfl
  | @cons token old new next =>
      cases old with
      | nil =>
          rw [List.head?_eq_none_iff.mp next.symm]
      | cons second old =>
          rcases List.head?_eq_some_iff.mp next.symm with ⟨rest, rfl⟩
          rfl
  | declaration isWord =>
      rw [startsAttributes_of_declaration isWord, startsAttributes_of_declaration isWord]

/-- A braced list begins with a brace, or with the word of a kind and a brace. -/
theorem beginsExport_cons_iff {token : Token} {tokens : List Token} :
    BeginsExport (token :: tokens) ↔ token = .punct '\x7b' ∨
      (token = .word "type" ∨ token = .word "typeof") ∧ tokens.head? = some (.punct '\x7b') := by
  constructor
  · rintro ⟨kind, more, isWords⟩
    cases kind with
    | value =>
        cases isWords
        exact .inl rfl
    | type =>
        cases isWords
        exact .inr ⟨.inl rfl, rfl⟩
    | typeof =>
        cases isWords
        exact .inr ⟨.inr rfl, rfl⟩
  · rintro (rfl | ⟨rfl | rfl, isBrace⟩)
    · exact ⟨.value, tokens, rfl⟩
    · rcases List.head?_eq_some_iff.mp isBrace with ⟨rest, rfl⟩
      exact ⟨.type, rest, rfl⟩
    · rcases List.head?_eq_some_iff.mp isBrace with ⟨rest, rfl⟩
      exact ⟨.typeof, rest, rfl⟩

theorem Alike.beginsExport (alike : Alike old new) (begins : BeginsExport old) :
    BeginsExport new := by
  cases alike with
  | nil => exact begins
  | cons next =>
      rw [beginsExport_cons_iff] at begins ⊢
      rwa [next] at begins
  | declaration isWord =>
      rcases beginsExport_cons_iff.mp begins with rfl | ⟨rfl | rfl, _⟩
      all_goals rcases isWord with isWord | isWord <;> exact absurd isWord (by decide)

/-- A declaration begins in front of words exactly if it does in front of words that begin
alike. -/
theorem Alike.begins_iff (alike : Alike old new) (token : Token) :
    Begins token old ↔ Begins token new := by
  have sameExport : BeginsExport old ↔ BeginsExport new :=
    ⟨alike.beginsExport, alike.symm.beginsExport⟩
  rw [Begins, Begins, BeginsImport, BeginsImport, alike.head?_eq, sameExport]

end

namespace Declaration

variable {old new : List Token} (alike : Alike old new)

include alike

/-- A declaration that ends in front of words also ends in front of words that begin
alike. -/
theorem EndWords.of_alike {ending : List Token} (ends : EndWords old ending) :
    EndWords new ending ∧ Alike (ending ++ old) (ending ++ new) := by
  cases ends with
  | absent stops => exact ⟨.absent (alike.head?_eq ▸ stops), alike⟩
  | semicolon => exact ⟨.semicolon, .cons alike.head?_eq⟩

theorem AttributeWords.of_alike {has : Bool} {tokens : List Token}
    (isWords : AttributeWords old has tokens) : AttributeWords new has tokens := by
  cases isWords with
  | absent stops => exact .absent (alike.startsAttributes_eq ▸ stops)
  | present isWord inner => exact .present isWord inner

theorem ImportWords.of_alike {within block : List Token} {bare : BareImport}
    (isWords : ImportWords old within bare block) : ImportWords new within bare block := by
  cases isWords with
  | bare isString hasAttributes ends =>
      rcases ends.of_alike alike with ⟨ends, behind⟩
      exact .bare isString (hasAttributes.of_alike behind) ends
  | bindings isClauses isString hasAttributes ends =>
      rcases ends.of_alike alike with ⟨ends, behind⟩
      exact .bindings isClauses isString (hasAttributes.of_alike behind) ends

theorem ExportWords.of_alike {within block : List Token} {bare : BareExport}
    (isWords : ExportWords old within bare block) : ExportWords new within bare block := by
  cases isWords with
  | own isList noSource noAttributes ends =>
      rcases ends.of_alike alike with ⟨ends, behind⟩
      exact .own isList (behind.head?_eq ▸ noSource) noAttributes ends
  | reexport isList isString hasAttributes ends =>
      rcases ends.of_alike alike with ⟨ends, behind⟩
      exact .reexport isList isString (hasAttributes.of_alike behind) ends

end Declaration

theorem DeclarationWords.of_alike {old new block : List Token}
    {declaration : BareImport ⊕ BareExport} (alike : Alike old new)
    (isWords : DeclarationWords old declaration block) :
    DeclarationWords new declaration block := by
  cases isWords with
  | importing isWords => exact .importing (isWords.of_alike alike)
  | exporting isWords => exact .exporting (isWords.of_alike alike)

end Deflow
