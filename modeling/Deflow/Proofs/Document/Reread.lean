import Deflow.Proofs.Document.Drawing
import Deflow.Proofs.Document.Recognition

/-!
# Declarations that are written anew are read back

A declaration that is written anew has tokens of its own, and the words among them make
the declaration.  The text is therefore read as one declaration that says the same.  Its
list goes over several lines if it was written so, which is why writing it once more gives
the same text.
-/

namespace Deflow

open Script

/-! ## Pieces of tokens -/

/-- Tokens are split where pieces are: behind a token that means something. -/
theorem exists_pieces_append {pieces : List Piece} {first second : List Token}
    (proper : ∀ piece ∈ pieces, piece.Proper)
    (same : pieces.flatMap Piece.tokens = first ++ second)
    (ends : ∀ last ∈ first.getLast?, last.isTrivia = false) :
    ∃ front back, pieces = front ++ back ∧ front.flatMap Piece.tokens = first ∧
      back.flatMap Piece.tokens = second := by
  induction pieces generalizing first with
  | nil =>
      rcases List.append_eq_nil_iff.mp same.symm with ⟨rfl, rfl⟩
      exact ⟨[], [], rfl, rfl, rfl⟩
  | cons piece pieces inductionHypothesis =>
      rcases List.forall_mem_cons.mp proper with ⟨ofPiece, others⟩
      rw [List.flatMap_cons, List.append_eq_append_iff] at same
      rcases same with ⟨more, rfl, isRest⟩ | ⟨left, isTokens, rfl⟩
      · have moreEnds : ∀ last ∈ more.getLast?, last.isTrivia = false := by
          intro last isLast
          apply ends
          rw [List.getLast?_append_of_ne_nil]
          · exact isLast
          · rintro rfl
            cases isLast
        rcases inductionHypothesis others isRest moreEnds with ⟨front, back, rfl, isFront, isBack⟩
        exact ⟨piece :: front, back, rfl, by rw [List.flatMap_cons, isFront], isBack⟩
      · cases left using List.reverseRecOn with
        | nil =>
            rw [List.append_nil] at isTokens
            exact ⟨[piece], pieces, rfl, by simpa using isTokens, rfl⟩
        | append_singleton left last =>
            -- All tokens of a piece but the last are white space and comments.
            rw [Piece.tokens, ← List.append_assoc] at isTokens
            have isLead := (List.append_inj' isTokens rfl).1
            cases first using List.reverseRecOn with
            | nil => exact ⟨[], piece :: pieces, rfl, rfl, by simp [Piece.tokens, isTokens]⟩
            | append_singleton first last =>
                have isTrivia := ofPiece.lead last (by simp [isLead])
                simp [ends last (by simp)] at isTrivia

theorem words_of_tokens {pieces : List Piece} {tokens : List Token}
    (proper : ∀ piece ∈ pieces, piece.Proper) (same : pieces.flatMap Piece.tokens = tokens) :
    words pieces = meaningful tokens := by
  rw [← same, meaningful_tokens proper]

/-! ## Documents of one declaration -/

/-- Pieces that belong to a declaration already read are passed over. -/
theorem readPieces_skip (finish : Position) (state : ParseState) (pieces : List Piece) :
    readPieces finish state pieces.length pieces = .ok state := by
  induction pieces with
  | nil => rfl
  | cons piece pieces inductionHypothesis => exact inductionHypothesis

/-- Tokens that begin and end with one that means something are those of pieces, the first
of which has nothing in front of it. -/
theorem exists_group {first : Token} {block : List Token} (meaning : first.isTrivia = false)
    (ends : ∀ last ∈ (first :: block).getLast?, last.isTrivia = false) (position : Position) :
    ∃ start pieces, Piece.group (Token.place position (first :: block)) =
        (⟨[], ⟨first, start⟩⟩ :: pieces, []) ∧
      (∀ piece ∈ pieces, piece.Proper) ∧ pieces.flatMap Piece.tokens = block := by
  rcases proper_group (Token.place position (first :: block)) with ⟨proper, isTrivia⟩
  have isTokens := tokens_group (Token.place position (first :: block))
  rw [map_toToken_place] at isTokens
  rcases isGroup : Piece.group (Token.place position (first :: block)) with ⟨pieces, tail⟩
  rw [isGroup] at proper isTrivia isTokens
  simp only at proper isTrivia isTokens
  have noTail : tail = [] := by
    cases tail using List.reverseRecOn with
    | nil => rfl
    | append_singleton tail last =>
        have lastTrivia := isTrivia last (by simp)
        rw [← List.append_assoc] at isTokens
        simp [ends last (by rw [← isTokens, List.getLast?_concat]; rfl)] at lastTrivia
  subst noTail
  rw [List.append_nil] at isTokens
  rcases @exists_pieces_append _ [first] block proper isTokens (by simpa using meaning) with
    ⟨front, back, rfl, isFront, isBack⟩
  rcases List.forall_mem_append.mp proper with ⟨frontProper, backProper⟩
  have isWord : words front = [first] := by
    rw [words_of_tokens frontProper isFront, meaningful,
      List.filter_cons_of_pos (by simp [meaning])]
    rfl
  rcases words_eq_singleton_iff.mp isWord with ⟨⟨lead, ⟨token, start⟩⟩, rfl, rfl⟩
  have noLead : lead = [] := by simpa [Piece.tokens] using isFront
  subst noLead
  exact ⟨start, back, rfl, backProper, isBack⟩

/-- Tokens that are recognised as one declaration are a document of it. -/
theorem ofTokens_of_recognise {first : Token} {tokens : List Token} {node : Node}
    (meaning : first.isTrivia = false) (begins : [first] <+: tokens)
    (ends : ∀ last ∈ tokens.getLast?, last.isTrivia = false)
    (found : ∀ start pieces, (∀ piece ∈ pieces, piece.Proper) →
      first :: pieces.flatMap Piece.tokens = tokens →
      recognise ⟨first, start⟩ pieces = .ok (some (.of node ⟨first, start⟩ pieces))) :
    Document.ofTokens tokens = .ok ⟨[node]⟩ := by
  rcases begins with ⟨block, rfl⟩
  rw [List.singleton_append] at ends found ⊢
  rcases exists_group meaning ends .start with ⟨start, pieces, isGroup, proper, isTokens⟩
  have recognised := found start pieces proper (by rw [isTokens])
  have joined : Node.joinCode [node] = [node] := by
    cases node <;> rfl
  simp only [Document.ofTokens, isGroup, readPieces, ParseState.recognise?,
    ParseState.atModuleLevel, List.isEmpty_nil, Option.any_none, Bool.not_false, Bool.and_self,
    if_true, recognised]
  simp only [Recognised.of, readPieces_skip]
  simpa [ParseState.pushDeclaration, ParseState.pushLead, Piece.triviaNodes, bind,
    Except.bind, pure, Except.pure] using joined

/-- A text without comments that is recognised as one declaration is read as a document of
it. -/
theorem parse_of_recognise {word : String} {text : Text} {tokens : List Token} {node : Node}
    (scanned : tokenize text = .ok tokens) (begins : [.word word] <+: tokens)
    (ends : ∀ last ∈ tokens.getLast?, last.isTrivia = false) (noComment : commentsOf tokens = [])
    (found : ∀ start pieces, (∀ piece ∈ pieces, piece.Proper) →
      .word word :: pieces.flatMap Piece.tokens = tokens → Piece.comments pieces = [] →
      word.toList ++ Piece.spell pieces = text →
      recognise ⟨.word word, start⟩ pieces = .ok (some (.of node ⟨.word word, start⟩ pieces))) :
    Document.parse text = .ok ⟨[node]⟩ := by
  have spelled := (tokenize_eq_ok_iff.mp scanned).spell_eq
  refine parse_of_tokenize scanned (ofTokens_of_recognise rfl begins ends ?_)
  intro start pieces proper isTokens
  apply found start pieces proper isTokens
  · rw [← commentsOf_tokens proper, ← noComment, ← isTokens]
    rfl
  · rw [← spelled, ← isTokens, ← spell_tokens]
    rfl

/-- An `import` that is read from all pieces behind its word is recognised. -/
theorem recognise_importing {start : Position} {pieces : List Piece}
    {declaration : ImportDeclaration}
    (noExpression :
      Declaration.nextIs (fun next => next.isPunct '(' || next.isPunct '.') pieces = false)
    (read : Declaration.importDeclaration pieces = .ok (declaration, [])) :
    recognise ⟨.word "import", start⟩ pieces = .ok (some (.of
      (.importing { declaration with
        comments := Piece.comments pieces
        written := some ("import".toList ++ Piece.spell pieces) })
      ⟨.word "import", start⟩ pieces)) := by
  have isWord : (Token.word "import").isWord "import" = true := by decide
  have all : Declaration.taken pieces [] = pieces := by simp [Declaration.taken]
  simp only [recognise, isWord, noExpression, read, all, Bool.not_false, Bool.and_self,
    if_true, bind, Except.bind]
  rfl

theorem recognise_exporting {start : Position} {pieces : List Piece}
    {declaration : ExportDeclaration}
    (read : Declaration.exportDeclaration pieces = .ok (some declaration, [])) :
    recognise ⟨.word "export", start⟩ pieces = .ok (some (.of
      (.exporting { declaration with
        comments := Piece.comments pieces
        written := some ("export".toList ++ Piece.spell pieces) })
      ⟨.word "export", start⟩ pieces)) := by
  have isWord : (Token.word "export").isWord "export" = true := by decide
  have notImport : (Token.word "export").isWord "import" = false := by decide
  have all : Declaration.taken pieces [] = pieces := by simp [Declaration.taken]
  simp only [recognise, isWord, notImport, read, all, Bool.false_and, Bool.false_eq_true, if_false,
    if_true, bind, Except.bind]
  rfl

/-! ## The words of what is drawn -/

@[simp]
theorem meaningful_nil : meaningful [] = [] :=
  rfl

attribute [simp] meaningful_append

@[simp]
theorem meaningful_space (text : Text) (tokens : List Token) :
    meaningful (⟨.whitespace, text⟩ :: tokens) = meaningful tokens :=
  rfl

@[simp]
theorem meaningful_blank (tokens : List Token) :
    meaningful (.blank :: tokens) = meaningful tokens :=
  rfl

@[simp]
theorem meaningful_word (word : String) (tokens : List Token) :
    meaningful (.word word :: tokens) = .word word :: meaningful tokens :=
  rfl

@[simp]
theorem meaningful_punct (c : Char) (tokens : List Token) :
    meaningful (.punct c :: tokens) = .punct c :: meaningful tokens :=
  rfl

theorem meaningful_cons {token : Token} (meaning : token.isTrivia = false) (tokens : List Token) :
    meaningful (token :: tokens) = token :: meaningful tokens :=
  List.filter_cons_of_pos (by simp [meaning])

theorem Script.Token.isTrivia_of_isName {token : Token} (isName : token.isName = true) :
    token.isTrivia = false := by
  rcases token with ⟨kind, text⟩
  cases kind <;> first | rfl | cases isName

@[simp]
theorem meaningful_ofName (name : Text) (tokens : List Token) :
    meaningful (.ofName name :: tokens) = .ofName name :: meaningful tokens :=
  meaningful_cons (Token.isTrivia_of_isName (isName_ofName name)) tokens

/-- A binding that is drawn has the words of its names. -/
theorem Specifier.meaningful_drawn (item : Specifier) :
    meaningful item.drawn = item.kind.words ++ .ofName item.name ::
      item.renamed.toList.flatMap fun new => [.word "as", .ofName new] := by
  rcases item with ⟨kind, name, renamed⟩
  cases kind <;> cases renamed <;> simp [Specifier.drawn, drawnNewName, BindingKind.words]

namespace Declaration

/-- Runs of words with a comma behind each, or behind each but the last, and a closing
brace. -/
inductive Separated : List (List Token) → List Token → Prop
  | nil : Separated [] [.punct '\x7d']
  | last {run : List Token} : Separated [run] (run ++ [.punct '\x7d'])
  | cons {run tokens : List Token} {runs : List (List Token)} (rest : Separated runs tokens) :
      Separated (run :: runs) (run ++ .punct ',' :: tokens)

/-- The words of a list are those of its bindings and the signs between them. -/
theorem listWords_iff {items : List Specifier} {tokens : List Token} :
    ListWords items tokens ↔
      ∃ runs, Separated runs tokens ∧ List.Forall₂ BindingWords items runs := by
  constructor
  · intro list
    induction list with
    | nil => exact ⟨[], .nil, .nil⟩
    | last binding => exact ⟨[_], .last, .cons binding .nil⟩
    | cons binding rest inductionHypothesis =>
        rcases inductionHypothesis with ⟨runs, separated, bindings⟩
        exact ⟨_ :: runs, .cons separated, .cons binding bindings⟩
  · rintro ⟨runs, separated, bindings⟩
    induction separated generalizing items with
    | nil =>
        cases bindings
        exact .nil
    | last =>
        cases bindings with
        | cons binding others =>
            cases others
            exact .last binding
    | cons rest inductionHypothesis =>
        cases bindings with
        | cons binding others => exact .cons binding (inductionHypothesis others)

theorem separated_joinDrawn {pieces : List (List Token)} (several : pieces ≠ []) :
    Separated (pieces.map meaningful) (meaningful (joinDrawn pieces) ++ [.punct '\x7d']) := by
  fun_induction joinDrawn pieces with
  | case1 => exact absurd rfl several
  | case2 piece => exact .last
  | case3 piece pieces nonempty inductionHypothesis =>
      have rest := inductionHypothesis fun none => nonempty none
      simpa using Separated.cons rest

theorem separated_drawnLines (options : PrintOptions) (lineEnd : Text) (items : List (List Token)) :
    Separated (items.map meaningful)
      (meaningful (drawnLines options lineEnd items) ++ [.punct '\x7d']) := by
  induction items with
  | nil => exact .nil
  | cons item items inductionHypothesis =>
      simp only [drawnLines, meaningful_space, meaningful_append, List.append_assoc]
      split
      · rename_i isLast
        have none : items = [] := by simpa using (Bool.and_eq_true_iff.mp isLast).1
        subst none
        exact .last
      · exact .cons inductionHypothesis

/-- A list that is drawn has the words of its bindings, however it is laid out. -/
theorem separated_drawnInside (list : SpecifierList) (options : PrintOptions) (lineEnd : Text)
    (fits : Bool) :
    Separated ((list.items.map Specifier.drawn).map meaningful)
      (meaningful (list.drawnInside options lineEnd fits)) := by
  unfold SpecifierList.drawnInside
  simp only
  split
  · rename_i isEmpty
    rw [List.isEmpty_iff.mp isEmpty]
    exact .nil
  · rename_i nonempty
    split
    · have several : list.items.map Specifier.drawn ≠ [] := by simpa using nonempty
      simpa using separated_joinDrawn several
    · simpa using separated_drawnLines options lineEnd (list.items.map Specifier.drawn)

theorem listWords_drawnInside {list : SpecifierList} (options : PrintOptions) (lineEnd : Text)
    (fits : Bool) (bindings : ∀ item ∈ list.items, BindingWords item (meaningful item.drawn)) :
    ListWords list.items (meaningful (list.drawnInside options lineEnd fits)) := by
  refine listWords_iff.mpr ⟨_, separated_drawnInside list options lineEnd fits, ?_⟩
  rw [List.map_map, List.forall₂_map_right_iff, List.forall₂_same]
  exact bindings

/-- The bindings of an `import` that are drawn have the words that make them. -/
theorem clauseWords_drawnBindings {declaration : ImportDeclaration} (options : PrintOptions)
    (lineEnd : Text) (fits : Bool) (kind : BindingKind)
    (single : declaration.namespaceName = none ∨ declaration.specifiers = none)
    (binds : declaration.binds = true)
    (bindings : ∀ list ∈ declaration.specifiers, ∀ item ∈ list.items,
      BindingWords item (meaningful item.drawn)) :
    ClauseWords kind declaration.defaultName declaration.namespaceName
      (declaration.specifiers.map SpecifierList.items)
      (meaningful (declaration.drawnBindings options lineEnd fits)) := by
  have star (name : Text) : SecondWords (some name) none
      [.punct '*', .word "as", ⟨.identifier, name⟩] := @SecondWords.star ⟨.identifier, name⟩ rfl
  have braced {list : SpecifierList} (isList : declaration.specifiers = some list) :
      SecondWords none (some list.items)
        (.punct '\x7b' :: meaningful (list.drawnInside options lineEnd fits)) :=
    .list (listWords_drawnInside options lineEnd fits (bindings list isList))
  unfold ImportDeclaration.binds ImportDeclaration.drawnClauses at binds
  unfold ImportDeclaration.drawnBindings ImportDeclaration.drawnClauses
  cases isNamespace : declaration.namespaceName with
  | none =>
      cases isList : declaration.specifiers with
      | none =>
          cases isDefault : declaration.defaultName with
          | none => simp [isNamespace, isList, isDefault] at binds
          | some name => exact @ClauseWords.default kind ⟨.identifier, name⟩ rfl
      | some list =>
          cases declaration.defaultName with
          | none => exact .second (braced isList)
          | some name => exact @ClauseWords.both kind ⟨.identifier, name⟩ _ _ _ rfl (braced isList)
  | some name =>
      rw [single.resolve_left (by simp [isNamespace])]
      cases declaration.defaultName with
      | none => exact .second (star name)
      | some first => exact @ClauseWords.both kind ⟨.identifier, first⟩ _ _ _ rfl (star name)

end Declaration

/-! ## Attributes -/

/-- Tokens are those of attributes, and in front of a semicolon they are read as such
wherever they stand. -/
structure Restates (attributes : Option Text) (tokens : List Token) : Prop
    extends IsAttributes attributes tokens where
  isWords : Declaration.AttributeWords [.punct ';'] attributes.isSome (meaningful tokens)
  begins : ∀ first ∈ tokens.head?, first.isTrivia = false
  ends : ∀ last ∈ tokens.getLast?, last.isTrivia = false
  reads : ∀ context, Reads (.script .endOfInput context)
    (Token.spell (drawnAttributes tokens ++ [.punct ';']))
    (drawnAttributes tokens ++ [.punct ';']) []

theorem meaningful_drawnAttributes (tokens : List Token) :
    meaningful (drawnAttributes tokens) = meaningful tokens := by
  cases tokens <;> rfl

theorem Restates.ends_drawnAttributes {attributes : Option Text} {tokens : List Token}
    (restates : Restates attributes tokens) :
    ∀ last ∈ (drawnAttributes tokens).getLast?, last.isTrivia = false := by
  cases tokens with
  | nil => simp [drawnAttributes]
  | cons first tokens =>
      rw [drawnAttributes, List.getLast?_cons_cons]
      · exact restates.ends
      · simp

/-- Pieces of attributes are read as the attributes. -/
theorem Restates.attributesOf_eq {attributes : Option Text} {tokens : List Token}
    (restates : Restates attributes tokens) {pieces : List Piece}
    (proper : ∀ piece ∈ pieces, piece.Proper)
    (isTokens : pieces.flatMap Piece.tokens = drawnAttributes tokens) :
    Declaration.attributesOf pieces = attributes := by
  have spelled := restates.spelled
  cases tokens with
  | nil =>
      cases attributes with
      | some text => cases spelled
      | none =>
          cases pieces with
          | nil => rfl
          | cons piece pieces => simp [drawnAttributes, Piece.tokens] at isTokens
  | cons first tokens =>
      cases attributes with
      | none => cases spelled
      | some text =>
          rcases @exists_pieces_append _ [.blank, first] tokens proper isTokens
            (by simpa using restates.begins) with ⟨front, back, rfl, isFront, isBack⟩
          have isWord : words front = [first] := by
            rw [words_of_tokens (fun piece member => proper piece (by simp [member])) isFront,
              meaningful_blank, meaningful_cons (restates.begins first rfl)]
            rfl
          rcases words_eq_singleton_iff.mp isWord with ⟨piece, rfl, rfl⟩
          have isText : Token.spell (piece.token.toToken :: tokens) = text :=
            (List.cons.inj spelled).2
          rw [List.singleton_append, Declaration.attributesOf, ← spell_tokens, isBack, ← isText]
          simp

/-! ## Reading what is drawn -/

section

variable {attributes : Option Text} {attributeTokens : List Token} {literal : StringLiteral}
  {options : PrintOptions}

/-- The pieces behind the bindings of a declaration: the name of a module, with `from` in
front of it if something is bound, attributes and a semicolon. -/
structure ModulePieces (binds : Bool) (attributes : Option Text) (written : Text)
    (pieces front : List Piece) (name : Piece) (attributePieces ending : List Piece) : Prop where
  isPieces : pieces = front ++ name :: (attributePieces ++ (ending ++ []))
  isFrom : words front = if binds then [.word "from"] else []
  isName : name.token.toToken = ⟨.string, written⟩
  isAttributes : Declaration.attributesOf attributePieces = attributes
  isWords :
    Declaration.AttributeWords (words (ending ++ [])) attributes.isSome (words attributePieces)
  ends : Declaration.EndWords (words []) (words ending)

theorem ModulePieces.isString {binds : Bool} {written : Text} {pieces front : List Piece}
    {name : Piece} {attributePieces ending : List Piece}
    (ofModule : ModulePieces binds attributes written pieces front name attributePieces ending) :
    name.token.kind = .string := by
  rw [ofModule.isName]

theorem ModulePieces.text_eq {binds : Bool} {written : Text} {pieces front : List Piece}
    {name : Piece} {attributePieces ending : List Piece}
    (ofModule : ModulePieces binds attributes written pieces front name attributePieces ending) :
    name.token.text = written := by
  rw [ofModule.isName]

theorem Restates.exists_modulePieces (restates : Restates attributes attributeTokens) {binds : Bool}
    {pieces : List Piece} (proper : ∀ piece ∈ pieces, piece.Proper)
    (isTokens : pieces.flatMap Piece.tokens =
      drawnModule binds literal options ++ (drawnAttributes attributeTokens ++ [.punct ';'])) :
    ∃ front name attributePieces ending,
      ModulePieces binds attributes (literal.render options.quote) pieces front name attributePieces
        ending := by
  have moduleEnds :
      ∀ last ∈ (drawnModule binds literal options).getLast?, last.isTrivia = false := by
    cases binds <;> simp [drawnModule, Token.isTrivia]
  rcases exists_pieces_append proper isTokens moduleEnds with
    ⟨modulePieces, behind, rfl, isModule, isBehind⟩
  rcases List.forall_mem_append.mp proper with ⟨moduleProper, behindProper⟩
  rcases exists_pieces_append behindProper isBehind restates.ends_drawnAttributes with
    ⟨attributePieces, ending, rfl, isAttributes, isEnding⟩
  rcases List.forall_mem_append.mp behindProper with ⟨attributesProper, endingProper⟩
  have moduleWords : words modulePieces =
      (if binds then [.word "from"] else []) ++ [⟨.string, literal.render options.quote⟩] := by
    rw [words_of_tokens moduleProper isModule]
    cases binds <;> rfl
  have endingWords : words ending = [.punct ';'] := words_of_tokens endingProper isEnding
  have attributeWords : words attributePieces = meaningful attributeTokens := by
    rw [words_of_tokens attributesProper isAttributes, meaningful_drawnAttributes]
  rcases words_eq_append_iff.mp moduleWords with ⟨front, last, rfl, isFrom, isLast⟩
  rcases words_eq_singleton_iff.mp isLast with ⟨name, rfl, isName⟩
  refine ⟨front, name, attributePieces, ending, by simp, isFrom, isName,
    restates.attributesOf_eq attributesProper isAttributes, ?_, ?_⟩
  · rw [List.append_nil, endingWords, attributeWords]
    exact restates.isWords
  · rw [endingWords]
    exact .semicolon

theorem reads_semicolon (context : Context) :
    Reads (.script .endOfInput context) [';'] [.punct ';'] [] := by
  have free : Freestanding [] [.punct ';'] := .punct (by decide) trivial
  exact free.reads Reads.scriptEnd

/-- A declaration that stands by itself through the name of its module is read from its
text. -/
theorem scans_of_freestanding {word : String} {through behind : List Token}
    (member : word ∈ ["import", "export"]) (begins : [.word word] <+: through)
    (free : ∀ rest, Freestanding rest through)
    (reads : ∀ context, Reads (.script .endOfInput context) (Token.spell behind) behind []) :
    Scans (Token.spell (through ++ behind)) (through ++ behind) := by
  rcases begins with ⟨front, rfl⟩
  refine .script ?_ ?_
  · simp only [List.mem_cons, List.not_mem_nil, or_false] at member
    rintro ⟨rest, isLine⟩
    rcases member with rfl | rfl <;> simp [Token.word] at isLine
  · rw [Token.spell_append]
    exact (free _).reads (reads _)

end

/-! ## Lines -/

/-- No name of a list on one line goes over several. -/
def SpecifierList.Unbroken (list : SpecifierList) : Prop :=
  list.multiline = false → ∀ name ∈ Specifier.names list.items, '\n' ∉ name

/-- A list as it is read back from what is drawn of it. -/
def SpecifierList.reread (list : SpecifierList) (options : PrintOptions) (lineEnd : Text)
    (fits : Bool) : SpecifierList where
  items := list.items
  multiline := (Token.spell (list.drawnInside options lineEnd fits)).contains '\n'

theorem Specifier.spell_drawn_unbroken {item : Specifier}
    (unbroken : ∀ name ∈ item.name :: item.renamed.toList, '\n' ∉ name) :
    '\n' ∉ Token.spell item.drawn := by
  rcases item with ⟨kind, name, renamed⟩
  have ofKind : '\n' ∉ kind.lead := by cases kind <;> decide
  rw [Specifier.spell_drawn, Specifier.render]
  cases renamed with
  | none => simpa [ofKind] using unbroken
  | some new => simpa [ofKind] using unbroken

theorem spell_joinDrawn_unbroken {pieces : List (List Token)}
    (each : ∀ piece ∈ pieces, '\n' ∉ Token.spell piece) :
    '\n' ∉ Token.spell (joinDrawn pieces) := by
  fun_induction joinDrawn pieces with
  | case1 => simp
  | case2 piece => exact each piece (.head _)
  | case3 piece pieces several inductionHypothesis =>
      rcases List.forall_mem_cons.mp each with ⟨first, others⟩
      simpa [first, Token.blank] using inductionHypothesis others

/-- What is drawn of a list tells whether it goes over several lines, so that drawing it
again changes nothing. -/
theorem SpecifierList.drawnInside_reread {list : SpecifierList} (unbroken : list.Unbroken)
    (options : PrintOptions) {lineEnd : Text} (isEnd : IsLineEnd lineEnd) (fits : Bool) :
    (list.reread options lineEnd fits).drawnInside options lineEnd fits =
      list.drawnInside options lineEnd fits := by
  cases isItems : list.items with
  | nil => simp [drawnInside, reread, isItems]
  | cons item items =>
      by_cases flat : (!list.multiline && fits) = true
      · rcases Bool.and_eq_true_iff.mp flat with ⟨oneLine, fitting⟩
        have isFlat : list.multiline = false := by simpa using oneLine
        have each : ∀ piece ∈ list.items.map Specifier.drawn, '\n' ∉ Token.spell piece := by
          refine List.forall_mem_map.mpr fun item member => ?_
          refine Specifier.spell_drawn_unbroken fun name isName => unbroken isFlat name ?_
          exact List.mem_flatMap.mpr ⟨item, member, isName⟩
        have stays : (list.reread options lineEnd fits).multiline = false := by
          have drawn : list.drawnInside options lineEnd fits =
              .blank ::
                (joinDrawn (list.items.map Specifier.drawn) ++ [.blank, .punct '\x7d']) := by
            rw [drawnInside, if_neg (by simp [isItems]), if_pos flat]
          simpa [reread, drawn, Token.blank] using spell_joinDrawn_unbroken each
        have same : list.reread options lineEnd fits = list :=
          congrArg (SpecifierList.mk list.items) (stays.trans isFlat.symm)
        rw [same]
      · have drawn : list.drawnInside options lineEnd fits =
            drawnLines options lineEnd (list.items.map Specifier.drawn) ++ [.punct '\x7d'] := by
          rw [drawnInside, if_neg (by simp [isItems]), if_neg flat]
        have breaks : (list.reread options lineEnd fits).multiline = true := by
          have inEnd : '\n' ∈ lineEnd := by rcases isEnd with rfl | rfl <;> simp
          simp [reread, drawn, spell_drawnLines, inEnd]
        rw [drawn, drawnInside, if_neg (by simp [reread, isItems]), if_neg (by simp [breaks])]
        rfl

/-! ## Declarations -/

namespace Declaration

theorem nextIs_of_words {pieces : List Piece}
    (first : ∀ token ∈ (words pieces).head?, (token.isPunct '(' || token.isPunct '.') = false) :
    nextIs (fun next => next.isPunct '(' || next.isPunct '.') pieces = false := by
  cases pieces with
  | nil => rfl
  | cons piece pieces => exact first _ rfl

/-- The bindings of an `import` begin with a name, a star or a brace. -/
theorem ClauseWords.begins {kind : BindingKind} {defaultName namespaceName : Option Text}
    {items : Option (List Specifier)} {tokens : List Token}
    (clauses : ClauseWords kind defaultName namespaceName items tokens) :
    ∃ first more, tokens = first :: more ∧ (first.isPunct '(' || first.isPunct '.') = false := by
  have ofIdentifier {name : Token} (isIdentifier : name.kind = .identifier) :
      (name.isPunct '(' || name.isPunct '.') = false := by
    simp [Token.isPunct, isIdentifier]
  cases clauses with
  | default isIdentifier => exact ⟨_, _, rfl, ofIdentifier isIdentifier⟩
  | both isIdentifier _ => exact ⟨_, _, rfl, ofIdentifier isIdentifier⟩
  | adjoined isIdentifier _ _ => exact ⟨_, _, rfl, ofIdentifier isIdentifier⟩
  | second second =>
      cases second with
      | star _ => exact ⟨_, _, rfl, by decide⟩
      | list _ => exact ⟨_, _, rfl, by decide⟩

/-- A list is read from the pieces behind the first brace. -/
theorem inBraces_append {front list : List Piece} {brace : Piece}
    (noBrace : ∀ token ∈ words front, token.isPunct '\x7b' = false)
    (isBrace : brace.token.toToken = .punct '\x7b') : inBraces (front ++ brace :: list) = list := by
  induction front with
  | nil => exact inBraces_brace (Piece.isPunct_iff.mpr isBrace) list
  | cons piece front inductionHypothesis =>
      rcases List.forall_mem_cons.mp noBrace with ⟨first, others⟩
      exact (inBraces_cons first _).trans (inductionHypothesis others)

end Declaration

theorem meaningful_drawnKind (kind : BindingKind) :
    meaningful (kind.words.flatMap fun word => [.blank, word]) = kind.words := by
  cases kind <;> rfl

theorem ends_of_suffix {c : Char} {tokens : List Token} (suffix : [.punct c] <:+ tokens) :
    ∀ last ∈ tokens.getLast?, last.isTrivia = false := by
  rw [List.singleton_suffix_iff_getLast?_eq_some.mp suffix]
  rintro _ ⟨⟩
  rfl

theorem SpecifierList.suffix_drawnInside (list : SpecifierList) (options : PrintOptions)
    (lineEnd : Text) (fits : Bool) : [.punct '\x7d'] <:+ list.drawnInside options lineEnd fits := by
  unfold drawnInside
  simp only
  split
  · exact List.suffix_rfl
  · split
    · exact ⟨.blank :: (joinDrawn (list.items.map Specifier.drawn) ++ [.blank]), by simp⟩
    · exact List.suffix_append ..

/-- The pieces of a brace and of what is drawn behind it. -/
theorem exists_pieces_brace {pieces : List Piece} {front inside : List Token}
    (proper : ∀ piece ∈ pieces, piece.Proper)
    (isTokens : pieces.flatMap Piece.tokens = front ++ .blank :: .punct '\x7b' :: inside) :
    ∃ before brace list, pieces = before ++ brace :: list ∧ words before = meaningful front ∧
      brace.token.toToken = .punct '\x7b' ∧ (∀ piece ∈ list, piece.Proper) ∧
      list.flatMap Piece.tokens = inside := by
  have isSplit : pieces.flatMap Piece.tokens = (front ++ [.blank, .punct '\x7b']) ++ inside := by
    simpa using isTokens
  rcases exists_pieces_append proper isSplit (by simp [Token.isTrivia, Token.punct]) with
    ⟨opening, list, rfl, isOpening, isList⟩
  rcases List.forall_mem_append.mp proper with ⟨openingProper, listProper⟩
  have openingWords : words opening = meaningful front ++ [.punct '\x7b'] := by
    rw [words_of_tokens openingProper isOpening]
    simp
  rcases words_eq_append_iff.mp openingWords with ⟨before, last, rfl, isBefore, isLast⟩
  rcases words_eq_singleton_iff.mp isLast with ⟨brace, rfl, isBrace⟩
  exact ⟨before, brace, list, by simp, isBefore, isBrace, listProper, isList⟩

/-- An `import` that can be written and read back: its names and its source are tokens, its
bindings and attributes are read where they are written, and it has no comments. -/
structure ImportDeclaration.Drawable (declaration : ImportDeclaration) (options : PrintOptions)
    (attributes : List Token) : Prop where
  noComment : declaration.comments = []
  identifiers : ∀ name ∈ declaration.parts.identifiers, IsLexeme ⟨.identifier, name⟩
  names : ∀ name ∈ declaration.parts.names, IsLexeme (.ofName name)
  source : IsLexeme ⟨.string, declaration.source.render options.quote⟩
  restates : Restates declaration.attributes attributes
  single : declaration.namespaceName = none ∨ declaration.specifiers = none
  bare : declaration.binds = false → declaration.kind = .value
  bindings : ∀ list ∈ declaration.specifiers, ∀ item ∈ list.items,
    Declaration.BindingWords item (meaningful item.drawn)
  unbroken : ∀ list ∈ declaration.specifiers, list.Unbroken

/-- An `import` as it is read back from what is written of it. -/
def ImportDeclaration.reread (declaration : ImportDeclaration) (options : PrintOptions)
    (lineEnd : Text) (attributes : List Token) : ImportDeclaration :=
  { declaration with
    specifiers := declaration.specifiers.map
      (·.reread options lineEnd (declaration.fits options attributes))
    source := declaration.source.requote options.quote
    written := some (declaration.render options lineEnd) }

namespace ImportDeclaration

variable {declaration : ImportDeclaration} {options : PrintOptions} {attributes : List Token}
  {lineEnd : Text}

theorem drawnClauses_noBrace :
    ∀ token ∈ (if declaration.drawnClauses.isEmpty then []
        else .blank :: joinDrawn declaration.drawnClauses) ++
      (if declaration.drawnClauses.isEmpty then [] else [.punct ',']),
      token.isPunct '\x7b' = false := by
  unfold drawnClauses
  cases declaration.defaultName <;> cases declaration.namespaceName <;>
    simp [joinDrawn, Token.isPunct, Token.word, Token.punct, Token.blank]

theorem ends_drawnBindings (fits : Bool) :
    ∀ last ∈ (declaration.drawnBindings options lineEnd fits).getLast?, last.isTrivia = false := by
  unfold drawnBindings
  cases declaration.specifiers with
  | none =>
      unfold drawnClauses
      cases declaration.defaultName <;> cases declaration.namespaceName <;>
        simp [joinDrawn, Token.isTrivia]
  | some list =>
      have closed : [.punct '\x7d'] <:+
          .blank :: .punct '\x7b' :: list.drawnInside options lineEnd fits :=
        (list.suffix_drawnInside options lineEnd fits).trans
          (List.suffix_append [Token.blank, Token.punct '\x7b'] _)
      exact ends_of_suffix (List.suffix_append_of_suffix (List.suffix_append_of_suffix closed))

/-- The list among the pieces of the bindings of an `import`. -/
theorem listOf_inBraces {fits : Bool} {clauses : List Piece}
    (proper : ∀ piece ∈ clauses, piece.Proper)
    (isTokens : clauses.flatMap Piece.tokens = declaration.drawnBindings options lineEnd fits) :
    (declaration.specifiers.map SpecifierList.items).map
        (Declaration.listOf (Declaration.inBraces clauses)) =
      declaration.specifiers.map (·.reread options lineEnd fits) := by
  cases isList : declaration.specifiers with
  | none => rfl
  | some list =>
      have isSplit : clauses.flatMap Piece.tokens =
          ((if declaration.drawnClauses.isEmpty then []
              else .blank :: joinDrawn declaration.drawnClauses) ++
            if declaration.drawnClauses.isEmpty then [] else [.punct ',']) ++
          .blank :: .punct '\x7b' :: list.drawnInside options lineEnd fits := by
        rw [isTokens, drawnBindings, isList, List.append_assoc]
      rcases exists_pieces_brace proper isSplit with
        ⟨before, brace, pieces, rfl, isBefore, isBrace, _, isInside⟩
      have noBrace : ∀ token ∈ words before, token.isPunct '\x7b' = false := by
        intro token member
        rw [isBefore] at member
        exact drawnClauses_noBrace token (List.mem_of_mem_filter member)
      rw [Declaration.inBraces_append noBrace isBrace]
      simp only [Option.map_some, Declaration.listOf, SpecifierList.reread, ← isInside,
        spell_tokens]

/-- An `import` of bindings is read back from the pieces behind its word. -/
theorem Drawable.importDeclaration_of_binds (drawable : declaration.Drawable options attributes)
    (binds : declaration.binds = true) {front behind : List Piece}
    (isKind : words front = declaration.kind.words) (proper : ∀ piece ∈ behind, piece.Proper)
    (isTokens : behind.flatMap Piece.tokens =
      declaration.drawnBindings options lineEnd (declaration.fits options attributes) ++
        (drawnModule declaration.binds declaration.source options ++
          (drawnAttributes attributes ++ [.punct ';']))) :
    Declaration.nextIs (fun next => next.isPunct '(' || next.isPunct '.') (front ++ behind) =
        false ∧
      Declaration.importDeclaration (front ++ behind) =
        .ok ({ declaration.reread options lineEnd attributes with written := none }, []) := by
  set fits := declaration.fits options attributes with isFits
  have clauses := Declaration.clauseWords_drawnBindings options lineEnd fits declaration.kind
    drawable.single binds drawable.bindings
  rcases exists_pieces_append proper isTokens (ends_drawnBindings fits) with
    ⟨clausePieces, rest, rfl, isClauses, isRest⟩
  rcases List.forall_mem_append.mp proper with ⟨clausesProper, restProper⟩
  rcases drawable.restates.exists_modulePieces restProper isRest with
    ⟨fromPieces, name, attributePieces, ending, ofModule⟩
  rw [← words_of_tokens clausesProper isClauses] at clauses
  have fromWord := ofModule.isFrom
  rw [if_pos binds] at fromWord
  rcases words_eq_singleton_iff.mp fromWord with ⟨word, rfl, isFrom⟩
  have read := Declaration.importDeclaration_of_clauses isFrom ofModule.isString ofModule.isWords
    ofModule.ends isKind clauses
  constructor
  · apply Declaration.nextIs_of_words
    rcases clauses.begins with ⟨first, more, isFirst, notSign⟩
    rw [words_append, words_append, isKind, isFirst]
    cases declaration.kind with
    | value => simpa [BindingKind.words] using notSign
    | type | typeof => simp [BindingKind.words, Token.isPunct, Token.word]
  · rw [ofModule.isPieces, List.singleton_append, read, listOf_inBraces clausesProper isClauses,
      ofModule.text_eq, literalOf_render, ofModule.isAttributes]
    simp [reread, drawable.noComment, isFits]

/-- An `import` that binds nothing is read back from the name of its module. -/
theorem Drawable.importDeclaration_of_bare (drawable : declaration.Drawable options attributes)
    (bare : declaration.binds = false) {pieces : List Piece}
    (proper : ∀ piece ∈ pieces, piece.Proper)
    (isTokens : pieces.flatMap Piece.tokens =
      drawnModule declaration.binds declaration.source options ++
        (drawnAttributes attributes ++ [.punct ';'])) :
    Declaration.nextIs (fun next => next.isPunct '(' || next.isPunct '.') pieces = false ∧
      Declaration.importDeclaration pieces =
        .ok ({ declaration.reread options lineEnd attributes with written := none }, []) := by
  have noBindings : declaration.drawnClauses = [] ∧ declaration.specifiers = none := by
    simpa [ImportDeclaration.binds] using bare
  have noNames : declaration.defaultName = none ∧ declaration.namespaceName = none := by
    simpa [drawnClauses] using noBindings.1
  rcases drawable.restates.exists_modulePieces proper isTokens with
    ⟨fromPieces, name, attributePieces, ending, ofModule⟩
  obtain rfl : fromPieces = [] := by
    simpa [bare, words] using ofModule.isFrom
  rw [ofModule.isPieces, List.nil_append]
  constructor
  · apply Declaration.nextIs_of_words
    simp [Token.isPunct, ofModule.isString]
  · rw [Declaration.importDeclaration_of_source ofModule.isString ofModule.isWords ofModule.ends,
      ofModule.text_eq, literalOf_render, ofModule.isAttributes]
    simp [reread, drawable.noComment, noBindings, noNames, drawable.bare bare]

/-- An `import` that is drawn is read back. -/
theorem Drawable.importDeclaration_eq (drawable : declaration.Drawable options attributes)
    {pieces : List Piece} (proper : ∀ piece ∈ pieces, piece.Proper)
    (isTokens : .word "import" :: pieces.flatMap Piece.tokens =
      declaration.drawn options lineEnd attributes) :
    Declaration.nextIs (fun next => next.isPunct '(' || next.isPunct '.') pieces = false ∧
      Declaration.importDeclaration pieces =
        .ok ({ declaration.reread options lineEnd attributes with written := none }, []) := by
  -- The words of the kind, of the bindings and of the rest.
  have isSplit : pieces.flatMap Piece.tokens =
      (declaration.kind.words.flatMap fun word => [.blank, word]) ++
        (declaration.drawnBindings options lineEnd (declaration.fits options attributes) ++
          (drawnModule declaration.binds declaration.source options ++
            (drawnAttributes attributes ++ [.punct ';']))) := by
    rw [declaration.drawn_eq, drawable.noComment] at isTokens
    simpa [drawnComments, drawnThrough, drawnHead] using isTokens
  have kindEnds : ∀ last ∈ (declaration.kind.words.flatMap fun word => [.blank, word]).getLast?,
      last.isTrivia = false := by
    cases declaration.kind <;> simp [BindingKind.words, Token.isTrivia, Token.word]
  rcases exists_pieces_append proper isSplit kindEnds with ⟨front, behind, rfl, isFront, isBehind⟩
  rcases List.forall_mem_append.mp proper with ⟨frontProper, behindProper⟩
  have isKind : words front = declaration.kind.words := by
    rw [words_of_tokens frontProper isFront, meaningful_drawnKind]
  cases binds : declaration.binds with
  | true => exact drawable.importDeclaration_of_binds binds isKind behindProper isBehind
  | false =>
      have noBindings : declaration.drawnClauses = [] ∧ declaration.specifiers = none := by
        simpa [ImportDeclaration.binds] using binds
      obtain rfl : front = [] := by
        simpa [drawable.bare binds, BindingKind.words, words] using isKind
      refine drawable.importDeclaration_of_bare binds behindProper ?_
      simpa [drawnBindings, noBindings] using isBehind

theorem Drawable.tokenize_render (drawable : declaration.Drawable options attributes)
    (isEnd : IsLineEnd lineEnd) :
    tokenize (declaration.render options lineEnd) =
      .ok (declaration.drawn options lineEnd attributes) := by
  have scans := scans_of_freestanding (by simp) (List.prefix_append _ _)
    (freestanding_drawnThrough isEnd (declaration.fits options attributes) drawable.identifiers
      drawable.names drawable.source)
    drawable.restates.reads
  rw [tokenize_eq_ok_iff, ← spell_drawn drawable.restates.toIsAttributes drawable.identifiers,
    declaration.drawn_eq, drawable.noComment]
  exact scans

/-- An `import` that is written anew is read back. -/
theorem Drawable.parse_render (drawable : declaration.Drawable options attributes)
    (isEnd : IsLineEnd lineEnd) :
    Document.parse (declaration.render options lineEnd) =
      .ok ⟨[.importing (declaration.reread options lineEnd attributes)]⟩ := by
  have begins := prefix_drawn drawable.noComment options lineEnd attributes
  have ends := ends_of_suffix (declaration.suffix_drawn options lineEnd attributes)
  have comments := commentsOf_drawn drawable.restates.toIsAttributes options lineEnd
  rw [drawable.noComment] at comments
  refine parse_of_recognise (drawable.tokenize_render isEnd) begins ends comments ?_
  intro start pieces proper isTokens noComment isWritten
  rcases drawable.importDeclaration_eq proper isTokens with ⟨notExpression, read⟩
  rw [recognise_importing notExpression read, noComment, isWritten]
  simp [reread, drawable.noComment]

theorem binds_reread :
    (declaration.reread options lineEnd attributes).binds = declaration.binds := by
  simp [binds, drawnClauses, reread]

theorem drawnModule_reread :
    drawnModule (declaration.reread options lineEnd attributes).binds
        (declaration.reread options lineEnd attributes).source options =
      drawnModule declaration.binds declaration.source options := by
  rw [binds_reread, drawnModule, drawnModule, reread, render_requote]

theorem fits_reread :
    (declaration.reread options lineEnd attributes).fits options attributes =
      declaration.fits options attributes := by
  rw [fits, drawnModule_reread, fits]
  cases isList : declaration.specifiers with
  | none => simp [reread, isList]
  | some list =>
      simp [reread, isList, SpecifierList.fits, SpecifierList.reread, drawnFront, drawnClauses]

/-- What is read back is written as before. -/
theorem Drawable.render_reread (drawable : declaration.Drawable options attributes)
    (isEnd : IsLineEnd lineEnd) :
    (declaration.reread options lineEnd attributes).render options lineEnd =
      declaration.render options lineEnd := by
  have isAttributes := drawable.restates.toIsAttributes
  have before := spell_drawn isAttributes drawable.identifiers options lineEnd
  have after := @spell_drawn (declaration.reread options lineEnd attributes) attributes isAttributes
    drawable.identifiers options lineEnd
  have bindings : (declaration.reread options lineEnd attributes).drawnBindings options lineEnd
        (declaration.fits options attributes) =
      declaration.drawnBindings options lineEnd (declaration.fits options attributes) := by
    cases isList : declaration.specifiers with
    | none => simp [drawnBindings, drawnClauses, reread, isList]
    | some list =>
        have same := SpecifierList.drawnInside_reread (drawable.unbroken list isList) options isEnd
        simp [drawnBindings, drawnClauses, reread, isList, same]
  rw [← before, ← after, drawn_eq, drawn_eq, drawnThrough, drawnThrough, drawnModule_reread,
    fits_reread, bindings]
  rfl

end ImportDeclaration

/-- An `export` that can be written: its names and its source are tokens, its attributes are
read where they are written, and it has no comments. -/
structure ExportDeclaration.Writable (declaration : ExportDeclaration) (options : PrintOptions)
    (attributes : List Token) : Prop where
  noComment : declaration.comments = []
  names : ∀ name ∈ declaration.parts.names, IsLexeme (.ofName name)
  source : ∀ literal ∈ declaration.source, IsLexeme ⟨.string, literal.render options.quote⟩
  restates : Restates declaration.attributes attributes

/-- An `export` that can be written and read back: its bindings are read where they are
written. -/
structure ExportDeclaration.Drawable (declaration : ExportDeclaration) (options : PrintOptions)
    (attributes : List Token) : Prop extends declaration.Writable options attributes where
  own : declaration.source = none → declaration.attributes = none
  bindings : ∀ item ∈ declaration.specifiers.items,
    Declaration.BindingWords item (meaningful item.drawn)
  unbroken : declaration.specifiers.Unbroken

/-- An `export` as it is read back from what is written of it. -/
def ExportDeclaration.reread (declaration : ExportDeclaration) (options : PrintOptions)
    (lineEnd : Text) (attributes : List Token) : ExportDeclaration :=
  { declaration with
    specifiers :=
      declaration.specifiers.reread options lineEnd (declaration.fits options attributes)
    source := declaration.source.map (·.requote options.quote)
    written := some (declaration.render options lineEnd) }

namespace ExportDeclaration

variable {declaration : ExportDeclaration} {options : PrintOptions} {attributes : List Token}
  {lineEnd : Text}

/-- The pieces of an `export` that is drawn. -/
theorem Writable.exists_pieces (writable : declaration.Writable options attributes)
    {pieces : List Piece} (proper : ∀ piece ∈ pieces, piece.Proper)
    (isTokens : .word "export" :: pieces.flatMap Piece.tokens =
      declaration.drawn options lineEnd attributes) :
    ∃ front brace list behind, pieces = front ++ brace :: (list ++ behind) ∧
      words front = declaration.kind.words ∧ brace.token.toToken = .punct '\x7b' ∧
      (∀ piece ∈ list, piece.Proper) ∧ (∀ piece ∈ behind, piece.Proper) ∧
      list.flatMap Piece.tokens = declaration.specifiers.drawnInside options lineEnd
        (declaration.fits options attributes) ∧
      behind.flatMap Piece.tokens = declaration.drawnModule options ++
        (declaration.drawnAttributes attributes ++ [.punct ';']) := by
  have isSplit : pieces.flatMap Piece.tokens =
      (declaration.kind.words.flatMap fun word => [.blank, word]) ++
        .blank :: .punct '\x7b' :: (declaration.specifiers.drawnInside options lineEnd
          (declaration.fits options attributes) ++
          (declaration.drawnModule options ++
            (declaration.drawnAttributes attributes ++ [.punct ';']))) := by
    rw [declaration.drawn_eq, writable.noComment] at isTokens
    simpa [drawnComments, drawnThrough, drawnHead] using isTokens
  rcases exists_pieces_brace proper isSplit with
    ⟨front, brace, inside, rfl, isFront, isBrace, insideProper, isInside⟩
  rw [meaningful_drawnKind] at isFront
  have listEnds := ends_of_suffix (declaration.specifiers.suffix_drawnInside options lineEnd
    (declaration.fits options attributes))
  rcases exists_pieces_append insideProper isInside listEnds with
    ⟨list, behind, rfl, isList, isBehind⟩
  rcases List.forall_mem_append.mp insideProper with ⟨listProper, behindProper⟩
  exact ⟨front, brace, list, behind, rfl, isFront, isBrace, listProper, behindProper, isList,
    isBehind⟩

/-- An `export` that is drawn is read back. -/
theorem Drawable.exportDeclaration_eq (drawable : declaration.Drawable options attributes)
    {pieces : List Piece} (proper : ∀ piece ∈ pieces, piece.Proper)
    (isTokens : .word "export" :: pieces.flatMap Piece.tokens =
      declaration.drawn options lineEnd attributes) :
    Declaration.exportDeclaration pieces =
      .ok (some { declaration.reread options lineEnd attributes with written := none }, []) := by
  set fits := declaration.fits options attributes with isFits
  rcases drawable.exists_pieces proper isTokens with
    ⟨front, brace, list, behind, rfl, isFront, isBrace, listProper, behindProper, isList, isBehind⟩
  have listed : Declaration.ListWords declaration.specifiers.items (words list) := by
    rw [words_of_tokens listProper isList]
    exact Declaration.listWords_drawnInside options lineEnd fits drawable.bindings
  have isReread : Declaration.listOf list declaration.specifiers.items =
      declaration.specifiers.reread options lineEnd fits := by
    rw [Declaration.listOf, SpecifierList.reread, ← spell_tokens, isList]
  cases isSource : declaration.source with
  | none =>
      have isEnding : words behind = [.punct ';'] := by
        rw [words_of_tokens behindProper isBehind]
        simp [drawnModule, drawnAttributes, isSource]
      have ends : Declaration.EndWords (words []) (words behind) := by
        rw [isEnding]
        exact .semicolon
      have noSource : (words (behind ++ [])).head? ≠ some (.word "from") := by
        rw [List.append_nil, isEnding]
        decide
      have read := Declaration.exportDeclaration_of_own ends isFront isBrace listed noSource
      rw [List.append_nil] at read
      rw [read, isReread]
      simp [reread, isSource, drawable.own isSource, drawable.noComment, isFits]
  | some literal =>
      simp only [drawnModule, drawnAttributes, isSource, Option.isSome_some, if_true] at isBehind
      rcases drawable.restates.exists_modulePieces behindProper isBehind with
        ⟨fromPieces, name, attributePieces, ending, ofModule⟩
      rcases words_eq_singleton_iff.mp ofModule.isFrom with ⟨word, rfl, isFrom⟩
      have read := Declaration.exportDeclaration_of_module isFrom ofModule.isString
        ofModule.isWords ofModule.ends isFront isBrace listed
      rw [ofModule.isPieces, List.singleton_append, read, isReread, ofModule.text_eq,
        literalOf_render, ofModule.isAttributes]
      simp [reread, isSource, drawable.noComment, isFits]

theorem Writable.tokenize_render (writable : declaration.Writable options attributes)
    (isEnd : IsLineEnd lineEnd) :
    tokenize (declaration.render options lineEnd) =
      .ok (declaration.drawn options lineEnd attributes) := by
  have behind : ∀ context, Reads (.script .endOfInput context)
      (Token.spell (declaration.drawnAttributes attributes ++ [.punct ';']))
      (declaration.drawnAttributes attributes ++ [.punct ';']) [] := by
    unfold drawnAttributes
    split
    · exact writable.restates.reads
    · exact reads_semicolon
  have scans := scans_of_freestanding (by simp) (List.prefix_append _ _)
    (freestanding_drawnThrough isEnd (declaration.fits options attributes) writable.names
      writable.source) behind
  rw [tokenize_eq_ok_iff, ← spell_drawn writable.restates.toIsAttributes, declaration.drawn_eq,
    writable.noComment]
  exact scans

/-- An `export` that is written anew is read back. -/
theorem Drawable.parse_render (drawable : declaration.Drawable options attributes)
    (isEnd : IsLineEnd lineEnd) :
    Document.parse (declaration.render options lineEnd) =
      .ok ⟨[.exporting (declaration.reread options lineEnd attributes)]⟩ := by
  have begins := prefix_drawn drawable.noComment options lineEnd attributes
  have ends := ends_of_suffix (declaration.suffix_drawn options lineEnd attributes)
  have comments := commentsOf_drawn drawable.restates.toIsAttributes options lineEnd
  rw [drawable.noComment] at comments
  refine parse_of_recognise (drawable.tokenize_render isEnd) begins ends comments ?_
  intro start pieces proper isTokens noComment isWritten
  rw [recognise_exporting (drawable.exportDeclaration_eq proper isTokens), noComment, isWritten]
  simp [reread, drawable.noComment]

/-- What is read back is written as before. -/
theorem Drawable.render_reread (drawable : declaration.Drawable options attributes)
    (isEnd : IsLineEnd lineEnd) :
    (declaration.reread options lineEnd attributes).render options lineEnd =
      declaration.render options lineEnd := by
  have isAttributes := drawable.restates.toIsAttributes
  have before := spell_drawn isAttributes options lineEnd
  have after := @spell_drawn (declaration.reread options lineEnd attributes) attributes isAttributes
    options lineEnd
  have same := SpecifierList.drawnInside_reread drawable.unbroken options isEnd
  have sameFits : (declaration.reread options lineEnd attributes).fits options attributes =
      declaration.fits options attributes := by
    cases isSource : declaration.source <;>
      simp [fits, reread, SpecifierList.fits, SpecifierList.reread, drawnAttributes, isSource,
        drawnModule, Deflow.drawnModule, render_requote]
  rw [← before, ← after, drawn_eq, drawn_eq, sameFits]
  cases isSource : declaration.source <;>
    simp [drawnThrough, reread, drawnAttributes, isSource, drawnModule, Deflow.drawnModule,
      render_requote, same]

end ExportDeclaration

end Deflow
