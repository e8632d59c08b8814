import Deflow.Proofs.Document.Parts
import Deflow.Proofs.Document.Quotes

/-!
# The tokens of a declaration that is written anew

A declaration that was changed is written in one style.  This file gives the tokens
that it is written with, and says that they stand by themselves: wherever such a
declaration is put into a script, it is read as these tokens.
-/

namespace Deflow

open Script

/-! ## Single tokens -/

namespace Script

/-- A blank between words. -/
def Token.blank : Token :=
  ⟨.whitespace, [' ']⟩

theorem isSpace_blank : ∀ c ∈ [' '], isSpace c = true :=
  List.all_eq_true.mp (by decide)

theorem isLexeme_blank : IsLexeme .blank :=
  .whitespace (by simp) isSpace_blank

/-- The token that a name in a list is, an identifier or a string. -/
def Token.ofName (name : Text) : Token :=
  ⟨if name.head?.any (fun c => c == '"' || c == '\'') then .string else .identifier, name⟩

theorem Token.ofName_text {token : Token} (lexeme : IsLexeme token) (isName : token.isName = true) :
    Token.ofName token.text = token := by
  cases lexeme with
  | @identifier c parts start inside =>
      have notQuote : (c == '"' || c == '\'') = false := by
        by_contra isQuote
        simp only [Bool.not_eq_false, Bool.or_eq_true, beq_iff_eq] at isQuote
        rcases isQuote with rfl | rfl <;> exact absurd start (by decide)
      simp [Token.ofName, notQuote]
  | @string quote body isQuote closed => rcases isQuote with rfl | rfl <;> rfl
  | _ => cases isName

/-- A name does not run on into a text. -/
def EndsName (text : Text) : Prop :=
  text.head?.any isIdentPart = false

/-- Tokens begin with one that is no white space. -/
def StartsFilled (tokens : List Token) : Prop :=
  ∃ first more, tokens = first :: more ∧ first.kind ≠ .whitespace

theorem StartsFilled.mono {first tokens : List Token} (starts : StartsFilled first)
    (isPrefix : first <+: tokens) : StartsFilled tokens := by
  rcases starts with ⟨token, more, rfl, filled⟩
  rcases isPrefix with ⟨second, rfl⟩
  exact ⟨token, more ++ second, rfl, filled⟩

theorem StartsFilled.append {first : List Token} (starts : StartsFilled first)
    (second : List Token) : StartsFilled (first ++ second) :=
  starts.mono (List.prefix_append ..)

/-- The words that declarations are written with. -/
theorem isLexeme_word {word : String}
    (member : word ∈ ["import", "export", "type", "typeof", "from", "as"]) :
    IsLexeme (.word word) := by
  simp only [List.mem_cons, List.not_mem_nil, or_false] at member
  rcases member with rfl | rfl | rfl | rfl | rfl | rfl
  all_goals exact .identifier (by decide) (List.all_eq_true.mp (by decide))

theorem isName_ofName (name : Text) : (Token.ofName name).isName = true := by
  unfold Token.ofName
  split <;> rfl

theorem EndsName.blank (tokens : List Token) (rest : Text) :
    EndsName (Token.spell (.blank :: tokens) ++ rest) :=
  rfl

variable {rest : Text} {tokens : List Token}

/-- A word or a name in front of other tokens. -/
theorem Freestanding.name {token : Token} (lexeme : IsLexeme token) (isName : token.isName = true)
    (ends : EndsName (Token.spell tokens ++ rest)) (free : Freestanding rest tokens) :
    Freestanding rest (token :: tokens) := by
  refine ⟨⟨lexeme, (Token.isPlain_iff.mp (Declaration.isPlain_of_isName isName)).1, ?_⟩, free⟩
  rcases token with ⟨kind, text⟩
  cases kind with
  | identifier => simpa [Token.endsBefore, EndsName] using ends
  | string => rfl
  | _ => cases isName

/-- A sign of a declaration in front of other tokens. -/
theorem Freestanding.punct {c : Char} (member : c ∈ ['\x7b', '\x7d', ',', ';', '*'])
    (free : Freestanding rest tokens) : Freestanding rest (.punct c :: tokens) := by
  refine ⟨⟨.punctuation ?_, ?_, ?_⟩, free⟩
  all_goals
    simp only [List.mem_cons, List.not_mem_nil, or_false] at member
    rcases member with rfl | rfl | rfl | rfl | rfl
  all_goals first | decide | rfl

/-- White space in front of other tokens. -/
theorem Freestanding.space {text : Text} (nonempty : text ≠ [])
    (isBlank : ∀ c ∈ text, isSpace c = true) (starts : StartsFilled tokens)
    (free : Freestanding rest tokens) : Freestanding rest (⟨.whitespace, text⟩ :: tokens) := by
  refine ⟨⟨.whitespace nonempty isBlank, rfl, ?_⟩, free⟩
  rcases starts with ⟨token, more, rfl, filled⟩
  have ends := free.1.1.head_filled filled (Token.spell more ++ rest)
  rw [Token.spell_cons, List.append_assoc]
  simpa [Token.endsBefore] using ends

theorem Freestanding.blank (starts : StartsFilled tokens) (free : Freestanding rest tokens) :
    Freestanding rest (.blank :: tokens) :=
  free.space (by simp) isSpace_blank starts

end Script

/-! ## Lists -/

/-- The tokens of a new name behind another. -/
def drawnNewName : Option Text → List Token
  | none => []
  | some name => [.blank, .word "as", .blank, .ofName name]

/-- The tokens of a binding. -/
def Specifier.drawn (item : Specifier) : List Token :=
  item.kind.words.flatMap (fun word => [word, .blank]) ++
    .ofName item.name :: drawnNewName item.renamed

theorem Specifier.spell_drawn (item : Specifier) : Token.spell item.drawn = item.render := by
  rcases item with ⟨kind, name, renamed⟩
  cases kind <;> cases renamed <;>
    simp [Specifier.drawn, drawnNewName, Specifier.render, BindingKind.words, BindingKind.lead,
      BindingKind.keyword?, Token.word, Token.blank, Token.ofName]

theorem Specifier.startsFilled_drawn (item : Specifier) : StartsFilled item.drawn := by
  rcases item with ⟨kind, name, renamed⟩
  cases kind with
  | value =>
      refine ⟨_, _, rfl, ?_⟩
      simp only [Token.ofName]
      split <;> decide
  | type | typeof => exact ⟨_, _, rfl, by decide⟩

theorem Specifier.freestanding_drawn {item : Specifier}
    (names : ∀ name ∈ item.name :: item.renamed.toList, IsLexeme (.ofName name)) {rest : Text}
    (ends : EndsName rest) : Freestanding rest item.drawn := by
  rcases item with ⟨kind, name, renamed⟩
  have filled (name : Text) (more : List Token) : StartsFilled (.ofName name :: more) := by
    refine ⟨_, _, rfl, ?_⟩
    simp only [Token.ofName]
    split <;> decide
  have named : Freestanding rest (.ofName name :: drawnNewName renamed) := by
    have ofName := names name (.head _)
    cases renamed with
    | none => exact .name ofName (isName_ofName name) ends trivial
    | some new =>
        refine .name ofName (isName_ofName name) (.blank ..) (.blank ⟨_, _, rfl, by decide⟩ ?_)
        refine .name (isLexeme_word (by simp)) rfl (.blank ..) (.blank (filled ..) ?_)
        exact .name (names new (by simp)) (isName_ofName new) ends trivial
  cases kind with
  | value => exact named
  | type | typeof =>
      exact .name (isLexeme_word (by simp)) rfl (.blank ..) (.blank (filled ..) named)

/-- The tokens of pieces, with commas between them. -/
def joinDrawn : List (List Token) → List Token
  | [] => []
  | [piece] => piece
  | piece :: pieces => piece ++ .punct ',' :: .blank :: joinDrawn pieces

theorem spell_joinDrawn (pieces : List (List Token)) :
    Token.spell (joinDrawn pieces) = Text.joinWith ", ".toList (pieces.map Token.spell) := by
  fun_induction joinDrawn pieces with
  | case1 => rfl
  | case2 piece => rfl
  | case3 piece pieces several inductionHypothesis =>
      cases pieces with
      | nil => exact absurd rfl several
      | cons next pieces =>
          simp only [Token.spell_append, Token.spell_cons, inductionHypothesis, List.map_cons,
            Text.joinWith, List.append_assoc]
          rfl

/-- A piece of a declaration stands by itself in front of everything that does not go
on with a name. -/
structure IsPiece (piece : List Token) : Prop where
  starts : StartsFilled piece
  free : ∀ {rest : Text}, EndsName rest → Freestanding rest piece

theorem Specifier.isPiece_drawn {item : Specifier}
    (names : ∀ name ∈ item.name :: item.renamed.toList, IsLexeme (.ofName name)) :
    IsPiece item.drawn :=
  ⟨item.startsFilled_drawn, item.freestanding_drawn names⟩

theorem isPiece_joinDrawn {pieces : List (List Token)} (nonempty : pieces ≠ [])
    (each : ∀ piece ∈ pieces, IsPiece piece) : IsPiece (joinDrawn pieces) := by
  fun_induction joinDrawn pieces with
  | case1 => exact absurd rfl nonempty
  | case2 piece => exact each piece (.head _)
  | case3 piece pieces several inductionHypothesis =>
      rcases List.forall_mem_cons.mp each with ⟨first, others⟩
      have behind := inductionHypothesis (fun none => several none) others
      refine ⟨first.starts.append _, fun ends => freestanding_append.mpr ⟨first.free rfl, ?_⟩⟩
      exact .punct (by decide) (.blank behind.starts (behind.free ends))

/-- The tokens of a list over several lines, between its braces. -/
def drawnLines (options : PrintOptions) (lineEnd : Text) : List (List Token) → List Token
  | [] => [⟨.whitespace, lineEnd⟩]
  | item :: items =>
    ⟨.whitespace, lineEnd ++ options.indent⟩ :: (item ++
      ((if items.isEmpty && !options.trailingComma then [] else [.punct ',']) ++
        drawnLines options lineEnd items))

theorem spell_drawnLines (options : PrintOptions) (lineEnd : Text) (items : List (List Token)) :
    Token.spell (drawnLines options lineEnd items) =
      lineEnd ++ listLines options lineEnd (items.map Token.spell) := by
  induction items with
  | nil => simp [drawnLines, listLines]
  | cons item items inductionHypothesis =>
      have comma (last : Bool) :
          Token.spell (if last then [] else [.punct ',']) = if last then [] else [','] := by
        cases last <;> rfl
      simp only [drawnLines, listLines, Token.spell_cons, Token.spell_append, inductionHypothesis,
        List.map_cons, List.isEmpty_map, List.append_assoc, comma]

/-- The text ends a line. -/
def IsLineEnd (text : Text) : Prop :=
  text = ['\n'] ∨ text = ['\r', '\n']

/-- A line end is white space. -/
theorem IsLineEnd.isSpace {lineEnd : Text} (isEnd : IsLineEnd lineEnd) :
    lineEnd ≠ [] ∧ ∀ c ∈ lineEnd, isSpace c = true := by
  rcases isEnd with rfl | rfl
  · exact ⟨by simp, List.all_eq_true.mp (by decide)⟩
  · exact ⟨by simp, List.all_eq_true.mp (by decide)⟩

theorem freestanding_drawnLines {options : PrintOptions} {lineEnd : Text}
    (isEnd : IsLineEnd lineEnd) {items : List (List Token)} (each : ∀ item ∈ items, IsPiece item)
    (rest : Text) :
    Freestanding ('\x7d' :: rest) (drawnLines options lineEnd items) := by
  have blankEnd := isEnd.isSpace
  have blankIndent : ∀ c ∈ options.indent, isSpace c = true := by
    unfold PrintOptions.indent
    split
    · exact List.all_eq_true.mp (by decide)
    · intro c member
      rw [List.eq_of_mem_replicate member]
      decide
  induction items with
  | nil =>
      refine ⟨⟨.whitespace blankEnd.1 blankEnd.2, rfl, ?_⟩, trivial⟩
      exact (by decide : (!isSpace '\x7d') = true)
  | cons item items inductionHypothesis =>
      rcases List.forall_mem_cons.mp each with ⟨first, others⟩
      have behind := inductionHypothesis others
      have endsName :
          EndsName (Token.spell (drawnLines options lineEnd items) ++ '\x7d' :: rest) := by
        rw [spell_drawnLines, List.append_assoc]
        rcases isEnd with rfl | rfl <;> rfl
      refine .space (by simp [blankEnd.1]) ?_ (first.starts.append _)
        (freestanding_append.mpr ⟨?_, ?_⟩)
      · exact List.forall_mem_append.mpr ⟨blankEnd.2, blankIndent⟩
      · apply first.free
        split
        · exact endsName
        · rfl
      · split
        · exact behind
        · exact behind.punct (by decide)

/-- The tokens of a list between `head` and `tail`. -/
def SpecifierList.drawn (list : SpecifierList) (options : PrintOptions) (lineEnd : Text)
    (head tail : List Token) : List Token :=
  let items := list.items.map Specifier.drawn
  let flat :=
    head ++ .punct '\x7b' :: .blank :: (joinDrawn items ++ .blank :: .punct '\x7d' :: tail)
  if items.isEmpty then
    head ++ .punct '\x7b' :: .punct '\x7d' :: tail
  else if !list.multiline && (Token.spell flat).length ≤ options.wrapColumn then
    flat
  else
    head ++ .punct '\x7b' :: (drawnLines options lineEnd items ++ .punct '\x7d' :: tail)

theorem SpecifierList.spell_drawn (list : SpecifierList) (options : PrintOptions) (lineEnd : Text)
    (head tail : List Token) :
    Token.spell (list.drawn options lineEnd head tail) =
      list.render options lineEnd (Token.spell head) (Token.spell tail) := by
  have sameItems : (list.items.map Specifier.drawn).map Token.spell =
      list.items.map Specifier.render := by
    rw [List.map_map]
    exact List.map_congr_left fun item _ => item.spell_drawn
  have sameFlat : Token.spell (head ++ .punct '\x7b' :: .blank ::
      (joinDrawn (list.items.map Specifier.drawn) ++ .blank :: .punct '\x7d' :: tail)) =
      Token.spell head ++ flatList (list.items.map Specifier.render) ++ Token.spell tail := by
    simp [flatList, spell_joinDrawn, sameItems, Token.blank]
  unfold SpecifierList.drawn SpecifierList.render
  simp only [sameFlat, List.isEmpty_map]
  split
  · simp
  · split
    · exact sameFlat
    · simp [spell_drawnLines, sameItems]

/-- The tokens of a list behind its opening brace, on one line if it `fits`. -/
def SpecifierList.drawnInside (list : SpecifierList) (options : PrintOptions) (lineEnd : Text)
    (fits : Bool) : List Token :=
  let items := list.items.map Specifier.drawn
  if items.isEmpty then
    [.punct '\x7d']
  else if !list.multiline && fits then
    .blank :: (joinDrawn items ++ [.blank, .punct '\x7d'])
  else
    drawnLines options lineEnd items ++ [.punct '\x7d']

/-- Whether a list fits on one line between `head` and `tail`. -/
def SpecifierList.fits (list : SpecifierList) (options : PrintOptions) (head tail : List Token) :
    Bool :=
  (Token.spell (head ++ .punct '\x7b' :: .blank ::
    (joinDrawn (list.items.map Specifier.drawn) ++ .blank :: .punct '\x7d' :: tail))).length ≤
    options.wrapColumn

theorem SpecifierList.drawn_eq (list : SpecifierList) (options : PrintOptions) (lineEnd : Text)
    (head tail : List Token) :
    list.drawn options lineEnd head tail =
      head ++ .punct '\x7b' ::
        (list.drawnInside options lineEnd (list.fits options head tail) ++ tail) := by
  unfold SpecifierList.drawn SpecifierList.drawnInside SpecifierList.fits
  simp only
  split
  · rfl
  · split
    · simp
    · simp

theorem SpecifierList.freestanding_drawnInside {list : SpecifierList} {options : PrintOptions}
    {lineEnd : Text} (isEnd : IsLineEnd lineEnd) (fits : Bool)
    (names : ∀ name ∈ Specifier.names list.items, IsLexeme (.ofName name)) (rest : Text) :
    Freestanding rest (list.drawnInside options lineEnd fits) := by
  have each : ∀ piece ∈ list.items.map Specifier.drawn, IsPiece piece := by
    refine List.forall_mem_map.mpr fun item member => Specifier.isPiece_drawn fun name isName => ?_
    exact names name (List.mem_flatMap.mpr ⟨item, member, isName⟩)
  have closed : Freestanding rest [.punct '\x7d'] := .punct (by decide) trivial
  unfold SpecifierList.drawnInside
  simp only
  split
  · exact closed
  · rename_i nonempty
    have several : list.items.map Specifier.drawn ≠ [] := by simpa using nonempty
    have joined := isPiece_joinDrawn several each
    split
    · refine .blank (joined.starts.append _) (freestanding_append.mpr ⟨joined.free rfl, ?_⟩)
      exact closed.blank ⟨_, _, rfl, by decide⟩
    · exact freestanding_append.mpr ⟨freestanding_drawnLines isEnd each _, closed⟩

/-! ## Parts of declarations -/

/-- The tokens of comments, each on a line of its own. -/
def drawnComments (comments : List Comment) (lineEnd : Text) : List Token :=
  comments.flatMap fun comment => [⟨comment.kind.token, comment.text⟩, ⟨.whitespace, lineEnd⟩]

theorem spell_drawnComments (comments : List Comment) (lineEnd : Text) :
    Token.spell (drawnComments comments lineEnd) = hoist comments lineEnd := by
  induction comments with
  | nil => rfl
  | cons comment comments inductionHypothesis =>
      rw [drawnComments, List.flatMap_cons, Token.spell_append, ← drawnComments,
        inductionHypothesis]
      simp [hoist]

/-- Comments on lines of their own stand by themselves in front of tokens that do not
begin with white space. -/
theorem Script.Freestanding.comments {comments : List Comment} {lineEnd rest : Text}
    {tokens : List Token} (isEnd : IsLineEnd lineEnd)
    (lexemes : ∀ comment ∈ comments, IsLexeme ⟨comment.kind.token, comment.text⟩)
    (starts : StartsFilled tokens) (free : Freestanding rest tokens) :
    Freestanding rest (drawnComments comments lineEnd ++ tokens) ∧
      StartsFilled (drawnComments comments lineEnd ++ tokens) := by
  have blankEnd := isEnd.isSpace
  induction comments with
  | nil => exact ⟨free, starts⟩
  | cons comment comments inductionHypothesis =>
      rcases List.forall_mem_cons.mp lexemes with ⟨first, others⟩
      rcases inductionHypothesis others with ⟨behind, behindStarts⟩
      have spaced := behind.space blankEnd.1 blankEnd.2 behindStarts
      rcases comment with ⟨kind, text⟩
      refine ⟨⟨⟨first, ?_, ?_⟩, spaced⟩, ⟨_, _, rfl, ?_⟩⟩
      · cases kind <;> rfl
      · cases kind with
        | line => rcases isEnd with rfl | rfl <;> rfl
        | block => rfl
      · cases kind <;> simp [CommentKind.token]

/-- The tokens of a word and the kind behind it. -/
def drawnHead (word : String) (kind : BindingKind) : List Token :=
  .word word :: kind.words.flatMap fun word => [.blank, word]

theorem spell_drawnHead (word : String) (kind : BindingKind) :
    Token.spell (drawnHead word kind) = declarationHead word kind := by
  cases kind <;> simp [drawnHead, declarationHead, BindingKind.words, BindingKind.keyword?,
    Token.word, Token.blank]

theorem isPiece_drawnHead {word : String} (member : word ∈ ["import", "export"])
    (kind : BindingKind) : IsPiece (drawnHead word kind) := by
  have lexeme : IsLexeme (.word word) := by
    apply isLexeme_word
    simp only [List.mem_cons, List.not_mem_nil, or_false] at member
    rcases member with rfl | rfl <;> simp
  refine ⟨⟨_, _, rfl, by simp [Token.word]⟩, fun ends => ?_⟩
  cases kind with
  | value => exact .name lexeme rfl ends trivial
  | type | typeof =>
      refine .name lexeme rfl (.blank ..) (.blank ⟨_, _, rfl, by decide⟩ ?_)
      exact .name (isLexeme_word (by simp)) rfl ends trivial

/-- The tokens behind the name of a module. -/
def drawnAttributes : List Token → List Token
  | [] => []
  | tokens => .blank :: tokens

/-- The tokens of a module's name, of attributes and of a semicolon. -/
def drawnSource (literal : StringLiteral) (options : PrintOptions) (attributes : List Token) :
    List Token :=
  ⟨.string, literal.render options.quote⟩ :: (drawnAttributes attributes ++ [.punct ';'])

/-- Tokens are those of attributes without comments. -/
structure IsAttributes (attributes : Option Text) (tokens : List Token) : Prop where
  spelled : Token.spell (drawnAttributes tokens) = attributesTail attributes
  starts : tokens ≠ [] → StartsFilled tokens
  noComment : commentsOf tokens = []

theorem spell_drawnSource {literal : StringLiteral} {options : PrintOptions}
    {attributes : Option Text} {tokens : List Token}
    (isAttributes : IsAttributes attributes tokens) :
    Token.spell (drawnSource literal options tokens) =
      literal.render options.quote ++ attributesTail attributes ++ [';'] := by
  simp [drawnSource, isAttributes.spelled]

/-- The tokens of attributes and of a semicolon stand by themselves. -/
theorem freestanding_drawnAttributes {attributes : Option Text} {tokens : List Token}
    (isAttributes : IsAttributes attributes tokens) (free : ∀ rest, Freestanding rest tokens)
    (rest : Text) : Freestanding rest (drawnAttributes tokens ++ [.punct ';']) := by
  refine freestanding_append.mpr ⟨?_, .punct (by decide) trivial⟩
  cases tokens with
  | nil => trivial
  | cons token tokens => exact .blank (isAttributes.starts (by simp)) (free _)

/-- The tokens of a module's name, and of `from` in front of it behind bindings. -/
def drawnModule (binds : Bool) (literal : StringLiteral) (options : PrintOptions) : List Token :=
  (if binds then [.blank, .word "from"] else []) ++
    [.blank, ⟨.string, literal.render options.quote⟩]

theorem freestanding_drawnModule {literal : StringLiteral} {options : PrintOptions} (binds : Bool)
    (lexeme : IsLexeme ⟨.string, literal.render options.quote⟩) (rest : Text) :
    Freestanding rest (drawnModule binds literal options) := by
  have ofSource : Freestanding rest [⟨.string, literal.render options.quote⟩] :=
    ⟨⟨lexeme, rfl, rfl⟩, trivial⟩
  have spaced := ofSource.blank ⟨_, _, rfl, by simp⟩
  cases binds with
  | false => exact spaced
  | true =>
      exact .blank ⟨_, _, rfl, by decide⟩ (.name (isLexeme_word (by simp)) rfl (.blank ..) spaced)

/-! ## White space at the end -/

theorem Text.trimEnd_eq_self {text : Text} (last : ∀ c ∈ text.getLast?, isWhiteSpace c = false) :
    text.trimEnd = text := by
  unfold Text.trimEnd
  cases isReverse : text.reverse with
  | nil => rw [← List.reverse_reverse text, isReverse]; rfl
  | cons c behind =>
      have isLast : text.getLast? = some c := by
        rw [List.getLast?_eq_head?_reverse, isReverse]
        rfl
      rw [List.dropWhile_cons, if_neg (by simp [last c isLast]), ← isReverse, List.reverse_reverse]

theorem Text.trimEnd_blank (text : Text) : Text.trimEnd (text ++ [' ']) = text.trimEnd := by
  have isBlank : isWhiteSpace ' ' = true := by decide
  simp [Text.trimEnd, isBlank]

/-- No character of an identifier is white space. -/
theorem isWhiteSpace_of_isIdentPart {c : Char} (inside : isIdentPart c = true) :
    Text.isWhiteSpace c = false := by
  have notSpace : isSpace c = false := by
    simp only [isIdentPart, Bool.or_eq_true] at inside
    rcases inside with start | digit
    · exact (not_other_of_isIdentStart start).1
    · exact (not_other_of_isDigit digit).1
  simp only [isSpace, spaceRanges, Text.CharRanges.contains, List.any_cons, List.any_nil,
    Bool.or_eq_false_iff] at notSpace
  simp only [Text.isWhiteSpace, Text.whiteSpaceRanges, Text.CharRanges.contains, List.any_cons,
    List.any_nil, Bool.or_eq_false_iff]
  tauto

/-- An identifier does not end with white space. -/
theorem Script.IsLexeme.last_identifier {name : Text} (lexeme : IsLexeme ⟨.identifier, name⟩) :
    ∀ c ∈ name.getLast?, Text.isWhiteSpace c = false := by
  intro c isLast
  apply isWhiteSpace_of_isIdentPart
  cases lexeme with
  | @identifier first parts start inside =>
      rcases List.mem_cons.mp (List.mem_of_mem_getLast? isLast) with rfl | inParts
      · simp [isIdentPart, start]
      · exact inside c inParts

/-! ## Declarations -/

/-- The tokens of the bindings of an `import` in front of its list. -/
def ImportDeclaration.drawnClauses (declaration : ImportDeclaration) : List (List Token) :=
  declaration.defaultName.toList.map (fun name => [⟨.identifier, name⟩]) ++
    declaration.namespaceName.toList.map fun name =>
      [.punct '*', .blank, .word "as", .blank, ⟨.identifier, name⟩]

theorem ImportDeclaration.spell_drawnClauses (declaration : ImportDeclaration) :
    declaration.drawnClauses.map Token.spell = declaration.clauses := by
  unfold drawnClauses clauses
  cases declaration.defaultName <;> cases declaration.namespaceName <;>
    simp [Token.blank, Token.word]

theorem ImportDeclaration.isPiece_drawnClauses {declaration : ImportDeclaration}
    (identifiers : ∀ name ∈ declaration.parts.identifiers, IsLexeme ⟨.identifier, name⟩) :
    ∀ piece ∈ declaration.drawnClauses, IsPiece piece := by
  refine List.forall_mem_append.mpr ⟨List.forall_mem_map.mpr fun name member => ?_,
    List.forall_mem_map.mpr fun name member => ?_⟩
  · have lexeme := identifiers name (List.mem_append_left _ member)
    exact ⟨⟨_, _, rfl, by simp⟩, fun ends => .name lexeme rfl ends trivial⟩
  · have lexeme := identifiers name (List.mem_append_right _ member)
    refine ⟨⟨_, _, rfl, by decide⟩, fun ends => ?_⟩
    refine .punct (by decide) (.blank ⟨_, _, rfl, by decide⟩ ?_)
    refine .name (isLexeme_word (by simp)) rfl (.blank ..) (.blank ⟨_, _, rfl, by simp⟩ ?_)
    exact .name lexeme rfl ends trivial

/-- The tokens of the word, the kind and the first bindings of an `import`. -/
def ImportDeclaration.drawnFront (declaration : ImportDeclaration) : List Token :=
  drawnHead "import" declaration.kind ++
    if declaration.drawnClauses.isEmpty then [] else .blank :: joinDrawn declaration.drawnClauses

/-- The tokens of a changed `import`, where its attributes are given. -/
def ImportDeclaration.drawn (declaration : ImportDeclaration) (options : PrintOptions)
    (lineEnd : Text) (attributes : List Token) : List Token :=
  let source := drawnSource declaration.source options attributes
  let binds := !declaration.drawnClauses.isEmpty || declaration.specifiers.isSome
  let tail := if binds then .blank :: .word "from" :: .blank :: source else .blank :: source
  drawnComments declaration.comments lineEnd ++
    match declaration.specifiers with
    | some list =>
      let comma := if declaration.drawnClauses.isEmpty then [] else [.punct ',']
      list.drawn options lineEnd (declaration.drawnFront ++ comma ++ [.blank]) tail
    | none => declaration.drawnFront ++ tail

theorem ImportDeclaration.isEmpty_drawnClauses (declaration : ImportDeclaration) :
    declaration.drawnClauses.isEmpty = declaration.clauses.isEmpty := by
  rw [← declaration.spell_drawnClauses, List.isEmpty_map]

theorem ImportDeclaration.spell_drawnFront (declaration : ImportDeclaration) :
    Token.spell declaration.drawnFront =
      declarationHead "import" declaration.kind ++
        if declaration.clauses.isEmpty then []
        else ' ' :: Text.joinWith ", ".toList declaration.clauses := by
  rw [drawnFront, Token.spell_append, spell_drawnHead, declaration.isEmpty_drawnClauses]
  split
  · rfl
  · rw [Token.spell_cons, spell_joinDrawn, declaration.spell_drawnClauses]
    rfl

/-- The front of an `import` without white space at its end. -/
theorem ImportDeclaration.trimEnd_front {declaration : ImportDeclaration}
    (identifiers : ∀ name ∈ declaration.parts.identifiers, IsLexeme ⟨.identifier, name⟩) :
    Text.trimEnd (declarationHead "import" declaration.kind ++ [' '] ++
        Text.joinWith ", ".toList declaration.clauses) =
      Token.spell declaration.drawnFront := by
  have ofName {name : Text} (lexeme : IsLexeme ⟨.identifier, name⟩) (front : Text) :
      (front ++ name).trimEnd = front ++ name := by
    apply Text.trimEnd_eq_self
    intro c isLast
    rw [List.getLast?_append_of_ne_nil _ lexeme.text_ne_nil] at isLast
    exact lexeme.last_identifier c isLast
  rw [spell_drawnFront]
  unfold clauses
  unfold parts at identifiers
  cases isDefault : declaration.defaultName with
  | none =>
      cases isNamespace : declaration.namespaceName with
      | none =>
          simp only [Option.toList_none, Option.map_none, List.append_nil, Text.joinWith,
            List.isEmpty_nil, if_true]
          have filled : (declarationHead "import" declaration.kind).getLast?.any Text.isWhiteSpace =
              false := by
            cases declaration.kind <;> decide
          rw [Text.trimEnd_blank]
          apply Text.trimEnd_eq_self
          intro c isLast
          rwa [Option.mem_def.mp isLast] at filled
      | some name =>
          have lexeme := identifiers name (by simp [isNamespace])
          simpa [Text.joinWith] using ofName lexeme
            (declarationHead "import" declaration.kind ++ " * as ".toList)
  | some first =>
      cases isNamespace : declaration.namespaceName with
      | none =>
          have lexeme := identifiers first (by simp [isDefault])
          simpa [Text.joinWith] using ofName lexeme
            (declarationHead "import" declaration.kind ++ [' '])
      | some name =>
          have lexeme := identifiers name (by simp [isNamespace])
          simpa [Text.joinWith] using ofName lexeme
            (declarationHead "import" declaration.kind ++ ' ' :: (first ++ ", * as ".toList))

theorem ImportDeclaration.spell_drawn {declaration : ImportDeclaration} {tokens : List Token}
    (isAttributes : IsAttributes declaration.attributes tokens)
    (identifiers : ∀ name ∈ declaration.parts.identifiers, IsLexeme ⟨.identifier, name⟩)
    (options : PrintOptions) (lineEnd : Text) :
    Token.spell (declaration.drawn options lineEnd tokens) =
      declaration.render options lineEnd := by
  have tail (binds : Bool) :
      Token.spell (if binds then .blank :: .word "from" :: .blank ::
          drawnSource declaration.source options tokens
        else .blank :: drawnSource declaration.source options tokens) =
      (if binds then " from ".toList else [' ']) ++ declaration.source.render options.quote ++
        attributesTail declaration.attributes ++ [';'] := by
    cases binds <;> simp [spell_drawnSource isAttributes, Token.blank, Token.word]
  unfold drawn render
  simp only [Token.spell_append, spell_drawnComments, declaration.isEmpty_drawnClauses]
  congr 1
  cases isList : declaration.specifiers with
  | none => simp only [Token.spell_append, tail, trimEnd_front identifiers]
  | some list =>
      simp only [SpecifierList.spell_drawn, tail]
      congr 1
      rw [Token.spell_append, Token.spell_append, spell_drawnFront]
      split
      · rename_i none
        rw [List.isEmpty_iff.mp none]
        simp [Text.joinWith, Token.blank]
      · simp [Token.blank]

/-- Whether an `import` binds anything. -/
def ImportDeclaration.binds (declaration : ImportDeclaration) : Bool :=
  !declaration.drawnClauses.isEmpty || declaration.specifiers.isSome

/-- The tokens of the bindings of an `import`, with its list on one line if that `fits`. -/
def ImportDeclaration.drawnBindings (declaration : ImportDeclaration) (options : PrintOptions)
    (lineEnd : Text) (fits : Bool) : List Token :=
  (if declaration.drawnClauses.isEmpty then [] else .blank :: joinDrawn declaration.drawnClauses) ++
    match declaration.specifiers with
    | none => []
    | some list =>
      (if declaration.drawnClauses.isEmpty then [] else [.punct ',']) ++
        .blank :: .punct '\x7b' :: list.drawnInside options lineEnd fits

/-- The tokens of an `import` through the name of its module. -/
def ImportDeclaration.drawnThrough (declaration : ImportDeclaration) (options : PrintOptions)
    (lineEnd : Text) (fits : Bool) : List Token :=
  drawnHead "import" declaration.kind ++ (declaration.drawnBindings options lineEnd fits ++
    drawnModule declaration.binds declaration.source options)

/-- Whether the list of an `import` fits on one line. -/
def ImportDeclaration.fits (declaration : ImportDeclaration) (options : PrintOptions)
    (attributes : List Token) : Bool :=
  declaration.specifiers.any fun list =>
    list.fits options
      (declaration.drawnFront ++ (if declaration.drawnClauses.isEmpty then [] else [.punct ',']) ++
        [.blank])
      (drawnModule declaration.binds declaration.source options ++
        (drawnAttributes attributes ++ [.punct ';']))

theorem ImportDeclaration.drawn_eq (declaration : ImportDeclaration) (options : PrintOptions)
    (lineEnd : Text) (attributes : List Token) :
    declaration.drawn options lineEnd attributes =
      drawnComments declaration.comments lineEnd ++
        (declaration.drawnThrough options lineEnd (declaration.fits options attributes) ++
          (drawnAttributes attributes ++ [.punct ';'])) := by
  have tail (binds : Bool) :
      (if binds then .blank :: .word "from" :: .blank ::
          drawnSource declaration.source options attributes
        else .blank :: drawnSource declaration.source options attributes) =
      drawnModule binds declaration.source options ++
        (drawnAttributes attributes ++ [.punct ';']) := by
    cases binds <;> rfl
  unfold drawn drawnThrough drawnBindings fits binds
  simp only [tail]
  cases declaration.specifiers with
  | none => simp [drawnFront]
  | some list => simp [drawnFront, SpecifierList.drawn_eq]

/-- A changed `import` stands by itself through the name of its module. -/
theorem ImportDeclaration.freestanding_drawnThrough {declaration : ImportDeclaration}
    {options : PrintOptions} {lineEnd : Text} (isEnd : IsLineEnd lineEnd) (fits : Bool)
    (identifiers : ∀ name ∈ declaration.parts.identifiers, IsLexeme ⟨.identifier, name⟩)
    (names : ∀ name ∈ declaration.parts.names, IsLexeme (.ofName name))
    (source : IsLexeme ⟨.string, declaration.source.render options.quote⟩) (rest : Text) :
    Freestanding rest (declaration.drawnThrough options lineEnd fits) := by
  have pieces := isPiece_drawnClauses identifiers
  have head := isPiece_drawnHead (by simp : "import" ∈ ["import", "export"]) declaration.kind
  have ofModule := freestanding_drawnModule declaration.binds source rest
  have moduleEnds : EndsName
      (Token.spell (drawnModule declaration.binds declaration.source options) ++ rest) := by
    cases declaration.binds <;> rfl
  -- A comma or a blank follows the names in front of the list.
  have listed : ∃ behind, declaration.drawnBindings options lineEnd fits =
      (if declaration.drawnClauses.isEmpty then []
        else .blank :: joinDrawn declaration.drawnClauses) ++
        behind ∧ EndsName (Token.spell behind ++
          (Token.spell (drawnModule declaration.binds declaration.source options) ++ rest)) ∧
      Freestanding (Token.spell (drawnModule declaration.binds declaration.source options) ++ rest)
        behind := by
    cases isList : declaration.specifiers with
    | none => exact ⟨[], by simp [drawnBindings, isList], moduleEnds, trivial⟩
    | some list =>
        refine ⟨_, by rw [drawnBindings, isList], ?_, freestanding_append.mpr ⟨?_, ?_⟩⟩
        · split <;> rfl
        · split
          · trivial
          · exact .punct (by decide) trivial
        · rw [ImportDeclaration.parts, isList] at names
          refine .blank ⟨_, _, rfl, by decide⟩ (.punct (by decide) ?_)
          exact SpecifierList.freestanding_drawnInside isEnd fits names _
  rcases listed with ⟨behind, isBindings, ends, freeBehind⟩
  rw [drawnThrough, isBindings]
  refine freestanding_append.mpr ⟨head.free ?_, freestanding_append.mpr ⟨?_, ofModule⟩⟩
  · split
    · simpa using ends
    · rfl
  · refine freestanding_append.mpr ⟨?_, freeBehind⟩
    split
    · trivial
    · rename_i some
      have joined := isPiece_joinDrawn (by simpa using some) pieces
      exact .blank joined.starts (joined.free ends)

/-- A changed `import` stands by itself wherever it is written. -/
theorem ImportDeclaration.freestanding_drawn {declaration : ImportDeclaration} {tokens : List Token}
    {options : PrintOptions} {lineEnd : Text} (isEnd : IsLineEnd lineEnd)
    (isAttributes : IsAttributes declaration.attributes tokens)
    (free : ∀ rest, Freestanding rest tokens)
    (identifiers : ∀ name ∈ declaration.parts.identifiers, IsLexeme ⟨.identifier, name⟩)
    (names : ∀ name ∈ declaration.parts.names, IsLexeme (.ofName name))
    (source : IsLexeme ⟨.string, declaration.source.render options.quote⟩)
    (comments : ∀ comment ∈ declaration.comments, IsLexeme ⟨comment.kind.token, comment.text⟩)
    (rest : Text) : Freestanding rest (declaration.drawn options lineEnd tokens) := by
  rw [declaration.drawn_eq]
  refine (Freestanding.comments isEnd comments ?_ ?_).1
  · have head := isPiece_drawnHead (by simp : "import" ∈ ["import", "export"]) declaration.kind
    exact (head.starts.append _).append _
  · refine freestanding_append.mpr ⟨?_, freestanding_drawnAttributes isAttributes free rest⟩
    exact freestanding_drawnThrough isEnd _ identifiers names source _

/-- The tokens of a changed `export`, where its attributes are given. -/
def ExportDeclaration.drawn (declaration : ExportDeclaration) (options : PrintOptions)
    (lineEnd : Text) (attributes : List Token) : List Token :=
  let tail :=
    match declaration.source with
    | none => [.punct ';']
    | some source => .blank :: .word "from" :: .blank :: drawnSource source options attributes
  drawnComments declaration.comments lineEnd ++
    declaration.specifiers.drawn options lineEnd
      (drawnHead "export" declaration.kind ++ [.blank]) tail

theorem ExportDeclaration.spell_drawn {declaration : ExportDeclaration} {tokens : List Token}
    (isAttributes : IsAttributes declaration.attributes tokens) (options : PrintOptions)
    (lineEnd : Text) :
    Token.spell (declaration.drawn options lineEnd tokens) =
      declaration.render options lineEnd := by
  unfold drawn render
  rw [Token.spell_append, spell_drawnComments, SpecifierList.spell_drawn, Token.spell_append,
    spell_drawnHead]
  congr 2
  cases declaration.source with
  | none => rfl
  | some source => simp [spell_drawnSource isAttributes, Token.blank, Token.word]

/-- The tokens of the name of a module, behind the list of an `export`. -/
def ExportDeclaration.drawnModule (declaration : ExportDeclaration) (options : PrintOptions) :
    List Token :=
  match declaration.source with
  | none => []
  | some literal => Deflow.drawnModule true literal options

/-- The tokens of an `export` through the name of its module, if it has one. -/
def ExportDeclaration.drawnThrough (declaration : ExportDeclaration) (options : PrintOptions)
    (lineEnd : Text) (fits : Bool) : List Token :=
  drawnHead "export" declaration.kind ++ .blank :: .punct '\x7b' ::
    (declaration.specifiers.drawnInside options lineEnd fits ++ declaration.drawnModule options)

/-- The tokens of the attributes of an `export`, behind the name of a module. -/
def ExportDeclaration.drawnAttributes (declaration : ExportDeclaration) (attributes : List Token) :
    List Token :=
  if declaration.source.isSome then Deflow.drawnAttributes attributes else []

/-- Whether the list of an `export` fits on one line. -/
def ExportDeclaration.fits (declaration : ExportDeclaration) (options : PrintOptions)
    (attributes : List Token) : Bool :=
  declaration.specifiers.fits options (drawnHead "export" declaration.kind ++ [.blank])
    (declaration.drawnModule options ++ (declaration.drawnAttributes attributes ++ [.punct ';']))

theorem ExportDeclaration.drawn_eq (declaration : ExportDeclaration) (options : PrintOptions)
    (lineEnd : Text) (attributes : List Token) :
    declaration.drawn options lineEnd attributes =
      drawnComments declaration.comments lineEnd ++
        (declaration.drawnThrough options lineEnd (declaration.fits options attributes) ++
          (declaration.drawnAttributes attributes ++ [.punct ';'])) := by
  unfold drawn drawnThrough fits drawnModule drawnAttributes
  cases declaration.source with
  | none => simp [SpecifierList.drawn_eq]
  | some literal =>
      have tail : .blank :: .word "from" :: .blank :: drawnSource literal options attributes =
          Deflow.drawnModule true literal options ++
          (Deflow.drawnAttributes attributes ++ [.punct ';']) :=
        rfl
      simp [SpecifierList.drawn_eq, tail]

/-- A changed `export` stands by itself through the name of its module. -/
theorem ExportDeclaration.freestanding_drawnThrough {declaration : ExportDeclaration}
    {options : PrintOptions} {lineEnd : Text} (isEnd : IsLineEnd lineEnd) (fits : Bool)
    (names : ∀ name ∈ declaration.parts.names, IsLexeme (.ofName name))
    (source : ∀ literal ∈ declaration.source, IsLexeme ⟨.string, literal.render options.quote⟩)
    (rest : Text) : Freestanding rest (declaration.drawnThrough options lineEnd fits) := by
  have head := isPiece_drawnHead (by simp : "export" ∈ ["import", "export"]) declaration.kind
  refine freestanding_append.mpr ⟨head.free rfl, ?_⟩
  refine .blank ⟨_, _, rfl, by decide⟩ (.punct (by decide) (freestanding_append.mpr ⟨?_, ?_⟩))
  · exact SpecifierList.freestanding_drawnInside isEnd fits names _
  · unfold drawnModule
    cases isSource : declaration.source with
    | none => trivial
    | some literal => exact freestanding_drawnModule true (source literal isSource) rest

/-- A changed `export` stands by itself wherever it is written. -/
theorem ExportDeclaration.freestanding_drawn {declaration : ExportDeclaration} {tokens : List Token}
    {options : PrintOptions} {lineEnd : Text} (isEnd : IsLineEnd lineEnd)
    (isAttributes : IsAttributes declaration.attributes tokens)
    (free : ∀ rest, Freestanding rest tokens)
    (names : ∀ name ∈ declaration.parts.names, IsLexeme (.ofName name))
    (source : ∀ literal ∈ declaration.source, IsLexeme ⟨.string, literal.render options.quote⟩)
    (comments : ∀ comment ∈ declaration.comments, IsLexeme ⟨comment.kind.token, comment.text⟩)
    (rest : Text) : Freestanding rest (declaration.drawn options lineEnd tokens) := by
  rw [declaration.drawn_eq]
  refine (Freestanding.comments isEnd comments ?_ ?_).1
  · have head := isPiece_drawnHead (by simp : "export" ∈ ["import", "export"]) declaration.kind
    exact (head.starts.append _).append _
  · refine freestanding_append.mpr ⟨freestanding_drawnThrough isEnd _ names source _, ?_⟩
    unfold drawnAttributes
    split
    · exact freestanding_drawnAttributes isAttributes free rest
    · exact .punct (by decide) trivial

/-! ## Comments and ends -/

theorem comment?_ofName (name : Text) : Piece.comment? (.ofName name) = none := by
  unfold Token.ofName
  split <;> rfl

theorem Specifier.commentsOf_drawn (item : Specifier) : commentsOf item.drawn = [] := by
  rcases item with ⟨kind, name, renamed⟩
  have ofNewName : commentsOf (drawnNewName renamed) = [] := by
    cases renamed with
    | none => rfl
    | some new => exact List.filterMap_cons_none (comment?_ofName new)
  cases kind <;> exact (List.filterMap_cons_none (comment?_ofName name)).trans ofNewName

theorem commentsOf_joinDrawn {pieces : List (List Token)}
    (each : ∀ piece ∈ pieces, commentsOf piece = []) : commentsOf (joinDrawn pieces) = [] := by
  fun_induction joinDrawn pieces with
  | case1 => rfl
  | case2 piece => exact each piece (.head _)
  | case3 piece pieces several inductionHypothesis =>
      rcases List.forall_mem_cons.mp each with ⟨first, others⟩
      rw [commentsOf_append, first, List.nil_append]
      exact inductionHypothesis others

theorem commentsOf_drawnLines (options : PrintOptions) (lineEnd : Text) {items : List (List Token)}
    (each : ∀ item ∈ items, commentsOf item = []) :
    commentsOf (drawnLines options lineEnd items) = [] := by
  induction items with
  | nil => rfl
  | cons item items inductionHypothesis =>
      rcases List.forall_mem_cons.mp each with ⟨first, others⟩
      have comma (last : Bool) : commentsOf (if last then [] else [.punct ',']) = [] := by
        cases last <;> rfl
      have behind : commentsOf (item ++
          ((if items.isEmpty && !options.trailingComma then [] else [.punct ',']) ++
            drawnLines options lineEnd items)) = [] := by
        rw [commentsOf_append, commentsOf_append, first, comma, inductionHypothesis others]
        rfl
      exact behind

theorem SpecifierList.commentsOf_drawn (list : SpecifierList) (options : PrintOptions)
    (lineEnd : Text) (head tail : List Token) :
    commentsOf (list.drawn options lineEnd head tail) = commentsOf head ++ commentsOf tail := by
  have each : ∀ piece ∈ list.items.map Specifier.drawn, commentsOf piece = [] :=
    List.forall_mem_map.mpr fun item _ => item.commentsOf_drawn
  have inside (fits : Bool) : commentsOf (list.drawnInside options lineEnd fits) = [] := by
    unfold SpecifierList.drawnInside
    simp only
    split
    · rfl
    · split
      · have flat : commentsOf (joinDrawn (list.items.map Specifier.drawn) ++
            [.blank, .punct '\x7d']) = [] := by
          rw [commentsOf_append, commentsOf_joinDrawn each]
          rfl
        exact flat
      · rw [commentsOf_append, commentsOf_drawnLines options lineEnd each]
        rfl
  have braced (fits : Bool) :
      commentsOf (.punct '\x7b' :: (list.drawnInside options lineEnd fits ++ tail)) =
        commentsOf tail := by
    have ofInside : commentsOf (list.drawnInside options lineEnd fits ++ tail) =
        commentsOf tail := by
      rw [commentsOf_append, inside, List.nil_append]
    exact ofInside
  rw [list.drawn_eq, commentsOf_append, braced]

theorem commentsOf_drawnComments (comments : List Comment) (lineEnd : Text) :
    commentsOf (drawnComments comments lineEnd) = comments := by
  induction comments with
  | nil => rfl
  | cons comment comments inductionHypothesis =>
      rw [drawnComments, List.flatMap_cons, commentsOf_append, ← drawnComments, inductionHypothesis,
        commentsOf, List.filterMap_cons_some (comment?_eq_some_iff.mpr rfl)]
      rfl

theorem commentsOf_drawnSource {literal : StringLiteral} {options : PrintOptions}
    {attributes : Option Text} {tokens : List Token}
    (isAttributes : IsAttributes attributes tokens) :
    commentsOf (drawnSource literal options tokens) = [] := by
  have ofAttributes : commentsOf (drawnAttributes tokens) = [] := by
    cases tokens with
    | nil => rfl
    | cons token tokens => exact isAttributes.noComment
  have behind : commentsOf (drawnAttributes tokens ++ [.punct ';']) = [] := by
    rw [commentsOf_append, ofAttributes]
    rfl
  exact behind

theorem commentsOf_drawnHead (word : String) (kind : BindingKind) :
    commentsOf (drawnHead word kind) = [] := by
  cases kind <;> rfl

theorem ImportDeclaration.commentsOf_drawn {declaration : ImportDeclaration} {tokens : List Token}
    (isAttributes : IsAttributes declaration.attributes tokens) (options : PrintOptions)
    (lineEnd : Text) :
    commentsOf (declaration.drawn options lineEnd tokens) = declaration.comments := by
  have clauses : ∀ piece ∈ declaration.drawnClauses, commentsOf piece = [] := by
    refine List.forall_mem_append.mpr ⟨List.forall_mem_map.mpr fun name _ => rfl,
      List.forall_mem_map.mpr fun name _ => rfl⟩
  have front : commentsOf declaration.drawnFront = [] := by
    rw [drawnFront, commentsOf_append, commentsOf_drawnHead]
    split
    · rfl
    · exact commentsOf_joinDrawn clauses
  have source := @commentsOf_drawnSource declaration.source options _ _ isAttributes
  have tail (binds : Bool) : commentsOf (if binds then .blank :: .word "from" :: .blank ::
      drawnSource declaration.source options tokens
      else .blank :: drawnSource declaration.source options tokens) = [] := by
    cases binds <;> exact source
  have comma (none : Bool) : commentsOf (if none then [] else [.punct ',']) = [] := by
    cases none <;> rfl
  unfold drawn
  simp only [commentsOf_append, commentsOf_drawnComments]
  cases declaration.specifiers with
  | none => simp only [commentsOf_append, front, tail, List.append_nil]
  | some list =>
      simp only [SpecifierList.commentsOf_drawn, commentsOf_append, front, comma, tail]
      simp [commentsOf, Piece.comment?, Token.blank]

theorem ExportDeclaration.commentsOf_drawn {declaration : ExportDeclaration} {tokens : List Token}
    (isAttributes : IsAttributes declaration.attributes tokens) (options : PrintOptions)
    (lineEnd : Text) :
    commentsOf (declaration.drawn options lineEnd tokens) = declaration.comments := by
  unfold drawn
  rw [commentsOf_append, commentsOf_drawnComments, SpecifierList.commentsOf_drawn,
    commentsOf_append, commentsOf_drawnHead]
  cases declaration.source with
  | none => simp [commentsOf, Piece.comment?, Token.blank, Token.punct]
  | some source =>
      have ofSource := @commentsOf_drawnSource source options _ _ isAttributes
      have tail : commentsOf (.blank :: .word "from" :: .blank ::
          drawnSource source options tokens) = [] := ofSource
      simp only [tail]
      simp [commentsOf, Piece.comment?, Token.blank]

/-- A changed declaration ends with a semicolon. -/
theorem ImportDeclaration.suffix_drawn (declaration : ImportDeclaration) (options : PrintOptions)
    (lineEnd : Text) (attributes : List Token) :
    [.punct ';'] <:+ declaration.drawn options lineEnd attributes := by
  rw [declaration.drawn_eq, ← List.append_assoc, ← List.append_assoc]
  exact List.suffix_append ..

theorem ExportDeclaration.suffix_drawn (declaration : ExportDeclaration) (options : PrintOptions)
    (lineEnd : Text) (attributes : List Token) :
    [.punct ';'] <:+ declaration.drawn options lineEnd attributes := by
  rw [declaration.drawn_eq, ← List.append_assoc, ← List.append_assoc]
  exact List.suffix_append ..

/-- A changed declaration without comments begins with its word. -/
theorem ImportDeclaration.prefix_drawn {declaration : ImportDeclaration}
    (noComment : declaration.comments = []) (options : PrintOptions) (lineEnd : Text)
    (attributes : List Token) :
    [.word "import"] <+: declaration.drawn options lineEnd attributes := by
  rw [declaration.drawn_eq, noComment]
  exact ⟨_, rfl⟩

theorem ExportDeclaration.prefix_drawn {declaration : ExportDeclaration}
    (noComment : declaration.comments = []) (options : PrintOptions) (lineEnd : Text)
    (attributes : List Token) :
    [.word "export"] <+: declaration.drawn options lineEnd attributes := by
  rw [declaration.drawn_eq, noComment]
  exact ⟨_, rfl⟩

end Deflow
