import Deflow.Proofs.Document.Hoisting
import Deflow.Proofs.Document.Level
import Deflow.Proofs.Document.Reread

/-!
# Declarations of a document are read back

The names, the source and the attributes of a declaration are texts of its tokens.  They
can therefore be written in another place, and the words among them make the same
bindings there.  So the text that a declaration is written as by itself is read as a
declaration that says the same.
-/

namespace Deflow

open Script

/-! ## Bindings -/

namespace Declaration

/-- Every binding of a list is made by some of its words. -/
theorem ListWords.exists_of_mem {items : List Specifier} {tokens : List Token}
    (list : ListWords items tokens) :
    ∀ item ∈ items, ∃ words, words ⊆ tokens ∧ BindingWords item words := by
  induction list with
  | nil => simp
  | last binding => exact List.forall_mem_singleton.mpr ⟨_, List.subset_append_left .., binding⟩
  | cons binding rest inductionHypothesis =>
      refine List.forall_mem_cons.mpr ⟨⟨_, List.subset_append_left .., binding⟩,
        fun item member => ?_⟩
      rcases inductionHypothesis item member with ⟨words, inside, ofItem⟩
      exact ⟨words, fun token isToken => by simp [inside isToken], ofItem⟩

/-- A binding is made by the words that are drawn of it, if its names tell what they are. -/
theorem BindingWords.drawn {item : Specifier} {tokens : List Token}
    (binding : BindingWords item tokens)
    (names : ∀ token ∈ tokens, token.isName = true → Token.ofName token.text = token) :
    BindingWords item (meaningful item.drawn) := by
  rw [Specifier.meaningful_drawn]
  cases binding with
  | @plain kind name isName clear =>
      rw [names name (by simp) isName]
      exact .plain isName clear
  | @renamed kind name new isName isNew clear =>
      simp only [Option.toList_some, List.flatMap_singleton]
      rw [names name (by simp) isName, names new (by simp) isNew]
      exact .renamed isName isNew clear

theorem ExportWords.exists_of_mem {behind within tokens : List Token} {bare : BareExport}
    (words : ExportWords behind within bare tokens) :
    ∀ item ∈ bare.specifiers, ∃ words, words ⊆ tokens ∧ BindingWords item words := by
  cases words with
  | own isList | reexport isList =>
      intro item member
      rcases isList.exists_of_mem item member with ⟨words, inside, binding⟩
      exact ⟨words, fun token isToken => by simp [inside isToken], binding⟩

/-- Only the name of a module has attributes. -/
theorem ExportWords.noAttributes {behind within tokens : List Token} {bare : BareExport}
    (words : ExportWords behind within bare tokens) (noSource : bare.source = none) :
    bare.hasAttributes = false := by
  cases words with
  | own => rfl
  | reexport => cases noSource

theorem SecondWords.exists_of_mem {namespaceName : Option Text} {items : Option (List Specifier)}
    {tokens : List Token} (second : SecondWords namespaceName items tokens) :
    ∀ list ∈ items, ∀ item ∈ list, ∃ words, words ⊆ tokens ∧ BindingWords item words := by
  cases second with
  | star => simp
  | list list =>
      rintro _ ⟨⟩ item member
      rcases list.exists_of_mem item member with ⟨words, inside, binding⟩
      exact ⟨words, List.Subset.trans inside (List.subset_cons_self ..), binding⟩

/-- An `import` that binds something binds a default name, or one of a name for the module
and a list. -/
theorem ClauseWords.binds {kind : BindingKind} {defaultName namespaceName : Option Text}
    {items : Option (List Specifier)} {tokens : List Token}
    (clauses : ClauseWords kind defaultName namespaceName items tokens) :
    (namespaceName = none ∨ items = none) ∧
      (defaultName.isSome ∨ namespaceName.isSome ∨ items.isSome) ∧
      ∀ list ∈ items, ∀ item ∈ list, ∃ words, words ⊆ tokens ∧ BindingWords item words := by
  have ofSecond {tokens : List Token} (second : SecondWords namespaceName items tokens) :
      (namespaceName = none ∨ items = none) ∧ (namespaceName.isSome ∨ items.isSome) := by
    cases second <;> simp
  have inFront {tokens : List Token} (front : List Token)
      (second : SecondWords namespaceName items tokens) :
      ∀ list ∈ items, ∀ item ∈ list,
        ∃ words, words ⊆ front ++ tokens ∧ BindingWords item words := by
    intro list isList item member
    rcases second.exists_of_mem list isList item member with ⟨words, inside, binding⟩
    exact ⟨words, List.Subset.trans inside (List.subset_append_right ..), binding⟩
  cases clauses with
  | default => simp
  | second second => exact ⟨(ofSecond second).1, .inr (ofSecond second).2, second.exists_of_mem⟩
  | both isIdentifier second => exact ⟨(ofSecond second).1, by simp, inFront [_, .punct ','] second⟩
  | adjoined isIdentifier clear second => exact ⟨(ofSecond second).1, by simp, inFront [_] second⟩

/-- An `import` that binds nothing is one of values. -/
theorem ImportWords.binds {behind within tokens : List Token} {bare : BareImport}
    (words : ImportWords behind within bare tokens) :
    (bare.namespaceName = none ∨ bare.specifiers = none) ∧
      (bare.kind = .value ∨
        bare.defaultName.isSome ∨ bare.namespaceName.isSome ∨ bare.specifiers.isSome) ∧
      ∀ list ∈ bare.specifiers, ∀ item ∈ list,
        ∃ words, words ⊆ tokens ∧ BindingWords item words := by
  cases words with
  | bare => simp
  | bindings isClauses =>
      rcases isClauses.binds with ⟨single, some, bindings⟩
      refine ⟨single, .inr some, fun list isList item member => ?_⟩
      rcases bindings list isList item member with ⟨words, inside, binding⟩
      exact ⟨words, fun token isToken => by simp [inside isToken], binding⟩

/-! ## Lines -/

/-- A list that is read from one line has no names that go over several. -/
theorem unbroken_of_specifierList {pieces rest : List Piece} {list : SpecifierList}
    (read : specifierList pieces = .ok (list, rest)) : list.Unbroken := by
  rcases bind_eq_ok_iff.mp read with ⟨⟨items, _⟩, readItems, isResult⟩
  cases isResult
  rcases exists_of_specifiers readItems with ⟨taken, rfl, listed⟩
  intro oneLine name member isBreak
  rcases listed.parts.1 name member with ⟨token, isToken, _, rfl⟩
  rcases List.mem_map.mp isToken with ⟨piece, isPiece, rfl⟩
  have inside : '\n' ∈ Piece.spell taken :=
    List.mem_flatMap.mpr ⟨piece, isPiece, List.mem_append_right _ isBreak⟩
  rw [taken_append] at oneLine
  simp [inside] at oneLine

theorem unbroken_of_clause {pieces rest : List Piece} {found : Clause}
    (read : clause pieces = .ok (found, rest)) : ∀ list ∈ found.specifiers, list.Unbroken := by
  cases pieces with
  | nil =>
      cases read
      simp
  | cons piece pieces =>
      rw [clause] at read
      split at read
      · simp only [bind_eq_ok_iff, Prod.exists] at read
        rcases read with ⟨_, _, _, _, _, _, isResult⟩
        cases isResult
        simp
      · split at read
        · rcases bind_eq_ok_iff.mp read with ⟨⟨list, _⟩, readList, isResult⟩
          cases isResult
          rintro _ ⟨⟩
          exact unbroken_of_specifierList readList
        · cases read
          simp

theorem unbroken_of_importDeclaration {pieces rest : List Piece} {declaration : ImportDeclaration}
    (read : importDeclaration pieces = .ok (declaration, rest)) :
    ∀ list ∈ declaration.specifiers, list.Unbroken := by
  rw [importDeclaration] at read
  split at read
  · simp only [bareImport, bind_eq_ok_iff, Prod.exists] at read
    rcases read with ⟨_, _, _, _, _, _, isResult⟩
    cases isResult
    simp
  · simp only [bindingImport] at read
    rcases bind_eq_ok_iff.mp read with ⟨⟨defaultName, between⟩, readDefault, read⟩
    rcases bind_eq_ok_iff.mp read with ⟨⟨found, behindClauses⟩, readClause, read⟩
    simp only at read
    split at read
    · cases read
    · simp only [bind_eq_ok_iff, Prod.exists] at read
      rcases read with ⟨_, _, _, _, _, _, _, _, _, isResult⟩
      cases isResult
      exact unbroken_of_clause readClause

theorem unbroken_of_exportDeclaration {pieces rest : List Piece} {declaration : ExportDeclaration}
    (read : exportDeclaration pieces = .ok (some declaration, rest)) :
    declaration.specifiers.Unbroken := by
  rw [exportDeclaration] at read
  split at read
  · split at read
    · simp only [bind_eq_ok_iff, Prod.exists] at read
      rcases read with ⟨list, _, readList, _, _, _, _, isResult⟩
      cases isResult
      exact unbroken_of_specifierList readList
    · cases read
  · cases read

end Declaration

/-! ## Attributes -/

theorem Declaration.ImportWords.exists_attributes {behind within tokens : List Token}
    {bare : BareImport} (words : ImportWords behind within bare tokens) :
    ∃ ending has, AttributeWords ending has within := by
  cases words with
  | bare isString hasAttributes => exact ⟨_, _, hasAttributes⟩
  | bindings isClauses isString hasAttributes => exact ⟨_, _, hasAttributes⟩

theorem Declaration.ExportWords.exists_attributes {behind within tokens : List Token}
    {bare : BareExport} (words : ExportWords behind within bare tokens) :
    ∃ ending has, AttributeWords ending has within := by
  cases words with
  | own isList noSource noAttributes =>
      subst noAttributes
      exact ⟨[], false, .absent rfl⟩
  | reexport isList isString hasAttributes => exact ⟨_, _, hasAttributes⟩

/-- Attributes without slashes and angle brackets are read in front of a semicolon as they
are in front of anything else, and wherever they stand. -/
theorem Declaration.AttributeTokens.reads_before_semicolon {text : Text}
    {tokens behind : List Token} (isAttributes : AttributeTokens text tokens)
    (plain : '<' ∉ text ∧ '/' ∉ text)
    (noSign : ∀ token ∈ tokens, token.isSign = false) {inside : Context}
    (here : Reads (.script .endOfInput inside) (Token.spell (tokens ++ behind))
      (tokens ++ behind) [])
    (context : Context) :
    Reads (.script .endOfInput context) (Token.spell (tokens ++ [.punct ';']))
      (tokens ++ [.punct ';']) [] := by
  rcases isAttributes with ⟨rfl, ⟨first, more, isTokens, isWord⟩, ends⟩
  have stay : AllStay (Token.spell behind) [';'] tokens := by
    rcases ends with ⟨front, rfl⟩
    refine allStay_of_last (fun c member => ?_) (by simp) rfl
    constructor
    · rintro rfl
      exact plain.2 member
    · rintro rfl
      exact plain.1 member
  have noMarkup : ∀ token ∈ tokens, token.isPunct '<' = false := by
    intro token member
    have ofToken := noSign token member
    simp only [Token.isSign, Bool.or_eq_false_iff] at ofToken
    exact ofToken.1.2
  rw [Token.spell_append] at here ⊢
  have again := stay.reads noMarkup here fun context _ => reads_semicolon context
  -- The context matters to a sign in front only, and the attributes begin with a word.
  apply again.of_context
  right
  rw [isTokens, List.cons_append, meaningful_cons (by simp [Token.isTrivia, isWord])]
  rintro _ ⟨⟩
  exact noSign first (by simp [isTokens])

/-- Attributes without slashes and angle brackets can be written in front of a
semicolon. -/
theorem Declaration.AttributesAmong.exists_restates {attributes : Option Text}
    {within block after : List Token} {context : Context}
    (among : AttributesAmong attributes within block)
    (isWords : ∃ ending has, AttributeWords ending has within) (noComment : commentsOf block = [])
    (plain : ∀ text ∈ attributes, '<' ∉ text ∧ '/' ∉ text)
    (noSign : ∀ token ∈ block, token.isSign = false)
    (reads :
      Reads (.script .endOfInput context) (Token.spell (block ++ after)) (block ++ after) []) :
    ∃ tokens, Restates attributes tokens := by
  cases attributes with
  | none =>
      exact ⟨[], ⟨rfl, by simp, rfl⟩, .absent (by decide), by simp, by simp, reads_semicolon⟩
  | some text =>
      rcases among.present text rfl with ⟨inner, ⟨before, behind, rfl⟩, isAttributes, rfl⟩
      rcases List.forall_mem_append.mp (List.forall_mem_append.mp noSign).1 with ⟨ofBefore, ofInner⟩
      rw [List.append_assoc, List.append_assoc] at reads
      rcases (reads.exists_behind ofBefore).2 with ⟨inside, here⟩
      have anywhere := isAttributes.reads_before_semicolon (plain text rfl) ofInner here
      rcases isAttributes with ⟨rfl, ⟨first, more, isInner, isWord⟩, ends⟩
      have meaning : first.isTrivia = false := by simp [Token.isTrivia, isWord]
      refine ⟨inner, ⟨?_, ?_, ?_⟩, ?_, ?_, ?_, ?_⟩
      · rw [isInner]
        rfl
      · exact fun _ => ⟨first, more, isInner, by simp [isWord]⟩
      · rw [commentsOf_append, commentsOf_append] at noComment
        exact (List.append_eq_nil_iff.mp (List.append_eq_nil_iff.mp noComment).1).2
      · rw [isInner, meaningful_cons meaning] at isWords ⊢
        rcases isWords with ⟨ending, has, isWords⟩
        generalize isWithin : first :: meaningful more = within at isWords ⊢
        cases isWords with
        | absent => cases isWithin
        | present isWord inner => exact .present isWord inner
      · rw [isInner]
        rintro _ ⟨⟩
        exact meaning
      · exact ends_of_suffix ends
      · intro context
        have blankEnds : Token.blank.endsBefore (Token.spell (inner ++ [.punct ';'])) = true := by
          have lexeme := (here.sound first (by simp [isInner])).lexeme (.inl isWord)
          have filled := lexeme.head_filled (by simp [isWord]) (Token.spell more ++ [';'])
          rw [isInner, List.cons_append, Token.spell_cons]
          simpa [Token.endsBefore, Token.blank] using filled
        have free : Freestanding (Token.spell (inner ++ [.punct ';'])) [.blank] :=
          ⟨⟨isLexeme_blank, rfl, blankEnds⟩, trivial⟩
        have drawn := free.reads (anywhere (context.push .blank))
        rw [isInner] at drawn ⊢
        simpa [drawnAttributes] using drawn

/-! ## Declarations -/

section

variable {node : Node} {block behind : List Token} (stands : Stands node block behind)
  {parts : Parts} (isParts : node.parts? = some parts)
  (plain : ∀ text ∈ parts.attributes, '<' ∉ text ∧ '/' ∉ text)

include stands isParts

theorem Stands.parts_from : parts.From block := by
  rcases stands.declares.parts_from with ⟨other, isOther, taken⟩
  cases isOther.symm.trans isParts
  exact taken

include plain

theorem Stands.noSign : ∀ token ∈ block, token.isSign = false := by
  rcases stands.reads with ⟨context, reads⟩
  refine (stands.parts_from isParts).noSign (fun token member => ?_) plain
  exact reads.sound token (List.mem_append_left _ member)

/-- The names of a declaration are lexemes. -/
theorem Stands.isLexeme : ∀ token ∈ block, token.isName = true → IsLexeme token := by
  rcases stands.reads with ⟨context, reads⟩
  intro token member isName
  refine (reads.exists_behind (stands.noSign isParts plain)).1 token member fun isTemplate => ?_
  simp [Token.isName, isTemplate] at isName

/-- The attributes of a declaration can be written in another place. -/
theorem Stands.exists_restates (noComment : node.comments = []) :
    ∃ tokens, Restates parts.attributes tokens := by
  have noSign := stands.noSign isParts plain
  rcases stands with ⟨declares, context, reads⟩
  have noComments : commentsOf block = [] := by
    rw [← declares.covers.comments_eq, noComment]
  cases declares with
  | importing covers words among list | exporting covers words among list =>
      cases isParts
      rcases List.forall_mem_cons.mp noSign with ⟨first, others⟩
      rcases (@Reads.exists_behind _ _ [_] _ reads (by simpa using first)).2 with ⟨inside, after⟩
      exact among.exists_restates words.exists_attributes noComments plain others after

end

/-- The name of a module is written in quotes. -/
theorem Parts.From.quote_source {parts : Parts} {block : List Token} (taken : parts.From block)
    (lexemes : ∀ token ∈ block, token.isName = true → IsLexeme token) :
    ∀ literal ∈ parts.source, literal.quote = '"' ∨ literal.quote = '\'' := by
  intro literal isSource
  rcases taken.source literal isSource with ⟨⟨kind, text⟩, isToken, isString, rfl⟩
  obtain rfl : kind = .string := isString
  rcases isLexeme_string_iff.mp (lexemes _ isToken rfl) with ⟨quote, body, isQuote, _, rfl⟩
  simpa [Declaration.literalOf] using isQuote

section

variable {options : PrintOptions} (isQuote : options.quote = '"' ∨ options.quote = '\'')
  {block behind : List Token}

include isQuote

/-- An `import` of a document can be written and read back, also as one of values. -/
theorem Stands.exists_drawable_import {declaration : ImportDeclaration}
    (stands : Stands (.importing declaration) block behind) (noComment : declaration.comments = [])
    (plain : ∀ text ∈ declaration.attributes, '<' ∉ text ∧ '/' ∉ text) {kind : BindingKind}
    (isKind : kind = declaration.kind ∨ kind = .value) :
    ∃ attributes, ImportDeclaration.Drawable { declaration with kind, written := none } options
      attributes := by
  have taken := stands.parts_from rfl
  have lexemes := stands.isLexeme rfl plain
  rcases stands.exists_restates rfl plain noComment with ⟨attributes, restates⟩
  rcases stands.declares with ⟨covers, words, among, pieces, rest, read, isRead, sameList⟩
  rcases words.binds with ⟨single, binds, bindings⟩
  refine ⟨attributes, ⟨noComment, ?_, taken.isLexeme_ofName lexemes,
    taken.isLexeme_source lexemes isQuote _ rfl, restates, ?_, ?_, ?_, ?_⟩⟩
  · exact fun name member => lexemes _ (taken.identifiers name member) rfl
  · simpa [ImportDeclaration.bare] using single
  · intro none
    rcases isKind with rfl | rfl
    · refine binds.resolve_right fun some => ?_
      have bindsSome : declaration.binds = true := by
        rcases some with isDefault | isNamespace | isList
        · rcases Option.isSome_iff_exists.mp isDefault with ⟨name, isName⟩
          have isName : declaration.defaultName = some name := isName
          simp [ImportDeclaration.binds, ImportDeclaration.drawnClauses, isName]
        · rcases Option.isSome_iff_exists.mp isNamespace with ⟨name, isName⟩
          have isName : declaration.namespaceName = some name := isName
          simp [ImportDeclaration.binds, ImportDeclaration.drawnClauses, isName]
        · have isList : declaration.specifiers.isSome = true := by
            simpa [ImportDeclaration.bare] using isList
          simp [ImportDeclaration.binds, isList]
      exact Bool.false_ne_true (none.symm.trans bindsSome)
    · rfl
  · intro list isList item member
    rcases bindings list.items (Option.mem_map_of_mem _ isList) item member with
      ⟨words, inside, binding⟩
    refine binding.drawn fun token isToken isName => ?_
    exact Token.ofName_text
      (lexemes token (.tail _ (List.mem_of_mem_filter (inside isToken))) isName) isName
  · intro list isList
    exact Declaration.unbroken_of_importDeclaration isRead list (sameList ▸ isList)

/-- An `export` of a document can be written, also with other kinds. -/
theorem Stands.exists_writable_export {declaration : ExportDeclaration}
    (stands : Stands (.exporting declaration) block behind) (noComment : declaration.comments = [])
    (plain : ∀ text ∈ declaration.attributes, '<' ∉ text ∧ '/' ∉ text) {items : List Specifier}
    (names : Specifier.names items = Specifier.names declaration.specifiers.items)
    (kind : BindingKind) :
    ∃ attributes, ExportDeclaration.Writable
      { declaration with
        kind, specifiers := { declaration.specifiers with items }, written := none }
      options attributes := by
  have taken := stands.parts_from rfl
  have lexemes := stands.isLexeme rfl plain
  rcases stands.exists_restates rfl plain noComment with ⟨attributes, restates⟩
  refine ⟨attributes, noComment, ?_, taken.isLexeme_source lexemes isQuote, restates⟩
  intro name member
  apply taken.isLexeme_ofName lexemes
  rwa [ExportDeclaration.parts, names] at member

omit isQuote in
/-- It can be read back if its kinds make bindings. -/
theorem Stands.drawable_export {declaration : ExportDeclaration}
    (stands : Stands (.exporting declaration) block behind) {items : List Specifier}
    (names : Specifier.names items = Specifier.names declaration.specifiers.items)
    (bindings : ∀ item ∈ items, Declaration.BindingWords item (meaningful item.drawn))
    {kind : BindingKind} {attributes : List Token}
    (writable : ExportDeclaration.Writable
      { declaration with
        kind, specifiers := { declaration.specifiers with items }, written := none }
      options attributes) :
    ExportDeclaration.Drawable
      { declaration with
        kind, specifiers := { declaration.specifiers with items }, written := none }
      options attributes := by
  rcases stands.declares with _ | ⟨covers, words, among, pieces, rest, read, isRead, sameList⟩
  refine ⟨writable, fun noSource => ?_, bindings, fun oneLine => ?_⟩
  · simpa [ExportDeclaration.bare] using words.noAttributes noSource
  · rw [names]
    have unbroken := Declaration.unbroken_of_exportDeclaration isRead
    rw [sameList] at unbroken
    exact unbroken oneLine

omit isQuote in
/-- The bindings of an `export` of a document are made by what is drawn of them. -/
theorem Stands.bindings_export {declaration : ExportDeclaration}
    (stands : Stands (.exporting declaration) block behind)
    (plain : ∀ text ∈ declaration.attributes, '<' ∉ text ∧ '/' ∉ text) :
    ∀ item ∈ declaration.specifiers.items,
      Declaration.BindingWords item (meaningful item.drawn) := by
  have lexemes := stands.isLexeme rfl plain
  rcases stands.declares with _ | ⟨covers, words, among, _⟩
  intro item member
  rcases words.exists_of_mem item member with ⟨words, inside, binding⟩
  refine binding.drawn fun token isToken isName => ?_
  exact Token.ofName_text (lexemes token (.tail _ (List.mem_of_mem_filter (inside isToken))) isName)
    isName

end

/-! ## What a declaration says -/

/-- What a declaration says, whatever it is written as. -/
inductive Sense where
  | importing (kind : BindingKind) (defaultName namespaceName : Option Text)
      (items : Option (List Specifier)) (source : List StringElement) (attributes : Option Text)
  | exporting (kind : BindingKind) (items : List Specifier) (source : Option (List StringElement))
      (attributes : Option Text)
deriving DecidableEq, Repr

def ImportDeclaration.sense (declaration : ImportDeclaration) : Sense :=
  .importing declaration.kind declaration.defaultName declaration.namespaceName
    (declaration.specifiers.map SpecifierList.items) declaration.source.elements
    declaration.attributes

def ExportDeclaration.sense (declaration : ExportDeclaration) : Sense :=
  .exporting declaration.kind declaration.specifiers.items
    (declaration.source.map StringLiteral.elements) declaration.attributes

/-- What a node says, if it is a declaration. -/
def Node.sense? : Node → Option Sense
  | .importing declaration => some declaration.sense
  | .exporting declaration => some declaration.sense
  | _ => none

/-- A node without the text that it was written as. -/
def Node.unwritten : Node → Node
  | .importing declaration => .importing { declaration with written := none }
  | .exporting declaration => .exporting { declaration with written := none }
  | node => node

/-- An `import` that is read back says the same. -/
theorem ImportDeclaration.sense_reread {declaration : ImportDeclaration}
    (isQuote : declaration.source.quote = '"' ∨ declaration.source.quote = '\'')
    (options : PrintOptions) (lineEnd : Text) (attributes : List Token) :
    (declaration.reread options lineEnd attributes).sense = declaration.sense := by
  have sameItems : (declaration.specifiers.map
      (·.reread options lineEnd (declaration.fits options attributes))).map SpecifierList.items =
      declaration.specifiers.map SpecifierList.items := by
    cases declaration.specifiers <;> rfl
  simp only [sense, reread, sameItems, elements_requote isQuote]

/-- An `export` that is read back says the same. -/
theorem ExportDeclaration.sense_reread {declaration : ExportDeclaration}
    (isQuote : ∀ literal ∈ declaration.source, literal.quote = '"' ∨ literal.quote = '\'')
    (options : PrintOptions) (lineEnd : Text) (attributes : List Token) :
    (declaration.reread options lineEnd attributes).sense = declaration.sense := by
  have sameSource : (declaration.source.map (·.requote options.quote)).map StringLiteral.elements =
      declaration.source.map StringLiteral.elements := by
    cases isSource : declaration.source with
    | none => rfl
    | some literal => exact congrArg some (elements_requote (isQuote literal isSource) _)
  simp only [sense, reread, sameSource]
  rfl

/-- A document of a changed declaration is written with line feeds. -/
theorem print_importing {declaration : ImportDeclaration} (changed : declaration.written = none)
    (options : PrintOptions) :
    Document.print ⟨[.importing declaration]⟩ options = declaration.render options ['\n'] := by
  simp [Document.print, Document.lineEnd, Node.render, Node.written?, changed]

theorem print_exporting {declaration : ExportDeclaration} (changed : declaration.written = none)
    (options : PrintOptions) :
    Document.print ⟨[.exporting declaration]⟩ options = declaration.render options ['\n'] := by
  simp [Document.print, Document.lineEnd, Node.render, Node.written?, changed]

/-- A changed node that is written by itself is read as one that says the same and is
written as the same text. -/
def Node.ReadsBack (node : Node) (options : PrintOptions) : Prop :=
  ∃ again, Document.parse (Document.print ⟨[node.unwritten]⟩ options) = .ok ⟨[again]⟩ ∧
    again.sense? = node.sense? ∧
    Document.print ⟨[again.unwritten]⟩ options = Document.print ⟨[node.unwritten]⟩ options

theorem ImportDeclaration.Drawable.readsBack {declaration : ImportDeclaration}
    {options : PrintOptions} {attributes : List Token}
    (drawable : ImportDeclaration.Drawable { declaration with written := none } options attributes)
    (isQuote : declaration.source.quote = '"' ∨ declaration.source.quote = '\'') :
    (Node.importing declaration).ReadsBack options := by
  have sameSense :=
    @sense_reread { declaration with written := none } isQuote options ['\n'] attributes
  refine ⟨.importing (reread _ options ['\n'] attributes), ?_, congrArg some sameSense, ?_⟩
  · rw [Node.unwritten, print_importing rfl]
    exact drawable.parse_render (.inl rfl)
  · rw [Node.unwritten, Node.unwritten, print_importing rfl, print_importing rfl]
    exact drawable.render_reread (.inl rfl)

theorem ExportDeclaration.Drawable.readsBack {declaration : ExportDeclaration}
    {options : PrintOptions} {attributes : List Token}
    (drawable : ExportDeclaration.Drawable { declaration with written := none } options attributes)
    (isQuote : ∀ literal ∈ declaration.source, literal.quote = '"' ∨ literal.quote = '\'') :
    (Node.exporting declaration).ReadsBack options := by
  have sameSense :=
    @sense_reread { declaration with written := none } isQuote options ['\n'] attributes
  refine ⟨.exporting (reread _ options ['\n'] attributes), ?_, congrArg some sameSense, ?_⟩
  · rw [Node.unwritten, print_exporting rfl]
    exact drawable.parse_render (.inl rfl)
  · rw [Node.unwritten, Node.unwritten, print_exporting rfl, print_exporting rfl]
    exact drawable.render_reread (.inl rfl)

theorem ImportDeclaration.setKind_unwritten (declaration : ImportDeclaration) (kind : BindingKind) :
    { declaration.setKind kind with written := none } =
      { declaration with kind, written := none } := by
  unfold setKind
  split
  · rename_i same
    rw [← same]
  · rfl

theorem ImportDeclaration.source_setKind (declaration : ImportDeclaration) (kind : BindingKind) :
    (declaration.setKind kind).source = declaration.source := by
  unfold setKind
  split <;> rfl

/-- A declaration of a document that is written by itself is read as one that says the same,
and that is written as the same text.  So is an `import` that is made one of values. -/
theorem declaration_reads_back {source : Text} {document : Document}
    (parsed : Document.parse source = .ok document) {node printed : Node}
    (member : node ∈ document.nodes) (isDeclaration : node.sense?.isSome = true)
    (isPrinted : printed = node ∨ ∃ declaration, node = .importing declaration ∧
      printed = .importing (declaration.setKind .value))
    (noComment : node.comments = [])
    (plain : ∀ parts ∈ node.parts?, ∀ text ∈ parts.attributes, '<' ∉ text ∧ '/' ∉ text)
    (options : PrintOptions) (isQuote : options.quote = '"' ∨ options.quote = '\'') :
    printed.ReadsBack options := by
  cases node with
  | importing declaration =>
      rcases exists_stands parsed member rfl with ⟨block, behind, stands⟩
      have quoted := (stands.parts_from rfl).quote_source (stands.isLexeme rfl (plain _ rfl)) _ rfl
      rcases isPrinted with rfl | ⟨_, ⟨⟩, rfl⟩
      · rcases stands.exists_drawable_import isQuote noComment (plain _ rfl) (.inl rfl) with
          ⟨attributes, drawable⟩
        exact drawable.readsBack quoted
      · rcases stands.exists_drawable_import isQuote noComment (plain _ rfl) (.inr rfl) with
          ⟨attributes, drawable⟩
        rw [← ImportDeclaration.setKind_unwritten] at drawable
        refine drawable.readsBack ?_
        rwa [ImportDeclaration.source_setKind]
  | exporting declaration =>
      rcases exists_stands parsed member rfl with ⟨block, behind, stands⟩
      have quoted := (stands.parts_from rfl).quote_source (stands.isLexeme rfl (plain _ rfl))
      rcases isPrinted with rfl | ⟨_, ⟨⟩, _⟩
      rcases stands.exists_writable_export isQuote noComment (plain _ rfl) rfl declaration.kind with
        ⟨attributes, writable⟩
      have bindings := stands.bindings_export (plain _ rfl)
      exact (stands.drawable_export rfl bindings writable).readsBack quoted
  | _ => cases isDeclaration

/-- Names that are words of declarations, over several lines, and attributes with script. -/
theorem declaration_reads_back_contextual_names :
    let written : Text :=
      ("import type type, \x7b type as as as, type type, \"b c\" as from \x7d " ++
        "from \"it's\" with \x7b type: \x60j\x60 \x7d").toList
    ∃ document declaration,
      Document.parse ("a;\n".toList ++ written) = .ok document ∧
      Node.importing declaration ∈ document.nodes ∧ declaration.kind = .type ∧
      Document.print ⟨[(Node.importing (declaration.setKind .value)).unwritten]⟩
          { wrapColumn := 20 } =
        ("import type, \x7b\n  type as as as,\n  type type,\n  \"b c\" as from,\n\x7d " ++
          "from \"it's\" with \x7b type: \x60j\x60 \x7d;").toList ∧
      (Node.importing (declaration.setKind .value)).ReadsBack { wrapColumn := 20 } := by
  intro written
  let declaration : ImportDeclaration :=
    { kind := .type
      defaultName := some "type".toList
      specifiers := some
        ⟨[⟨.type, "as".toList, some "as".toList⟩, ⟨.type, "type".toList, none⟩,
          ⟨.value, "\"b c\"".toList, some "from".toList⟩], false⟩
      source := ⟨'"', "it's".toList⟩
      attributes := some "with \x7b type: \x60j\x60 \x7d".toList
      written := some written }
  have parsed : Document.parse ("a;\n".toList ++ written) =
      .ok ⟨[.code "a;".toList, .trivia ['\n'], .importing declaration]⟩ := by
    decide +kernel
  refine ⟨_, declaration, parsed, by simp, rfl, by decide +kernel, ?_⟩
  exact declaration_reads_back parsed (by simp) rfl (.inr ⟨declaration, rfl, rfl⟩) rfl
    (by decide +kernel) _ (.inr rfl)

end Deflow
