import Deflow.Proofs.Document.Outline
import Deflow.Proofs.Script.Freestanding

/-!
# What declarations are made of

A declaration is written with names, the name of a module and attributes, and all
of these are texts of its tokens.  No rule changes them, so that they are also what
a declaration that is written anew is made of.
-/

namespace Deflow

open Script

/-! ## Parts of declarations -/

/-- The texts that a declaration is written with, besides its words and plain. -/
structure Parts where
  /-- The names that are identifiers. -/
  identifiers : List Text := []
  /-- The names in its list, which may be strings as well. -/
  names : List Text := []
  source : Option StringLiteral
  attributes : Option Text

/-- The names that a list of bindings is written with. -/
def Specifier.names (items : List Specifier) : List Text :=
  items.flatMap fun item => item.name :: item.renamed.toList

def ImportDeclaration.parts (declaration : ImportDeclaration) : Parts where
  identifiers := declaration.defaultName.toList ++ declaration.namespaceName.toList
  names := (declaration.specifiers.map fun list => Specifier.names list.items).getD []
  source := some declaration.source
  attributes := declaration.attributes

def ExportDeclaration.parts (declaration : ExportDeclaration) : Parts where
  names := Specifier.names declaration.specifiers.items
  source := declaration.source
  attributes := declaration.attributes

/-- The parts of a declaration are taken from its tokens.  Outside its attributes
these are plain. -/
structure Parts.From (parts : Parts) (tokens : List Token) : Prop where
  identifiers : ∀ name ∈ parts.identifiers, ⟨.identifier, name⟩ ∈ tokens
  names : ∀ name ∈ parts.names, ∃ token ∈ tokens, token.isName = true ∧ token.text = name
  source : ∀ literal ∈ parts.source, ∃ token ∈ tokens, token.kind = .string ∧
    literal = Declaration.literalOf token.text
  attributes : ∀ text ∈ parts.attributes, ∃ inner, inner <:+: tokens ∧
    Declaration.AttributeTokens text inner
  plain : ∀ token ∈ tokens, token.isPlain = false →
    ∃ text ∈ parts.attributes, token.text <:+: text

/-- Where attributes hold no signs, a declaration holds none. -/
theorem Parts.From.noSign {parts : Parts} {block : List Token} (taken : parts.From block)
    (sound : ∀ token ∈ block, token.Sound)
    (plain : ∀ text ∈ parts.attributes, '<' ∉ text ∧ '/' ∉ text) :
    ∀ token ∈ block, token.isSign = false := by
  intro token member
  by_contra isSign
  have notPlain : token.isPlain = false := by
    simpa [Token.isPlain] using fun noSign => absurd noSign isSign
  rcases taken.plain token member notPlain with ⟨text, isText, inside⟩
  rcases plain text isText with ⟨noAngle, noSlash⟩
  have inText {c : Char} (isHead : token.text.head? = some c) : c ∈ text :=
    inside.subset (List.mem_of_mem_head? isHead)
  simp only [Token.isSign, Bool.not_eq_false, Bool.or_eq_true, beq_iff_eq,
    Token.isPunct_iff] at isSign
  rcases isSign with (rfl | rfl) | isRegex
  · exact noSlash (inText rfl)
  · exact noAngle (inText rfl)
  · exact noSlash (inText ((sound token member).regex isRegex))

namespace Declaration

theorem isPlain_of_isName {token : Token} (isName : token.isName = true) :
    token.isPlain = true := by
  obtain ⟨kind, text⟩ := token
  cases kind <;> first | rfl | simp [Token.isName] at isName

/-- The words of a kind are plain. -/
theorem isPlain_of_mem_kind {kind : BindingKind} {token : Token} (member : token ∈ kind.words) :
    token.isPlain = true := by
  cases kind with
  | value => cases member
  | type | typeof =>
      obtain rfl := List.mem_singleton.mp member
      rfl

/-- The names of a binding are among its words, and all of these are plain. -/
theorem BindingWords.parts {item : Specifier} {tokens : List Token}
    (binding : BindingWords item tokens) :
    (∀ name ∈ item.name :: item.renamed.toList,
        ∃ token ∈ tokens, token.isName = true ∧ token.text = name) ∧
      ∀ token ∈ tokens, token.isPlain = true := by
  cases binding with
  | @plain kind name isName clear =>
      refine ⟨by simp [isName], fun token member => ?_⟩
      rcases List.mem_append.mp member with inKind | isLast
      · exact isPlain_of_mem_kind inKind
      · obtain rfl := List.mem_singleton.mp isLast
        exact isPlain_of_isName isName
  | @renamed kind name new isName isNew clear =>
      constructor
      · intro text member
        simp only [Option.toList_some, List.mem_cons, List.not_mem_nil, or_false] at member
        rcases member with rfl | rfl
        · exact ⟨name, by simp, isName, rfl⟩
        · exact ⟨new, by simp, isNew, rfl⟩
      · intro token member
        rcases List.mem_append.mp member with inKind | inNames
        · exact isPlain_of_mem_kind inKind
        · simp only [List.mem_cons, List.not_mem_nil, or_false] at inNames
          rcases inNames with rfl | rfl | rfl
          · exact isPlain_of_isName isName
          · rfl
          · exact isPlain_of_isName isNew

/-- The names of a list are among its words, and all of these are plain. -/
theorem ListWords.parts {items : List Specifier} {tokens : List Token}
    (list : ListWords items tokens) :
    (∀ name ∈ Specifier.names items, ∃ token ∈ tokens, token.isName = true ∧ token.text = name) ∧
      ∀ token ∈ tokens, token.isPlain = true := by
  induction list with
  | nil =>
      exact ⟨by simp [Specifier.names],
        by simp [Token.isPlain, Token.isSign, Token.isPunct, Token.punct]⟩
  | last binding =>
      obtain ⟨names, plain⟩ := binding.parts
      constructor
      · intro name member
        obtain ⟨token, isToken, named⟩ := names name (by simpa [Specifier.names] using member)
        exact ⟨token, List.mem_append_left _ isToken, named⟩
      · intro token member
        rcases List.mem_append.mp member with inBinding | isBrace
        · exact plain token inBinding
        · obtain rfl := List.mem_singleton.mp isBrace
          rfl
  | @cons item items tokens more binding rest inductionHypothesis =>
      obtain ⟨names, plain⟩ := binding.parts
      obtain ⟨moreNames, morePlain⟩ := inductionHypothesis
      constructor
      · intro name member
        rw [Specifier.names, List.flatMap_cons, List.mem_append] at member
        rcases member with inItem | inItems
        · obtain ⟨token, isToken, named⟩ := names name inItem
          exact ⟨token, List.mem_append_left _ isToken, named⟩
        · obtain ⟨token, isToken, named⟩ := moreNames name inItems
          exact ⟨token, List.mem_append_right _ (.tail _ isToken), named⟩
      · intro token member
        rcases List.mem_append.mp member with inBinding | inRest
        · exact plain token inBinding
        · rcases List.mem_cons.mp inRest with rfl | inMore
          · rfl
          · exact morePlain token inMore

theorem EndWords.isPlain {behind tokens : List Token} (ends : EndWords behind tokens) :
    ∀ token ∈ tokens, token.isPlain = true := by
  cases ends with
  | absent => simp
  | semicolon => simp [Token.isPlain, Token.isSign, Token.isPunct, Token.punct]

theorem SecondWords.parts {namespaceName : Option Text} {items : Option (List Specifier)}
    {tokens : List Token} (second : SecondWords namespaceName items tokens) :
    (∀ name ∈ namespaceName, ⟨.identifier, name⟩ ∈ tokens) ∧
      (∀ name ∈ (items.map Specifier.names).getD [],
        ∃ token ∈ tokens, token.isName = true ∧ token.text = name) ∧
      ∀ token ∈ tokens, token.isPlain = true := by
  cases second with
  | @star name isIdentifier =>
      obtain ⟨kind, text⟩ := name
      obtain rfl : kind = .identifier := isIdentifier
      refine ⟨by simp, by simp, ?_⟩
      simp [Token.isPlain, Token.isSign, Token.isPunct, Token.punct, Token.word]
  | list list =>
      obtain ⟨names, plain⟩ := list.parts
      refine ⟨by simp, fun name member => ?_, ?_⟩
      · obtain ⟨token, isToken, named⟩ := names name member
        exact ⟨token, .tail _ isToken, named⟩
      · exact List.forall_mem_cons.mpr ⟨rfl, plain⟩

theorem ClauseWords.parts {kind : BindingKind} {defaultName namespaceName : Option Text}
    {items : Option (List Specifier)} {tokens : List Token}
    (clauses : ClauseWords kind defaultName namespaceName items tokens) :
    (∀ name ∈ defaultName.toList ++ namespaceName.toList, ⟨.identifier, name⟩ ∈ tokens) ∧
      (∀ name ∈ (items.map Specifier.names).getD [],
        ∃ token ∈ tokens, token.isName = true ∧ token.text = name) ∧
      ∀ token ∈ tokens, token.isPlain = true := by
  have identified {name : Token} (isIdentifier : name.kind = .identifier) :
      name = ⟨.identifier, name.text⟩ ∧ name.isPlain = true := by
    obtain ⟨nameKind, text⟩ := name
    obtain rfl : nameKind = .identifier := isIdentifier
    exact ⟨rfl, rfl⟩
  -- A default name and perhaps a comma stand in front of a second clause.
  have inFront {name : Token} {tokens : List Token} (front : List Token)
      (isIdentifier : name.kind = .identifier) (isFront : name ∈ front)
      (plain : ∀ token ∈ front, token.isPlain = true)
      (second : SecondWords namespaceName items tokens) :
      (∀ other ∈ (some name.text).toList ++ namespaceName.toList,
          ⟨.identifier, other⟩ ∈ front ++ tokens) ∧
        (∀ other ∈ (items.map Specifier.names).getD [],
          ∃ token ∈ front ++ tokens, token.isName = true ∧ token.text = other) ∧
        ∀ token ∈ front ++ tokens, token.isPlain = true := by
    obtain ⟨ofNamespace, ofNames, ofPlain⟩ := second.parts
    refine ⟨fun other member => ?_, fun other member => ?_,
      List.forall_mem_append.mpr ⟨plain, ofPlain⟩⟩
    · rcases List.mem_cons.mp member with rfl | inNamespace
      · rw [← (identified isIdentifier).1]
        exact List.mem_append_left _ isFront
      · exact List.mem_append_right _ (ofNamespace other (Option.mem_toList.mp inNamespace))
    · obtain ⟨token, isToken, named⟩ := ofNames other member
      exact ⟨token, List.mem_append_right _ isToken, named⟩
  cases clauses with
  | default isIdentifier =>
      obtain ⟨same, plain⟩ := identified isIdentifier
      refine ⟨?_, by simp, by simpa using plain⟩
      simpa using same.symm
  | second second => simpa using second.parts
  | both isIdentifier second =>
      refine inFront [_, .punct ','] isIdentifier (by simp) ?_ second
      exact List.forall_mem_cons.mpr ⟨(identified isIdentifier).2, by
        simp [Token.isPlain, Token.isSign, Token.isPunct, Token.punct]⟩
  | adjoined isIdentifier clear second =>
      refine inFront [_] isIdentifier (by simp) ?_ second
      simpa using (identified isIdentifier).2

/-- The words of attributes are part of their text. -/
theorem AttributesAmong.isPart {attributes : Option Text} {within tokens : List Token}
    (among : AttributesAmong attributes within tokens) :
    ∀ token ∈ within, ∃ text ∈ attributes, token.text <:+: text := by
  intro token member
  cases attributes with
  | none =>
      rw [among.absent rfl] at member
      cases member
  | some text =>
      rcases among.present text rfl with ⟨inner, _, ⟨rfl, _, _⟩, rfl⟩
      refine ⟨_, rfl, ?_⟩
      rcases List.append_of_mem (List.mem_of_mem_filter member) with ⟨before, after, rfl⟩
      exact ⟨Token.spell before, Token.spell after, by simp⟩

/-- The parts of a declaration are taken from its tokens, if they are among its words
and all outside its attributes are plain. -/
theorem parts_from_of_words {parts : Parts} {within block : List Token} {first : Token}
    (among : AttributesAmong parts.attributes within block) (plain : first.isPlain = true)
    (identifiers : ∀ name ∈ parts.identifiers, ⟨.identifier, name⟩ ∈ meaningful block)
    (names : ∀ name ∈ parts.names,
      ∃ token ∈ meaningful block, token.isName = true ∧ token.text = name)
    (source : ∀ literal ∈ parts.source, ∃ token ∈ meaningful block, token.kind = .string ∧
      literal = literalOf token.text)
    (plain : ∀ token ∈ meaningful block, token.isPlain = false → token ∈ within) :
    parts.From (first :: block) := by
  have inBlock {token : Token} (member : token ∈ meaningful block) : token ∈ first :: block :=
    .tail _ (List.mem_of_mem_filter member)
  constructor
  · exact fun name member => inBlock (identifiers name member)
  · intro name member
    rcases names name member with ⟨token, isToken, named⟩
    exact ⟨token, inBlock isToken, named⟩
  · intro literal isSource
    rcases source literal isSource with ⟨token, isToken, isLiteral⟩
    exact ⟨token, inBlock isToken, isLiteral⟩
  · intro text isText
    rcases among.present text isText with ⟨inner, isInner, isTokens, _⟩
    exact ⟨inner, isInner.trans (List.suffix_cons ..).isInfix, isTokens⟩
  · intro token member notPlain
    rcases List.mem_cons.mp member with rfl | inRest
    · simp [plain] at notPlain
    · have meaning : token.isTrivia = false := by
        obtain ⟨kind, text⟩ := token
        cases kind <;> first | rfl | simp [Token.isPlain, Token.isSign, Token.isPunct] at notPlain
      apply among.isPart
      exact plain token (List.mem_filter.mpr ⟨inRest, by simp [meaning]⟩) notPlain

/-- A string is plain. -/
theorem isPlain_of_isString {token : Token} (isString : token.kind = .string) :
    token.isPlain = true := by
  apply isPlain_of_isName
  simp [Token.isName, isString]

theorem ImportWords.parts {behind within tokens : List Token} {bare : BareImport}
    (words : ImportWords behind within bare tokens) :
    (∀ name ∈ bare.defaultName.toList ++ bare.namespaceName.toList,
        ⟨.identifier, name⟩ ∈ tokens) ∧
      (∀ name ∈ (bare.specifiers.map Specifier.names).getD [],
        ∃ token ∈ tokens, token.isName = true ∧ token.text = name) ∧
      (∃ token ∈ tokens, token.kind = .string ∧ bare.source = literalOf token.text) ∧
      ∀ token ∈ tokens, token.isPlain = false → token ∈ within := by
  cases words with
  | @bare source has ending isString hasAttributes ends =>
      refine ⟨by simp, by simp, ⟨source, by simp, isString, rfl⟩, fun token member notPlain => ?_⟩
      rcases List.mem_cons.mp member with rfl | inRest
      · simp [isPlain_of_isString isString] at notPlain
      · rcases List.mem_append.mp inRest with isWithin | inEnd
        · exact isWithin
        · simp [ends.isPlain token inEnd] at notPlain
  | @bindings kind defaultName namespaceName items source has clauses ending isClauses isString
      hasAttributes ends =>
      rcases isClauses.parts with ⟨identifiers, names, plain⟩
      refine ⟨fun name member => ?_, fun name member => ?_, ⟨source, by simp, isString, rfl⟩,
        fun token member notPlain => ?_⟩
      · exact List.mem_append_right _ (List.mem_append_left _ (identifiers name member))
      · rcases names name member with ⟨token, isToken, named⟩
        exact ⟨token, List.mem_append_right _ (List.mem_append_left _ isToken), named⟩
      · simp only [List.mem_append, List.mem_cons] at member
        rcases member with inKind | inClauses | rfl | rfl | isWithin | inEnd
        · simp [isPlain_of_mem_kind inKind] at notPlain
        · simp [plain token inClauses] at notPlain
        · cases notPlain
        · simp [isPlain_of_isString isString] at notPlain
        · exact isWithin
        · simp [ends.isPlain token inEnd] at notPlain

theorem ExportWords.parts {behind within tokens : List Token} {bare : BareExport}
    (words : ExportWords behind within bare tokens) :
    (∀ name ∈ Specifier.names bare.specifiers,
        ∃ token ∈ tokens, token.isName = true ∧ token.text = name) ∧
      (∀ literal ∈ bare.source, ∃ token ∈ tokens, token.kind = .string ∧
        literal = literalOf token.text) ∧
      ∀ token ∈ tokens, token.isPlain = false → token ∈ within := by
  cases words with
  | @own kind items list ending isList noSource noAttributes ends =>
      rcases isList.parts with ⟨names, plain⟩
      refine ⟨fun name member => ?_, by simp, fun token member notPlain => ?_⟩
      · rcases names name member with ⟨token, isToken, named⟩
        exact ⟨token, List.mem_append_right _ (.tail _ (List.mem_append_left _ isToken)), named⟩
      · simp only [List.mem_append, List.mem_cons] at member
        rcases member with inKind | rfl | inList | inEnd
        · simp [isPlain_of_mem_kind inKind] at notPlain
        · cases notPlain
        · simp [plain token inList] at notPlain
        · simp [ends.isPlain token inEnd] at notPlain
  | @reexport kind items source has list ending isList isString hasAttributes ends =>
      rcases isList.parts with ⟨names, plain⟩
      refine ⟨fun name member => ?_, ?_, fun token member notPlain => ?_⟩
      · rcases names name member with ⟨token, isToken, named⟩
        exact ⟨token, List.mem_append_right _ (.tail _ (List.mem_append_left _ isToken)), named⟩
      · rintro _ ⟨⟩
        exact ⟨source, by simp, isString, rfl⟩
      · simp only [List.mem_append, List.mem_cons] at member
        rcases member with inKind | rfl | inList | rfl | rfl | isWithin | inEnd
        · simp [isPlain_of_mem_kind inKind] at notPlain
        · cases notPlain
        · simp [plain token inList] at notPlain
        · cases notPlain
        · simp [isPlain_of_isString isString] at notPlain
        · exact isWithin
        · simp [ends.isPlain token inEnd] at notPlain

end Declaration

/-- The parts of a declaration. -/
def Node.parts? : Node → Option Parts
  | .importing declaration => some declaration.parts
  | .exporting declaration => some declaration.parts
  | _ => none

/-- The parts of a declaration are taken from its tokens. -/
theorem Node.Declares.parts_from {behind block : List Token} {node : Node}
    (declares : node.Declares behind block) :
    ∃ parts, node.parts? = some parts ∧ parts.From block := by
  cases declares with
  | @importing declaration block within covers words among =>
      rcases words.parts with ⟨identifiers, names, source, plain⟩
      refine ⟨_, rfl, Declaration.parts_from_of_words among rfl identifiers ?_ ?_ plain⟩
      · rwa [ImportDeclaration.bare, Option.map_map] at names
      · rintro _ ⟨⟩
        exact source
  | @exporting declaration block within covers words among =>
      rcases words.parts with ⟨names, source, plain⟩
      exact ⟨_, rfl, Declaration.parts_from_of_words among rfl (by
        simp [ExportDeclaration.parts]) names source plain⟩

/-- A declaration and what stands behind it. -/
theorem Outlined.declares_of_mem {openers : List Char} {nodes : List Node} {tokens : List Token}
    (outlined : Outlined openers nodes tokens) {node : Node} (member : node ∈ nodes)
    (isDeclaration : node.parts?.isSome = true) :
    ∃ block behind rest, block ++ behind <:+ tokens ∧ node.Declares (meaningful behind) block ∧
      Outlined [] rest behind := by
  induction outlined with
  | nil => cases member
  | trivia isTrivia covers more inductionHypothesis =>
      rcases List.mem_cons.mp member with rfl | later
      · cases covers with
        | trivia | comment | code => cases isDeclaration
        | importing solid | exporting solid =>
            rcases solid.starts with ⟨first, others, same, meaning⟩
            cases same
            simp [isTrivia] at meaning
      · rcases inductionHypothesis later with ⟨block, behind, rest, isSuffix, declares⟩
        exact ⟨block, behind, rest, isSuffix.trans (List.suffix_cons ..), declares⟩
  | code tracked more inductionHypothesis =>
      rcases List.mem_cons.mp member with rfl | later
      · cases isDeclaration
      · rcases inductionHypothesis later with ⟨block, behind, rest, isSuffix, declares⟩
        exact ⟨block, behind, rest, isSuffix.trans (List.suffix_append ..), declares⟩
  | declaration declares more inductionHypothesis =>
      rcases List.mem_cons.mp member with rfl | later
      · exact ⟨_, _, _, List.suffix_refl _, declares, more⟩
      · rcases inductionHypothesis later with ⟨block, behind, rest, isSuffix, declares⟩
        exact ⟨block, behind, rest, isSuffix.trans (List.suffix_append ..), declares⟩

end Deflow
