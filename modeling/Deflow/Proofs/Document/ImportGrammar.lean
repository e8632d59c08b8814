import Deflow.Proofs.Document.Extents
import Deflow.Proofs.Document.Reread

/-!
# The grammar of imports

An `import` is `import [type|typeof] Bindings from Module` or `import Module`, where `Bindings`
are a default name, a namespace, a list, or a default name, a comma and one of the others.  The
parser reads all of these, and it also reads a default name without the comma, which the
grammar does not have.
-/

namespace Deflow

open Script

/-! ## Phrases -/

/-- The words `[type|typeof] name [as name]`. -/
inductive SpecifierPhrase : Specifier → List Token → Prop
  | plain {kind : BindingKind} {name : Token} (isName : name.isName = true) :
      SpecifierPhrase { kind, name := name.text } (kind.words ++ [name])
  | renamed {kind : BindingKind} {name new : Token} (isName : name.isName = true)
      (isNew : new.isName = true) :
      SpecifierPhrase { kind, name := name.text, renamed := some new.text }
        (kind.words ++ [name, .word "as", new])

/-- The words of a namespace, or of a list in braces with or without a comma behind its last
binding. -/
inductive ClausePhrase : Option Text → Option (List Specifier) → List Token → Prop
  | star {name : Token} (isIdentifier : name.kind = .identifier) :
      ClausePhrase (some name.text) none [.punct '*', .word "as", name]
  | list {items : List Specifier} {runs : List (List Token)} {tokens : List Token}
      (separated : Declaration.Separated runs tokens)
      (bindings : List.Forall₂ SpecifierPhrase items runs) :
      ClausePhrase none (some items) (.punct '\x7b' :: tokens)

/-- The words of a default name, a namespace and a list. -/
inductive BindingsPhrase :
    Option Text → Option Text → Option (List Specifier) → List Token → Prop
  | default {name : Token} (isIdentifier : name.kind = .identifier) :
      BindingsPhrase (some name.text) none none [name]
  | clause {namespaceName : Option Text} {items : Option (List Specifier)} {tokens : List Token}
      (clause : ClausePhrase namespaceName items tokens) :
      BindingsPhrase none namespaceName items tokens
  | both {name : Token} {namespaceName : Option Text} {items : Option (List Specifier)}
      {tokens : List Token} (isIdentifier : name.kind = .identifier)
      (clause : ClausePhrase namespaceName items tokens) :
      BindingsPhrase (some name.text) namespaceName items (name :: .punct ',' :: tokens)

/-- The words `[with|assert { ... }]`. -/
inductive AttributesPhrase : Bool → List Token → Prop
  | absent : AttributesPhrase false []
  | present {first : Token} {inside : List Token}
      (isWord : first = .word "with" ∨ first = .word "assert")
      (inner : ∀ token ∈ inside, token ≠ .punct '\x7d') :
      AttributesPhrase true (first :: .punct '\x7b' :: (inside ++ [.punct '\x7d']))

/-- The words of a module name, of its attributes, and a semicolon or none. -/
inductive ModulePhrase : StringLiteral → Bool → List Token → Prop
  | mk {source : Token} {has : Bool} {attributes ending : List Token}
      (isString : source.kind = .string) (isAttributes : AttributesPhrase has attributes)
      (ends : ending = [] ∨ ending = [.punct ';']) :
      ModulePhrase (Declaration.literalOf source.text) has (source :: (attributes ++ ending))

/-- The words of an `import`. -/
inductive ImportPhrase : BareImport → List Token → Prop
  | bare {source : StringLiteral} {has : Bool} {tokens : List Token}
      (isModule : ModulePhrase source has tokens) :
      ImportPhrase ⟨.value, none, none, none, source, has⟩ (.word "import" :: tokens)
  | bindings {kind : BindingKind} {defaultName namespaceName : Option Text}
      {items : Option (List Specifier)} {source : StringLiteral} {has : Bool}
      {bindings tokens : List Token}
      (isBindings : BindingsPhrase defaultName namespaceName items bindings)
      (isModule : ModulePhrase source has tokens) :
      ImportPhrase ⟨kind, defaultName, namespaceName, items, source, has⟩
        (.word "import" :: (kind.words ++ (bindings ++ .word "from" :: tokens)))

/-- A comma behind the default name would make the words those of an `import`. -/
def LacksComma (bare : BareImport) (tokens : List Token) : Prop :=
  ∃ name rest, tokens = .word "import" :: (bare.kind.words ++ name :: rest) ∧
    bare.defaultName = some name.text ∧
    ImportPhrase bare (.word "import" :: (bare.kind.words ++ name :: .punct ',' :: rest))

/-! ## Phrases and words -/

theorem Declaration.BindingWords.phrase {item : Specifier} {tokens : List Token}
    (binding : BindingWords item tokens) : SpecifierPhrase item tokens := by
  cases binding with
  | plain isName => exact .plain isName
  | renamed isName isNew => exact .renamed isName isNew

theorem Declaration.SecondWords.phrase {namespaceName : Option Text}
    {items : Option (List Specifier)} {tokens : List Token}
    (second : SecondWords namespaceName items tokens) :
    ClausePhrase namespaceName items tokens := by
  cases second with
  | star isIdentifier => exact .star isIdentifier
  | list list =>
      rcases listWords_iff.mp list with ⟨runs, separated, bindings⟩
      exact .list separated (bindings.imp fun _ _ => BindingWords.phrase)

theorem Declaration.AttributeWords.phrase {behind tokens : List Token} {has : Bool}
    (attributes : AttributeWords behind has tokens) : AttributesPhrase has tokens := by
  cases attributes with
  | absent => exact .absent
  | present isWord inner => exact .present isWord inner

theorem Declaration.EndWords.eq_nil_or {behind tokens : List Token}
    (ends : EndWords behind tokens) : tokens = [] ∨ tokens = [.punct ';'] := by
  cases ends with
  | absent => exact .inl rfl
  | semicolon => exact .inr rfl

/-- A namespace begins with a star, and a list with a brace. -/
theorem ClausePhrase.starts {namespaceName : Option Text} {items : Option (List Specifier)}
    {tokens : List Token} (clause : ClausePhrase namespaceName items tokens) :
    ∃ sign more, tokens = sign :: more ∧ (sign = .punct '*' ∨ sign = .punct '\x7b') := by
  cases clause with
  | star => exact ⟨_, _, rfl, .inl rfl⟩
  | list => exact ⟨_, _, rfl, .inr rfl⟩

/-- Behind a default name stands a comma, or `from` and a string. -/
theorem BindingsPhrase.front {defaultName namespaceName : Option Text}
    {items : Option (List Specifier)} {bindings tokens : List Token} {source : StringLiteral}
    {has : Bool} (isBindings : BindingsPhrase defaultName namespaceName items bindings)
    (isModule : ModulePhrase source has tokens) {first second : Token} {more : List Token}
    (isFront : bindings ++ .word "from" :: tokens = first :: second :: more)
    (isIdentifier : first.kind = .identifier) :
    second = .punct ',' ∨
      second = .word "from" ∧ ∃ third rest, more = third :: rest ∧ third.kind = .string := by
  cases isBindings with
  | default =>
      cases isModule with
      | mk isString =>
          cases isFront
          exact .inr ⟨rfl, _, _, rfl, isString⟩
  | clause clause =>
      rcases clause.starts with ⟨sign, others, rfl, rfl | rfl⟩
      all_goals
        rcases List.cons.inj isFront with ⟨rfl, _⟩
        cases isIdentifier
  | both =>
      cases isFront
      exact .inl rfl

/-- Where words go on behind two kinds, the kinds are the same or one is a word of the rest. -/
theorem BindingKind.words_append_eq {kind other : BindingKind} {rest otherRest : List Token}
    (same : kind.words ++ rest = other.words ++ otherRest) :
    (kind = other ∧ rest = otherRest) ∨
      (∃ word, rest = word :: otherRest ∧ kind = .value ∧ word.announced? = some other) ∨
      ∃ word, otherRest = word :: rest ∧ other = .value ∧ word.announced? = some kind := by
  cases kind <;> cases other <;> simp [BindingKind.words] at same
  case value.value | type.type | typeof.typeof => exact .inl ⟨rfl, same⟩
  case value.type | value.typeof => exact .inr (.inl ⟨_, same, rfl, by decide⟩)
  case type.value | typeof.value => exact .inr (.inr ⟨_, same.symm, rfl, by decide⟩)
  case type.typeof | typeof.type => exact absurd same.1 (by decide)

/-- No phrase has a star or a brace right behind a default name. -/
theorem not_importPhrase_of_sign {kind : BindingKind} {name sign : Token} {bare : BareImport}
    (isIdentifier : name.kind = .identifier)
    (clear : kind = .value → name.announced? ≠ some bare.kind)
    (isSign : sign = .punct '*' ∨ sign = .punct '\x7b') (more : List Token) :
    ¬ImportPhrase bare (.word "import" :: (kind.words ++ name :: sign :: more)) := by
  intro phrase
  generalize isTokens : kind.words ++ name :: sign :: more = tokens at phrase
  cases phrase with
  | bare isModule =>
      cases isModule with
      | mk isString =>
          cases kind with
          | value =>
              rcases List.cons.inj isTokens with ⟨rfl, _⟩
              rw [isIdentifier] at isString
              cases isString
          | type | typeof =>
              rcases List.cons.inj isTokens with ⟨rfl, _⟩
              cases isString
  | @bindings otherKind _ _ _ _ _ _ _ isBindings isModule =>
      -- The other phrase may take the default name for a kind, or the kind for a default name.
      rcases BindingKind.words_append_eq isTokens with
        ⟨_, isRest⟩ | ⟨word, isRest, isValue, announced⟩ | ⟨word, isRest, _, announced⟩
      · rcases isBindings.front isModule isRest.symm isIdentifier with rfl | ⟨rfl, _⟩
        all_goals simp [Token.punct, Token.word] at isSign
      · rcases List.cons.inj isRest with ⟨rfl, _⟩
        exact clear isValue announced
      · have wordIdentifier : word.kind = .identifier := by
          by_contra other
          simp [Token.announced?, other] at announced
        rcases isBindings.front isModule isRest wordIdentifier with
          rfl | ⟨rfl, third, rest, same, isString⟩
        · cases isIdentifier
        · cases same
          rcases isSign with rfl | rfl <;> cases isString

/-- The sign of a second clause stands right behind a default name that lacks its comma. -/
theorem LacksComma.sign {bare : BareImport} {tokens : List Token}
    (lacks : LacksComma bare tokens) :
    ∃ name sign more, tokens = .word "import" :: (bare.kind.words ++ name :: sign :: more) ∧
      name.kind = .identifier ∧ (sign = .punct '*' ∨ sign = .punct '\x7b') := by
  rcases lacks with ⟨name, rest, rfl, isDefault, phrase⟩
  generalize isTokens : bare.kind.words ++ name :: .punct ',' :: rest = tokens at phrase
  cases phrase with
  | bare => cases isDefault
  | bindings isBindings isModule =>
      have isRest := List.append_cancel_left isTokens
      cases isBindings with
      | default =>
          rcases List.cons.inj (List.cons.inj isRest).2 with ⟨isComma, _⟩
          cases isComma
      | clause => cases isDefault
      | both isIdentifier clause =>
          rcases clause.starts with ⟨sign, more, rfl, isSign⟩
          cases isRest
          exact ⟨name, sign, _, rfl, isIdentifier, isSign⟩

/-- The words of a phrase lack no comma. -/
theorem ImportPhrase.not_lacksComma {bare : BareImport} {tokens : List Token}
    (phrase : ImportPhrase bare tokens) : ¬LacksComma bare tokens := by
  intro lacks
  rcases lacks.sign with ⟨name, sign, more, rfl, isIdentifier, isSign⟩
  refine not_importPhrase_of_sign isIdentifier ?_ isSign more phrase
  intro isValue announced
  exact (words_of_announced? announced).1 isValue

/-- The words of an `import` are a phrase, or they lack a comma and are none. -/
theorem Declaration.ImportWords.phrase {behind within tokens : List Token} {bare : BareImport}
    (words : ImportWords behind within bare tokens) :
    ImportPhrase bare (.word "import" :: tokens) ∨
      LacksComma bare (.word "import" :: tokens) ∧
        ∀ other, ¬ImportPhrase other (.word "import" :: tokens) := by
  cases words with
  | bare isString attributes ends =>
      exact .inl (.bare (.mk isString attributes.phrase ends.eq_nil_or))
  | bindings isClauses isString attributes ends =>
      have isModule := ModulePhrase.mk isString attributes.phrase ends.eq_nil_or
      cases isClauses with
      | default isIdentifier => exact .inl (.bindings (.default isIdentifier) isModule)
      | second second => exact .inl (.bindings (.clause second.phrase) isModule)
      | both isIdentifier second =>
          exact .inl (.bindings (.both isIdentifier second.phrase) isModule)
      | adjoined isIdentifier clear second =>
          refine .inr ⟨⟨_, _, rfl, rfl, .bindings (.both isIdentifier second.phrase) isModule⟩, ?_⟩
          intro other
          rcases second.phrase.starts with ⟨sign, more, rfl, isSign⟩
          refine not_importPhrase_of_sign isIdentifier ?_ isSign _
          intro isValue announced
          rw [clear isValue] at announced
          cases announced

/-! ## Imports of a document -/

/-- The words of an `import` that was read are a phrase for what was read, unless its default
name lacks the comma.  In that case they are no phrase at all. -/
theorem importPhrase_of_parse {source : Text} {document : Document} {tokens : List Token}
    (parsed : Document.parse source = .ok document) (scanned : tokenize source = .ok tokens) :
    (∀ declaration start finish, ⟨.importing declaration, start, finish⟩ ∈ document.extents →
      ∃ front block behind, tokens = front ++ (block ++ behind) ∧
        start = (Token.spell front).byteLength ∧
        finish = start + (Token.spell block).byteLength ∧
        declaration.written = some (Token.spell block) ∧
        (¬LacksComma declaration.bare (meaningful block) →
          ImportPhrase declaration.bare (meaningful block)) ∧
        (LacksComma declaration.bare (meaningful block) →
          ∀ bare, ¬ImportPhrase bare (meaningful block))) ∧
    document.extents.map Extent.node = document.nodes.filter Node.isDeclaration := by
  refine ⟨?_, map_node_extents ..⟩
  intro declaration start finish member
  rcases (outlined_of_parse parsed scanned).declares_of_extent member with
    ⟨front, block, behind, rfl, starts, ends, declares⟩
  refine ⟨front, block, behind, rfl, by simpa using starts, ends, declares.covers.written?_eq, ?_⟩
  cases declares with
  | importing covers words =>
      rcases words.phrase with phrase | ⟨lacks, noPhrase⟩
      · exact ⟨fun _ => phrase, fun lacks => absurd lacks phrase.not_lacksComma⟩
      · exact ⟨fun comma => absurd lacks comma, fun _ => noPhrase⟩

/-- The kind of an `import`, a list with a comma behind its last binding, and attributes. -/
theorem importPhrase_of_parse_list :
    let source : Text := "import type \x7ba as b,\x7d from 'c' with \x7bd: 'e'\x7d;".toList
    ∃ tokens document declaration block,
      tokenize source = .ok tokens ∧
      Document.parse source = .ok document ∧
      document.nodes = [.importing declaration] ∧ block <:+: tokens ∧
      Token.spell block = source ∧
      ImportPhrase ⟨.type, none, none, some [⟨.value, ['a'], some ['b']⟩], ⟨'\'', ['c']⟩, true⟩
        (meaningful block) := by
  intro source
  have parsed : Document.parse source =
      .ok { nodes := [.importing
        { kind := .type
          specifiers := some ⟨[⟨.value, ['a'], some ['b']⟩], false⟩
          source := ⟨'\'', ['c']⟩
          attributes := some "with \x7bd: 'e'\x7d".toList
          written := some source }] } := by
    decide +kernel
  rcases standing_of_parse parsed with ⟨tokens, scanned, _⟩
  rcases (importPhrase_of_parse parsed scanned).1 _ _ _ (List.mem_cons_self ..) with
    ⟨front, block, behind, split, _, _, written, phrase, _⟩
  refine ⟨tokens, _, _, block, scanned, parsed, rfl, ⟨front, behind, by simp [split]⟩,
    (Option.some.inj written).symm, phrase ?_⟩
  rintro ⟨_, _, _, isDefault, _⟩
  cases isDefault

/-- A namespace right behind a default name is read, and the grammar does not have it. -/
theorem importPhrase_of_parse_adjoined :
    let source : Text := "import a * as b from 'x';".toList
    ∃ tokens declaration, tokenize source = .ok tokens ∧
      Document.parse source = .ok ⟨[.importing declaration]⟩ ∧
      declaration.written = some (Token.spell tokens) ∧
      ∀ bare, ¬ImportPhrase bare (meaningful tokens) := by
  intro source
  have scanned : tokenize source = .ok [.word "import",
      ⟨.whitespace, [' ']⟩, ⟨.identifier, ['a']⟩, ⟨.whitespace, [' ']⟩, .punct '*',
      ⟨.whitespace, [' ']⟩, .word "as", ⟨.whitespace, [' ']⟩, ⟨.identifier, ['b']⟩,
      ⟨.whitespace, [' ']⟩, .word "from", ⟨.whitespace, [' ']⟩, ⟨.string, "'x'".toList⟩,
      .punct ';'] := by
    decide +kernel
  have parsed : Document.parse source = .ok ⟨[.importing
      { defaultName := some ['a']
        namespaceName := some ['b']
        source := ⟨'\'', ['x']⟩
        written := some source }]⟩ := by
    decide +kernel
  refine ⟨_, _, scanned, parsed, rfl, ?_⟩
  intro bare
  exact @not_importPhrase_of_sign .value ⟨.identifier, ['a']⟩ _ bare rfl (by simp [Token.announced?,
    BindingKind.ofKeyword?]) (.inl rfl) _

end Deflow
