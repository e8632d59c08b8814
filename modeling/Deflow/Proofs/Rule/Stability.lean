import Deflow.Proofs.Document.DrawnWords
import Deflow.Proofs.Rule.Comments
import Deflow.Proofs.Rule.ExportMeaning

/-!
# Running the standard pipeline once is enough

The words around a changed declaration are passed as before, and the declaration that is
drawn in its place is taken as one of values.  So the text that the standard pipeline writes
has the declarations of the source text, all of values now, and a second run leaves it as it
is.  The exception is a binding that cannot be read without its kind.
-/

namespace Deflow

open Script Spaced

/-! ## What declarations are written as -/

/-- Whether a node is an `export` with a binding that cannot be read without its kind. -/
def Node.isMistaken : Node → Bool
  | .exporting declaration => declaration.specifiers.items.any Specifier.isMistaken
  | _ => false

/-- The declaration that a node is written as, without its layout. -/
def Node.rewritten? (options : PrintOptions) (node : Node) : Option (BareImport ⊕ BareExport) :=
  if node.isChanged then
    node.normalize.bare?.map (Sum.map (·.requote options.quote) (·.requote options.quote))
  else node.bare?

/-- The words of a node, in front of others, are taken as the declaration that it is written
as, unless it is mistaken. -/
def TakenAs (options : PrintOptions) (node : Node) (tokens rest : List Token) : Prop :=
  ∀ declarations, ModuleWords [] false declarations (tokens ++ rest) ↔
    node.isMistaken = false ∧ ∃ declaration more, node.rewritten? options = some declaration ∧
      declarations = declaration :: more ∧ ModuleWords [] false more rest

theorem DeclarationWords.takenAs {options : PrintOptions} {node : Node} {tokens rest : List Token}
    {declaration : BareImport ⊕ BareExport} (isWords : DeclarationWords rest declaration tokens)
    (clear : node.isMistaken = false) (isRewritten : node.rewritten? options = some declaration) :
    TakenAs options node tokens rest := by
  intro declarations
  rw [isWords.moduleWords_iff]
  constructor
  · rintro ⟨more, isMore, isModule⟩
    exact ⟨clear, declaration, more, isRewritten, isMore, isModule⟩
  · rintro ⟨_, other, more, isOther, isMore, isModule⟩
    rw [isRewritten] at isOther
    cases isOther
    exact ⟨more, isMore, isModule⟩

/-- A binding that was read as a value is not mistaken. -/
theorem Declaration.BindingWords.isMistaken_eq_false {item : Specifier} {tokens : List Token}
    (binding : BindingWords item tokens) (isValue : item.kind = .value)
    (names : ∀ token ∈ tokens, token.isName = true → Token.ofName token.text = token) :
    item.isMistaken = false := by
  by_contra mistaken
  have same : item.toValue = item := by rw [Specifier.toValue, ← isValue]
  have drawn := binding.drawn names
  rw [← same] at drawn
  exact not_bindingWords_toValue (by simpa using mistaken) drawn

/-- A declaration that the rules leave is not mistaken. -/
theorem Node.Declares.isMistaken_eq_false {behind block : List Token} {node : Node}
    (declares : node.Declares behind block) (unchanged : node.isChanged = false)
    (names : ∀ token ∈ block, token.isName = true → Token.ofName token.text = token) :
    node.isMistaken = false := by
  have wasWritten : node.written?.isSome = true := by rw [declares.covers.written?_eq]; rfl
  rw [Node.isChanged, Option.isNone_eq_false_iff] at unchanged
  cases declares with
  | importing => rfl
  | @exporting declaration block within covers words =>
      have normalized := ExportDeclaration.normalized wasWritten
      have values := normalized.values
      rw [normalized.eq_old unchanged] at values
      refine List.any_eq_false.mpr fun item member => ?_
      rcases words.exists_of_mem item member with ⟨tokens, inside, binding⟩
      have clear := binding.isMistaken_eq_false (values item member) fun token isToken isName =>
        names token (.tail _ (List.mem_of_mem_filter (inside isToken))) isName
      simp [clear]

/-- The words of an `export` are those of its kind, of its list and of the rest. -/
theorem Declaration.ExportWords.exists_list {behind within block : List Token} {bare : BareExport}
    (isWords : ExportWords behind within bare block) :
    ∃ (kind : BindingKind) (list more : List Token),
      block = kind.words ++ .punct '\x7b' :: (list ++ more) ∧ ListWords bare.specifiers list := by
  cases isWords with
  | own isList | reexport isList => exact ⟨_, _, _, rfl, isList⟩

/-- The words of a list with a mistaken binding are taken as nothing. -/
theorem not_moduleWords_of_mistaken {items : List Specifier} {tokens rest : List Token}
    (separated : Declaration.Separated ((items.map Specifier.drawn).map meaningful) tokens)
    {item : Specifier} (member : item.toValue ∈ items) (mistaken : item.isMistaken = true)
    (declarations : List (BareImport ⊕ BareExport)) :
    ¬ModuleWords [] false declarations (.word "export" :: .punct '\x7b' :: (tokens ++ rest)) := by
  intro isModule
  generalize isAll : Token.word "export" :: .punct '\x7b' :: (tokens ++ rest) = all at isModule
  cases isModule with
  | nil => cases isAll
  | code plain =>
      cases isAll
      exact plain ⟨⟨rfl, rfl⟩, .inr ⟨rfl, .value, _, rfl⟩⟩
  | @declaration _ _ _ behind isWords more =>
      cases isWords with
      | importing => exact absurd (List.cons.inj isAll).1 (by decide)
      | exporting isWords =>
          rcases isWords.exists_list with ⟨kind, list, others, rfl, isList⟩
          have isRest := (List.cons.inj isAll).2
          cases kind with
          | value =>
              have same : tokens ++ rest = list ++ (others ++ behind) := by
                simpa [BindingKind.words] using isRest
              exact Declaration.not_listWords_of_mistaken separated member mistaken same isList
          | type | typeof => exact absurd (List.cons.inj isRest).1 (by decide)

/-! ## Declarations that are drawn anew -/

/-- Tokens are drawn in place of those of a declaration that the rules change.  They begin
with the same word, and they are taken as what the declaration is written as. -/
structure Rewrites (options : PrintOptions) (lineEnd : Text) (node : Node)
    (block new : List Token) : Prop where
  renews : Renews (node.normalize.renewed options lineEnd) block new
  alike : ∀ old behind, Alike (meaningful block ++ old) (meaningful new ++ behind)
  takenAs : ∀ rest, TakenAs options node (meaningful new) rest

section

variable {options : PrintOptions} {lineEnd : Text} (isEnd : IsLineEnd lineEnd)
  (isQuote : options.quote = '"' ∨ options.quote = '\'') {behind block within : List Token}
  (sound : ∀ token ∈ block, token.Sound)
  (names : ∀ token ∈ block, token.isName = true → Token.ofName token.text = token)

include sound

/-- The attributes of a declaration can be drawn again. -/
theorem Node.Declares.exists_copy {node : Node} (declares : node.Declares behind block)
    {parts : Parts} (isParts : node.parts? = some parts)
    (noSlash : ∀ text ∈ parts.attributes, '/' ∉ text) :
    ∃ attributes, IsAttributes parts.attributes attributes ∧
      (∀ rest changed, Freestanding rest block → Freestanding changed attributes) ∧
      Declaration.AttributeWords [.punct ';'] parts.attributes.isSome (meaningful attributes) := by
  cases declares with
  | importing covers words among | exporting covers words among =>
      cases isParts
      rcases among.exists_copy words.exists_attributes
        (fun token member => (sound token (.tail _ member)).lexeme) noSlash with
        ⟨attributes, isAttributes, free, isWords⟩
      exact ⟨attributes, isAttributes, fun rest changed freeBlock => free rest changed freeBlock.2,
        isWords⟩

include isEnd isQuote

include names in
/-- An `import` that loses its kind or pragmas is drawn and taken as one of values. -/
theorem ImportDeclaration.exists_rewrites {declaration : ImportDeclaration}
    (declares : (Node.importing declaration).Declares behind block)
    (changed : (Node.importing declaration).isChanged = true)
    (noSlash : ∀ parts ∈ (Node.importing declaration).parts?,
      ∀ text ∈ parts.attributes, '/' ∉ text) :
    ∃ new, Rewrites options lineEnd (.importing declaration) block new := by
  have wasWritten : declaration.written.isSome = true := by
    rw [← Node.written?, declares.covers.written?_eq]
    rfl
  have normalized := ImportDeclaration.normalized wasWritten
  have isNormal : (Node.importing declaration).normalize =
      .importing ((declaration.dropComments Comment.isPragma).setKind .value) := rfl
  generalize (declaration.dropComments Comment.isPragma).setKind .value = new at normalized isNormal
  have comments := declares.interior_subset
  have isRewritten : (Node.importing declaration).rewritten? options =
      some (.inl (new.bare.requote options.quote)) := by
    rw [Node.rewritten?, if_pos changed, isNormal]
    rfl
  rw [Node.isChanged, isNormal] at changed
  rcases declares.parts_from with ⟨parts, isParts, taken⟩
  rcases declares.exists_copy sound isParts (noSlash parts isParts) with
    ⟨attributes, isAttributes, free, attributeWords⟩
  rw [← Node.parts?_normalize, isNormal] at isParts
  cases isParts
  rcases declares with ⟨_, words, _, _⟩
  refine ⟨new.drawn options lineEnd attributes, ?_, ?_, fun rest => ?_⟩
  · rw [isNormal] at comments ⊢
    exact ImportDeclaration.renews isEnd isQuote (fun token member => (sound token member).lexeme)
      (Option.isNone_iff_eq_none.mp changed) taken comments isAttributes free
  · intro old behind
    rw [ImportDeclaration.meaningful_drawn]
    exact .declaration (.inl rfl)
  · rcases words.binds with ⟨single, _, bindings⟩
    refine DeclarationWords.takenAs ?_ rfl isRewritten
    refine ImportDeclaration.declarationWords_drawn ?_ (fun _ => normalized.kind) ?_
      attributeWords rest
    · rw [normalized.namespaceName, normalized.specifiers]
      simpa [ImportDeclaration.bare] using single
    · intro list isList item member
      rw [normalized.specifiers] at isList
      rcases bindings list.items (Option.mem_map_of_mem _ isList) item member with
        ⟨tokens, inside, binding⟩
      exact binding.drawn fun token isToken =>
        names token (.tail _ (List.mem_of_mem_filter (inside isToken)))

/-- An `export` that loses kinds or pragmas is drawn, and taken as one of values if it is not
mistaken. -/
theorem ExportDeclaration.exists_rewrites {declaration : ExportDeclaration}
    (declares : (Node.exporting declaration).Declares behind block)
    (changed : (Node.exporting declaration).isChanged = true)
    (noSlash : ∀ parts ∈ (Node.exporting declaration).parts?,
      ∀ text ∈ parts.attributes, '/' ∉ text) :
    ∃ new, Rewrites options lineEnd (.exporting declaration) block new := by
  have wasWritten : declaration.written.isSome = true := by
    rw [← Node.written?, declares.covers.written?_eq]
    rfl
  have normalized := ExportDeclaration.normalized wasWritten
  have isNormal : (Node.exporting declaration).normalize =
      .exporting (declaration.dropComments Comment.isPragma).toValues := rfl
  have isItems : (declaration.dropComments Comment.isPragma).toValues.specifiers.items =
      declaration.specifiers.items.map Specifier.toValue := by
    rw [ExportDeclaration.toValues_eq, ExportDeclaration.dropComments_eq]
    rfl
  generalize (declaration.dropComments Comment.isPragma).toValues = new
    at normalized isNormal isItems
  have comments := declares.interior_subset
  have isRewritten : (Node.exporting declaration).rewritten? options =
      some (.inr (new.bare.requote options.quote)) := by
    rw [Node.rewritten?, if_pos changed, isNormal]
    rfl
  rw [Node.isChanged, isNormal] at changed
  rcases declares.parts_from with ⟨parts, isParts, taken⟩
  rcases declares.exists_copy sound isParts (noSlash parts isParts) with
    ⟨attributes, isAttributes, free, attributeWords⟩
  rw [← Node.parts?_normalize, isNormal] at isParts
  cases isParts
  rcases declares with _ | ⟨_, words, _, _⟩
  refine ⟨new.drawn options lineEnd attributes, ?_, ?_, fun rest => ?_⟩
  · rw [isNormal] at comments ⊢
    exact ExportDeclaration.renews isEnd isQuote (fun token member => (sound token member).lexeme)
      (Option.isNone_iff_eq_none.mp changed) taken comments isAttributes free
  · intro old behind
    rw [ExportDeclaration.meaningful_drawn]
    exact .declaration (.inr rfl)
  · cases mistaken : (Node.exporting declaration).isMistaken with
    | false =>
        refine DeclarationWords.takenAs ?_ mistaken isRewritten
        refine ExportDeclaration.declarationWords_drawn ?_ ?_ attributeWords rest
        · rw [normalized.source, normalized.attributes]
          intro noSource
          simpa [ExportDeclaration.bare] using words.noAttributes noSource
        · rw [isItems]
          refine List.forall_mem_map.mpr fun item member => ?_
          have clear := List.any_eq_false.mp mistaken item member
          exact Declaration.bindingWords_toValue (by simpa using clear)
    | true =>
        rcases List.any_eq_true.mp mistaken with ⟨item, member, isMistaken⟩
        have isValue : item.toValue ∈ new.specifiers.items := by
          rw [isItems]
          exact List.mem_map_of_mem member
        have separated := Declaration.separated_drawnInside new.specifiers options lineEnd
          (new.fits options attributes)
        intro declarations
        refine iff_of_false (fun isModule => ?_) (by simp [mistaken])
        rw [ExportDeclaration.meaningful_drawn, normalized.kind] at isModule
        simp only [BindingKind.words, List.nil_append, List.cons_append,
          List.append_assoc] at isModule
        exact not_moduleWords_of_mistaken separated isValue isMistaken declarations isModule

include names in
/-- A declaration that the rules change is drawn and taken as what it is written as. -/
theorem Node.Declares.exists_rewrites {node : Node} (declares : node.Declares behind block)
    (changed : node.isChanged = true) (attributes : node.PlainAttributes) :
    ∃ new, Rewrites options lineEnd node block new := by
  have noSlash : ∀ parts ∈ node.parts?, ∀ text ∈ parts.attributes, '/' ∉ text :=
    fun parts isParts text isText => ((attributes parts isParts text isText).2 changed).1
  cases node with
  | importing declaration =>
      exact ImportDeclaration.exists_rewrites isEnd isQuote sound names declares changed noSlash
  | exporting declaration =>
      exact ExportDeclaration.exists_rewrites isEnd isQuote sound declares changed noSlash
  | trivia | comment | code => cases declares

end

/-! ## Drawn tokens as words -/

theorem Node.isMistaken_eq_false {node : Node} (noDeclaration : node.isDeclaration = false) :
    node.isMistaken = false := by
  cases node with
  | trivia | comment | code => rfl
  | importing | exporting => cases noDeclaration

theorem Node.rewritten?_eq_none {node : Node} (noDeclaration : node.isDeclaration = false)
    (options : PrintOptions) : node.rewritten? options = none := by
  cases node with
  | trivia | comment | code => rfl
  | importing | exporting => cases noDeclaration

theorem Node.plainAttributes_of_noDeclaration {node : Node}
    (noDeclaration : node.isDeclaration = false) : node.PlainAttributes := by
  cases node with
  | trivia | comment | code => rintro _ ⟨⟩
  | importing | exporting => cases noDeclaration

theorem covers_code_singleton {token : Token} (meaning : token.isTrivia = false) :
    (Node.code token.text).Covers [token] :=
  covers_code_iff.mpr ⟨.singleton meaning, by simp [commentsOf, comment?_eq_none meaning], by simp⟩

/-- Tokens are drawn, and their words make a module of what the declarations among the nodes
are written as, unless one of these is mistaken. -/
structure Rewritten (options : PrintOptions) (lineEnd : Text) (openers : List Char) (dotted : Bool)
    (nodes : List Node) (tokens drawn : List Token) : Prop
    extends DrawnAs options lineEnd openers nodes tokens drawn where
  alike : Alike (meaningful tokens) (meaningful drawn)
  moduleWords_iff : ∀ declarations, ModuleWords openers dotted declarations (meaningful drawn) ↔
    (∀ node ∈ nodes, node.isMistaken = false) ∧
      declarations = nodes.filterMap (Node.rewritten? options)

section

variable {options : PrintOptions} {lineEnd : Text} {openers behind : List Char} {dotted : Bool}
  {node : Node} {nodes : List Node} {token : Token} {block tokens drawn : List Token}

theorem Rewritten.nil : Rewritten options lineEnd [] dotted [] [] [] := by
  refine ⟨⟨.nil, .nil⟩, .nil, fun declarations => ?_⟩
  constructor
  · intro isModule
    generalize isEmpty : meaningful [] = tokens at isModule
    cases isModule with
    | nil => exact ⟨by simp, rfl⟩
    | code => cases isEmpty
    | declaration isWords =>
        rcases isWords.begins with ⟨word, more, rfl, _⟩
        cases isEmpty
  · rintro ⟨_, rfl⟩
    exact .nil

/-- White space or a comment, in front of others. -/
theorem Rewritten.trivia (others : Rewritten options lineEnd openers dotted nodes tokens drawn)
    (isTrivia : token.isTrivia = true) (covers : node.Covers [token])
    (stay : AllStay (Token.spell tokens) (redrawnText options lineEnd nodes) [token]) :
    Rewritten options lineEnd openers dotted (node :: nodes) (token :: tokens)
      (token :: drawn) := by
  have noDeclaration := covers.noDeclaration_of_trivia isTrivia
  have skip (tokens : List Token) : meaningful (token :: tokens) = meaningful tokens :=
    List.filter_cons_of_neg (by simp [isTrivia])
  refine ⟨others.keepTrivia isTrivia covers stay, ?_, fun declarations => ?_⟩
  · rw [skip, skip]
    exact others.alike
  · rw [skip, others.moduleWords_iff, List.forall_mem_cons, List.filterMap_cons,
      Node.rewritten?_eq_none noDeclaration]
    simp [Node.isMistaken_eq_false noDeclaration]

/-- A word of code, in front of others. -/
theorem Rewritten.code
    (others : Rewritten options lineEnd behind (token.isPunct '.') nodes tokens drawn)
    (meaning : token.isTrivia = false)
    (plain : ¬(AtModuleLevel openers dotted ∧ Begins token (meaningful tokens)))
    (tracked : token.track? openers = some behind)
    (stay : AllStay (Token.spell tokens) (redrawnText options lineEnd nodes) [token]) :
    Rewritten options lineEnd openers dotted (.code token.text :: nodes) (token :: tokens)
      (token :: drawn) := by
  have covers := covers_code_singleton meaning
  have trackedAll : trackAll? openers [token] = some behind := by
    rw [trackAll?_cons, tracked]
    rfl
  refine ⟨others.keep covers rfl trackedAll stay, ?_, fun declarations => ?_⟩
  · rw [meaningful_cons meaning, meaningful_cons meaning]
    exact .cons others.alike.head?_eq
  · rw [others.alike.begins_iff] at plain
    rw [meaningful_cons meaning, moduleWords_code_iff plain]
    simp [tracked, others.moduleWords_iff, Node.isMistaken, Node.rewritten?, Node.isChanged,
      Node.normalize, Node.mapDeclaration, Node.written?, Node.bare?]

theorem Node.Declares.exists_rewritten? {behind : List Token}
    (declares : node.Declares behind block)
    (options : PrintOptions) : ∃ declaration, node.rewritten? options = some declaration := by
  unfold Node.rewritten?
  cases declares with
  | importing | exporting => split <;> exact ⟨_, rfl⟩

/-- A declaration that is taken as what it is written as, in front of others. -/
theorem Rewritten.declaration (others : Rewritten options lineEnd [] false nodes tokens drawn)
    (declares : node.Declares (meaningful tokens) block) {new : List Token}
    (drawnAs : DrawnAs options lineEnd [] (node :: nodes) (block ++ tokens) (new ++ drawn))
    (alike : Alike (meaningful block ++ meaningful tokens) (meaningful new ++ meaningful drawn))
    (takenAs : TakenAs options node (meaningful new) (meaningful drawn)) :
    Rewritten options lineEnd [] false (node :: nodes) (block ++ tokens) (new ++ drawn) := by
  refine ⟨drawnAs, by rwa [meaningful_append, meaningful_append], fun declarations => ?_⟩
  rcases declares.exists_rewritten? options with ⟨declaration, isRewritten⟩
  rw [meaningful_append, takenAs, List.forall_mem_cons, List.filterMap_cons, isRewritten]
  constructor
  · rintro ⟨clear, _, more, ⟨⟩, rfl, isModule⟩
    rcases (others.moduleWords_iff more).mp isModule with ⟨allClear, rfl⟩
    exact ⟨⟨clear, allClear⟩, rfl⟩
  · rintro ⟨⟨clear, allClear⟩, rfl⟩
    exact ⟨clear, declaration, _, rfl, rfl, (others.moduleWords_iff _).mpr ⟨allClear, rfl⟩⟩

/-- A declaration that the rules leave, in front of others. -/
theorem Rewritten.leave (others : Rewritten options lineEnd [] false nodes tokens drawn)
    (declares : node.Declares (meaningful tokens) block) (attributes : node.PlainAttributes)
    (names : ∀ token ∈ block, token.isName = true → Token.ofName token.text = token)
    (unchanged : node.isChanged = false)
    (stay : AllStay (Token.spell tokens) (redrawnText options lineEnd nodes) block) :
    Rewritten options lineEnd [] false (node :: nodes) (block ++ tokens) (block ++ drawn) := by
  rcases declares.declarationWords with ⟨declaration, isBare, isWords⟩
  have isRewritten : node.rewritten? options = some declaration := by
    rw [Node.rewritten?, unchanged, if_neg Bool.false_ne_true, isBare]
  rcases isWords.begins with ⟨word, more, isBlock, begins⟩
  refine others.declaration declares (others.toDrawnAs.leave declares attributes unchanged stay) ?_
    ((isWords.of_alike others.alike).takenAs (declares.isMistaken_eq_false unchanged names)
      isRewritten)
  rw [isBlock]
  exact .declaration (begins.imp And.left And.left)

/-- A declaration that is drawn anew, in front of others. -/
theorem Rewritten.redraw (others : Rewritten options lineEnd [] false nodes tokens drawn)
    (declares : node.Declares (meaningful tokens) block) (sound : ∀ token ∈ block, token.Sound)
    (attributes : node.PlainAttributes) (changed : node.isChanged = true)
    (undisturbed : [.punct ';'] <:+ block ∨
      ∀ token ∈ (meaningful tokens).head?, token.isSign = false)
    {new : List Token} (rewrites : Rewrites options lineEnd node block new) :
    Rewritten options lineEnd [] false (node :: nodes) (block ++ tokens) (new ++ drawn) :=
  others.declaration declares
    (others.toDrawnAs.redraw declares sound attributes changed undisturbed rewrites.renews)
    (rewrites.alike _ _) (rewrites.takenAs _)

/-- Where nothing is disturbed, tokens are drawn whose words make a module of what the
declarations are written as. -/
theorem Traced.exists_rewritten (isEnd : IsLineEnd lineEnd)
    (isQuote : options.quote = '"' ∨ options.quote = '\'')
    (traced : Traced openers dotted nodes tokens) (sound : ∀ token ∈ tokens, token.Sound)
    (names : ∀ token ∈ tokens, token.isName = true → Token.ofName token.text = token)
    (attributes : ∀ node ∈ nodes, node.PlainAttributes)
    (undisturbed : Undisturbed options lineEnd nodes tokens) :
    ∃ drawn, Rewritten options lineEnd openers dotted nodes tokens drawn := by
  induction traced with
  | nil => exact ⟨[], .nil⟩
  | @trivia openers dotted node nodes token tokens isTrivia covers more inductionHypothesis =>
      rcases List.forall_mem_cons.mp sound with ⟨ofToken, ofTokens⟩
      have isSound : ∀ other ∈ [token], other.Sound := by simpa using ofToken
      rcases (undisturbed_cons_iff covers.written?_eq isSound).mp undisturbed with ⟨stay, behind⟩
      rw [covers.isChanged_of_trivia isTrivia, if_neg Bool.false_ne_true] at stay
      rcases inductionHypothesis ofTokens (List.forall_mem_cons.mp names).2
        (List.forall_mem_cons.mp attributes).2 behind with ⟨drawn, others⟩
      exact ⟨_, others.trivia isTrivia covers stay⟩
  | @code openers _ dotted nodes token tokens meaning plain tracked more inductionHypothesis =>
      rcases List.forall_mem_cons.mp sound with ⟨ofToken, ofTokens⟩
      have isSound : ∀ other ∈ [token], other.Sound := by simpa using ofToken
      have written := (covers_code_singleton meaning).written?_eq
      rcases (undisturbed_cons_iff written isSound).mp undisturbed with ⟨stay, behind⟩
      rcases inductionHypothesis ofTokens (List.forall_mem_cons.mp names).2
        (List.forall_mem_cons.mp attributes).2 behind with ⟨drawn, others⟩
      exact ⟨_, others.code meaning plain tracked stay⟩
  | @declaration node nodes block tokens declares more inductionHypothesis =>
      rcases List.forall_mem_append.mp sound with ⟨ofBlock, ofTokens⟩
      rcases List.forall_mem_append.mp names with ⟨blockNames, otherNames⟩
      rcases List.forall_mem_cons.mp attributes with ⟨ofNode, ofNodes⟩
      rcases (undisturbed_cons_iff declares.covers.written?_eq ofBlock).mp undisturbed with
        ⟨undisturbed, behind⟩
      rcases inductionHypothesis ofTokens otherNames ofNodes behind with ⟨drawn, others⟩
      cases changed : node.isChanged with
      | false =>
          rw [changed, if_neg Bool.false_ne_true] at undisturbed
          exact ⟨_, others.leave declares ofNode blockNames changed undisturbed⟩
      | true =>
          rw [changed, if_pos rfl] at undisturbed
          rcases declares.exists_rewrites isEnd isQuote ofBlock blockNames changed ofNode with
            ⟨new, rewrites⟩
          exact ⟨_, others.redraw declares ofBlock ofNode changed undisturbed rewrites⟩

end

/-! ## Code that was joined -/

theorem Traced.standing {openers : List Char} {dotted : Bool} {nodes : List Node}
    {tokens : List Token} (traced : Traced openers dotted nodes tokens) :
    Standing nodes tokens := by
  induction traced with
  | nil => exact .nil
  | trivia isTrivia covers more inductionHypothesis => exact .cons covers inductionHypothesis
  | code meaning plain tracked more inductionHypothesis =>
      exact .cons (covers_code_singleton meaning) inductionHypothesis
  | declaration declares more inductionHypothesis =>
      exact .cons declares.covers inductionHypothesis

/-- What holds of all but declarations holds of the nodes with joined code exactly if it holds
of all nodes. -/
theorem forall_mem_joinCode_iff {p : Node → Prop}
    (ofOthers : ∀ node : Node, node.isDeclaration = false → p node) {nodes : List Node} :
    (∀ node ∈ Node.joinCode nodes, p node) ↔ ∀ node ∈ nodes, p node := by
  have same : (Node.joinCode nodes).filterMap (Option.guard Node.isDeclaration) =
      nodes.filterMap (Option.guard Node.isDeclaration) :=
    filterMap_joinCode (fun _ => rfl) (fun _ => rfl) nodes
  rw [List.filterMap_eq_filter] at same
  have onDeclarations (nodes : List Node) :
      (∀ node ∈ nodes, p node) ↔ ∀ node ∈ nodes.filter Node.isDeclaration, p node := by
    simp only [List.mem_filter]
    constructor
    · exact fun all node member => all node member.1
    · intro all node member
      cases isDeclaration : node.isDeclaration with
      | true => exact all node ⟨member, isDeclaration⟩
      | false => exact ofOthers node isDeclaration
  rw [onDeclarations, same, ← onDeclarations]

section

variable {options : PrintOptions} {lineEnd : Text} {nodes : List Node}

theorem redrawnText_cons (node : Node) (nodes : List Node) :
    redrawnText options lineEnd (node :: nodes) =
      node.normalize.render options lineEnd ++ redrawnText options lineEnd nodes :=
  List.flatMap_cons

/-- Joining code does not change what is written. -/
theorem redrawnText_joinCode (nodes : List Node) :
    redrawnText options lineEnd (Node.joinCode nodes) = redrawnText options lineEnd nodes := by
  induction nodes with
  | nil => rfl
  | cons node nodes inductionHypothesis =>
      have ofPrepend (nodes : List Node) : redrawnText options lineEnd (node.prepend nodes) =
          redrawnText options lineEnd (node :: nodes) := by
        unfold Node.prepend
        split <;> simp [redrawnText_cons, Node.normalize, Node.mapDeclaration, Node.render]
      rw [Node.joinCode, List.foldr_cons, ← Node.joinCode, ofPrepend, redrawnText_cons,
        redrawnText_cons, inductionHypothesis]

/-- Code that is undisturbed is so in parts. -/
theorem Undisturbed.split {block next tokens : List Token} {second : Node}
    (isSecond : second = .code (Token.spell next) ∨ second = .trivia (Token.spell next))
    (sound : ∀ token ∈ block ++ next, token.Sound)
    (undisturbed : Undisturbed options lineEnd (.code (Token.spell (block ++ next)) :: nodes)
      (block ++ (next ++ tokens))) :
    Undisturbed options lineEnd (.code (Token.spell block) :: second :: nodes)
      (block ++ (next ++ tokens)) := by
  rcases List.forall_mem_append.mp sound with ⟨ofBlock, ofNext⟩
  rw [← List.append_assoc, undisturbed_cons_iff rfl sound] at undisturbed
  rcases undisturbed with ⟨stay, others⟩
  rcases allStay_append.mp stay with ⟨first, rest⟩
  rw [undisturbed_cons_iff rfl ofBlock, Token.spell_append, redrawnText_cons]
  rcases isSecond with rfl | rfl
  · exact ⟨first, (undisturbed_cons_iff rfl ofNext).mpr ⟨rest, others⟩⟩
  · exact ⟨first, (undisturbed_cons_iff rfl ofNext).mpr ⟨rest, others⟩⟩

theorem Undisturbed.of_prepend {node : Node} {block tokens : List Token}
    (covers : node.Covers block) (standing : Standing nodes tokens)
    (sound : ∀ token ∈ block ++ tokens, token.Sound)
    (undisturbed : Undisturbed options lineEnd (node.prepend nodes) (block ++ tokens)) :
    Undisturbed options lineEnd (node :: nodes) (block ++ tokens) := by
  unfold Node.prepend at undisturbed
  split at undisturbed
  · rcases standing_cons_iff.mp standing with ⟨next, more, rfl, nextCovers, _⟩
    rcases covers_code_iff.mp covers with ⟨_, _, rfl⟩
    rcases covers_code_iff.mp nextCovers with ⟨_, _, rfl⟩
    rw [← Token.spell_append] at undisturbed
    rw [← List.append_assoc] at sound
    exact undisturbed.split (.inl rfl) (List.forall_mem_append.mp sound).1
  · rename_i space next nodes
    rcases standing_cons_iff.mp standing with ⟨between, behind, rfl, spaceCovers, behindSpace⟩
    rcases standing_cons_iff.mp behindSpace with ⟨next, more, rfl, nextCovers, _⟩
    rcases covers_code_iff.mp covers with ⟨_, _, rfl⟩
    rcases covers_code_iff.mp nextCovers with ⟨_, _, rfl⟩
    have isSpace : space = Token.spell between := by
      rw [covers_trivia_iff.mp spaceCovers]
      simp
    subst isSpace
    rw [← List.append_assoc, ← List.append_assoc, List.forall_mem_append] at sound
    rw [← Token.spell_append, ← Token.spell_append, ← List.append_assoc block] at undisturbed
    have inFront := undisturbed.split (.inl rfl) sound.1
    rw [List.append_assoc] at inFront
    exact inFront.split (.inr rfl) (List.forall_mem_append.mp sound.1).1
  · exact undisturbed

/-- What is undisturbed with its code joined is so before. -/
theorem Undisturbed.of_joinCode {tokens : List Token} (standing : Standing nodes tokens)
    (sound : ∀ token ∈ tokens, token.Sound)
    (undisturbed : Undisturbed options lineEnd (Node.joinCode nodes) tokens) :
    Undisturbed options lineEnd nodes tokens := by
  induction standing with
  | nil => exact undisturbed
  | @cons node nodes block tokens covers more inductionHypothesis =>
      rcases List.forall_mem_append.mp sound with ⟨ofBlock, ofTokens⟩
      have inFront := Undisturbed.of_prepend covers more.joinCode sound undisturbed
      rw [undisturbed_cons_iff covers.written?_eq ofBlock, redrawnText_joinCode] at inFront
      rw [undisturbed_cons_iff covers.written?_eq ofBlock]
      exact ⟨inFront.1, inductionHypothesis ofTokens inFront.2⟩

end

/-! ## Whole documents -/

/-- The text of a name tells what kind of token it is. -/
theorem Script.Scans.ofName_text {source : Text} {tokens : List Token}
    (scans : Scans source tokens) :
    ∀ token ∈ tokens, token.isName = true → Token.ofName token.text = token := by
  intro token member isName
  rcases Bool.or_eq_true_iff.mp isName with isIdentifier | isString
  · have lexeme := (scans.sound token member).lexeme (.inl (by simpa using isIdentifier))
    exact Token.ofName_text lexeme isName
  · rcases token with ⟨kind, text⟩
    obtain rfl : kind = .string := by simpa using isString
    rcases scans.shaped _ member with ⟨quote, body, isQuote, rfl⟩
    rcases isQuote with rfl | rfl <;> rfl

/-- Where nothing is disturbed, what a document is drawn as reads as what its declarations
are written as. -/
theorem exists_rewritten_of_parse {source : Text} {document : Document} {tokens : List Token}
    {options : PrintOptions} {lineEnd : Text} (isEnd : IsLineEnd lineEnd)
    (isQuote : options.quote = '"' ∨ options.quote = '\'')
    (parsed : Document.parse source = .ok document) (scanned : tokenize source = .ok tokens)
    (attributes : ∀ node ∈ document.nodes, node.PlainAttributes)
    (undisturbed : Undisturbed options lineEnd document.nodes tokens) :
    ∃ drawn, Rewritten options lineEnd [] false document.nodes tokens drawn := by
  have scans := tokenize_eq_ok_iff.mp scanned
  rcases exists_traced_of_ofTokens (ofTokens_of_parse parsed scanned) with ⟨nodes, isNodes, traced⟩
  rcases standing_of_parse parsed with ⟨alsoTokens, alsoScanned, standing⟩
  obtain rfl : tokens = alsoTokens := Except.ok.inj (scanned.symm.trans alsoScanned)
  rcases (outlined_of_parse parsed scanned).exists_drawnAs isEnd isQuote standing scans.sound
    attributes undisturbed with ⟨drawn, drawnAs⟩
  rw [isNodes] at attributes undisturbed
  rw [forall_mem_joinCode_iff fun _ => Node.plainAttributes_of_noDeclaration] at attributes
  rcases traced.exists_rewritten isEnd isQuote scans.sound scans.ofName_text attributes
    (undisturbed.of_joinCode traced.standing scans.sound) with ⟨alsoDrawn, rewritten⟩
  -- Both ways of drawing spell the same text, which has its tokens.
  have isDrawn := tokenize_eq_ok_iff.mpr (scans.redrawn drawnAs.redrawn)
  have isAlsoDrawn := tokenize_eq_ok_iff.mpr (scans.redrawn rewritten.redrawn)
  rw [drawnAs.standing.spell_eq_redrawnText, isNodes, redrawnText_joinCode,
    ← rewritten.standing.spell_eq_redrawnText, isAlsoDrawn] at isDrawn
  cases isDrawn
  refine ⟨drawn, drawnAs, rewritten.alike, fun declarations => ?_⟩
  rw [rewritten.moduleWords_iff, isNodes, forall_mem_joinCode_iff fun _ => Node.isMistaken_eq_false,
    filterMap_joinCode (fun _ => rfl) (fun _ => rfl)]

/-- No export is mistaken exactly if no binding in one is. -/
theorem Document.forall_isMistaken_iff (document : Document) :
    (∀ node ∈ document.nodes, node.isMistaken = false) ↔
      ∀ declaration ∈ document.exports, ∀ item ∈ declaration.specifiers.items,
        item.isMistaken = false := by
  constructor
  · intro clear declaration member item isItem
    rcases List.mem_filterMap.mp member with ⟨node, inNodes, isExport⟩
    cases node with
    | exporting =>
        cases isExport
        simpa using List.any_eq_false.mp (clear _ inNodes) item isItem
    | _ => cases isExport
  · intro clear node member
    cases node with
    | exporting declaration =>
        have isExport : declaration ∈ document.exports := List.mem_filterMap.mpr ⟨_, member, rfl⟩
        exact List.any_eq_false.mpr fun item isItem => by
          simp [clear declaration isExport item isItem]
    | _ => rfl

/-! ## Declarations of values -/

/-- How many edits an `export` needs does not depend on its layout. -/
def BareExport.typeCount (bare : BareExport) : Nat :=
  (if bare.kind.isValue then 0 else 1) + bare.specifiers.countP (!·.kind.isValue)

/-- Whether a declaration is one of values. -/
def IsOfValues : BareImport ⊕ BareExport → Prop
  | .inl bare => bare.kind = .value
  | .inr bare => bare.typeCount = 0

theorem Node.isOfValues_normalize {node : Node} {declaration : BareImport ⊕ BareExport}
    (isBare : node.normalize.bare? = some declaration) : IsOfValues declaration := by
  cases node with
  | importing declaration =>
      cases isBare
      have isValue : ((declaration.dropComments Comment.isPragma).setKind .value).kind =
          .value := by
        rw [ImportDeclaration.setKind_eq]
      exact isValue
  | exporting declaration =>
      cases isBare
      exact ExportDeclaration.typeCount_toValues _
  | trivia | comment | code => cases isBare

/-- A declaration is written as one of values. -/
theorem Node.isOfValues_rewritten? {options : PrintOptions} {node : Node}
    (wasWritten : node.written?.isSome = true) {declaration : BareImport ⊕ BareExport}
    (isRewritten : node.rewritten? options = some declaration) : IsOfValues declaration := by
  unfold Node.rewritten? at isRewritten
  split at isRewritten
  · rcases Option.map_eq_some_iff.mp isRewritten with ⟨bare, isBare, rfl⟩
    have values := Node.isOfValues_normalize isBare
    cases bare <;> exact values
  · rename_i unchanged
    apply Node.isOfValues_normalize
    rw [Node.normalize_of_unchanged wasWritten (by simpa using unchanged), isRewritten]

/-- A document of values without pragmas is quiet. -/
theorem quiet_of_values {document : Document}
    (values : ∀ declaration ∈ bareDeclarations document.nodes, IsOfValues declaration)
    (comments : ∀ comment ∈ document.comments, comment.isPragma = false) : document.Quiet := by
  refine ⟨comments, fun declaration member => ?_, fun declaration member => ?_⟩
  · rcases List.mem_filterMap.mp member with ⟨node, inNodes, isImport⟩
    cases node with
    | importing =>
        cases isImport
        exact values (.inl declaration.bare) (List.mem_filterMap.mpr ⟨_, inNodes, rfl⟩)
    | _ => cases isImport
  · rcases List.mem_filterMap.mp member with ⟨node, inNodes, isExport⟩
    cases node with
    | exporting =>
        cases isExport
        exact values (.inr declaration.bare) (List.mem_filterMap.mpr ⟨_, inNodes, rfl⟩)
    | _ => cases isExport

/-! ## Two runs -/

/-- What the standard pipeline writes has the declarations of the source text, as they are
written, if it is a document.  The second run leaves it as it is exactly if no exported
binding is mistaken without its kind. -/
theorem run_standard_twice {source output : Text} {edits : Nat} {document : Document}
    {tokens : List Token} (ran : Pipeline.standard.run source = .ok (output, edits))
    (parsed : Document.parse source = .ok document) (scanned : tokenize source = .ok tokens)
    (attributes : ∀ node ∈ document.nodes, node.PlainAttributes)
    (undisturbed : Undisturbed Pipeline.standard.options
      (Pipeline.standard.apply document).1.lineEnd document.nodes tokens)
    (settled : SettledText (redrawnText Pipeline.standard.options
      (Pipeline.standard.apply document).1.lineEnd document.nodes))
    (start : ['#', '!'] <+: output → ['#', '!'] <+: source) :
    (∀ again, Document.parse output = .ok again →
        bareDeclarations again.nodes =
          document.nodes.filterMap (Node.rewritten? Pipeline.standard.options)) ∧
      (Pipeline.standard.run output = .ok (output, 0) ↔
        ∀ declaration ∈ document.exports, ∀ item ∈ declaration.specifiers.items,
          item.isMistaken = false) := by
  have standing := standing_of_ofTokens (ofTokens_of_parse parsed scanned)
  rcases exists_rewritten_of_parse (Document.isLineEnd_lineEnd _) (.inr rfl) parsed scanned
    attributes undisturbed with ⟨drawn, rewritten⟩
  have rescanned := tokenize_run_standard ran parsed scanned rewritten.toDrawnAs settled start
  -- Neither the pragmas nor the white space that go are words.
  have sameWords : meaningful (joinSpaces (stripAll Token.isPragma drawn)) = meaningful drawn :=
    (meaningful_joinSpaces _).trans (meaningful_stripAll Comment.isPragma drawn)
  have built_iff (declarations : List (BareImport ⊕ BareExport)) := by
    have iff := @ofTokens_iff_moduleWords (joinSpaces (stripAll Token.isPragma drawn)) declarations
    rwa [sameWords, rewritten.moduleWords_iff] at iff
  rw [run_standard_eq_self_iff, ← Document.forall_isMistaken_iff]
  refine ⟨fun again isAgain => ?_, ?_, fun clear => ?_⟩
  · exact ((built_iff _).mp ⟨again, ofTokens_of_parse isAgain rescanned, rfl⟩).2
  · rintro ⟨again, isAgain, _⟩
    exact ((built_iff _).mp ⟨again, ofTokens_of_parse isAgain rescanned, rfl⟩).1
  · rcases (built_iff _).mpr ⟨clear, rfl⟩ with ⟨again, built, isBare⟩
    refine ⟨again, parse_of_tokenize rescanned built, quiet_of_values ?_ ?_⟩
    · rw [isBare]
      intro declaration member
      rcases List.mem_filterMap.mp member with ⟨node, inNodes, isRewritten⟩
      rcases standing.covers_of_mem node inNodes with ⟨block, _, covers⟩
      exact Node.isOfValues_rewritten? (by simp [covers.written?_eq]) isRewritten
    · rw [(standing_of_ofTokens built).comments_eq, commentsOf_joinSpaces]
      intro comment member
      have stays := commentsOf_stripAll Comment.isPragma drawn ▸ member
      simpa using (List.mem_filter.mp stays).2

/-- A pragma and two kinds go in the first run.  A comment comes to stand in front of its
declaration, a module gets other quotes, two declarations get semicolons, and the words of
the grammar are names in them.  The second run leaves it all. -/
theorem run_standard_twice_module :
    let source := ("// @flow\nimport type /* a */ as, \x7btype\x7d from \"x\" " ++
      "with \x7btype: 'json'\x7d\nexport \x7btype as as from\x7d\nd / 2").toList
    let output := ("/* a */\nimport as, \x7b type \x7d from 'x' with \x7btype: 'json'\x7d;\n" ++
      "export \x7b as as from \x7d;\nd / 2").toList
    Pipeline.standard.run source = .ok (output, 3) ∧
      Pipeline.standard.run output = .ok (output, 0) := by
  intro source output
  have parsed : Document.parse source = .ok
      { nodes :=
          [.comment ⟨.line, "// @flow".toList⟩, .trivia ['\n'],
            .importing
              { kind := .type
                defaultName := some "as".toList
                specifiers := some ⟨[{ name := "type".toList }], false⟩
                source := ⟨'"', ['x']⟩
                attributes := some "with \x7btype: 'json'\x7d".toList
                comments := [⟨.block, "/* a */".toList⟩]
                written := some ("import type /* a */ as, \x7btype\x7d from \"x\" " ++
                  "with \x7btype: 'json'\x7d").toList },
            .trivia ['\n'],
            .exporting
              { specifiers :=
                  ⟨[{ kind := .type, name := "as".toList, renamed := some "from".toList }], false⟩
                written := some "export \x7btype as as from\x7d".toList },
            .trivia ['\n'], .code "d / 2".toList] } := by
    decide +kernel
  have scanned : tokenize source = .ok
      [⟨.lineComment, "// @flow".toList⟩, ⟨.whitespace, ['\n']⟩, .word "import", .blank,
        .word "type", .blank, ⟨.blockComment, "/* a */".toList⟩, .blank, .word "as", .punct ',',
        .blank, .punct '\x7b', .word "type", .punct '\x7d', .blank, .word "from", .blank,
        ⟨.string, "\"x\"".toList⟩, .blank, .word "with", .blank, .punct '\x7b', .word "type",
        .punct ':', .blank, ⟨.string, "'json'".toList⟩, .punct '\x7d', ⟨.whitespace, ['\n']⟩,
        .word "export", .blank, .punct '\x7b', .word "type", .blank, .word "as", .blank,
        .word "as", .blank, .word "from", .punct '\x7d', ⟨.whitespace, ['\n']⟩, .word "d",
        .blank, .punct '/', .blank, ⟨.number, ['2']⟩] := by
    decide +kernel
  have ran : Pipeline.standard.run source = .ok (output, 3) := by decide +kernel
  have twice := run_standard_twice ran parsed scanned (by decide +kernel) (by decide +kernel)
    (by decide +kernel) (by decide +kernel)
  exact ⟨ran, twice.2.mpr (by decide +kernel)⟩

/-- A pragma in the attributes of an `import` is found by every run, and stays. -/
theorem run_standard_twice_attributes :
    Pipeline.standard.run
        "import a from 'x' with \x7b /* $FlowFixMe */ type: 'json' \x7d;".toList =
      .ok ("import a from 'x' with \x7b /* $FlowFixMe */ type: 'json' \x7d;".toList, 1) := by
  decide +kernel

end Deflow
