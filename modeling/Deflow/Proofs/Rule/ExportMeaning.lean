import Deflow.Proofs.Document.RoundTrip
import Deflow.Proofs.Rule.Effect

/-!
# What exports of values are read as

A binding that loses its kind is still read as the same binding, with one exception.  A
name that is the word of a kind is taken for the kind in front of `as as`, which leaves no
name for the binding.  An `export` with such a binding is written as a text that cannot be
read.
-/

namespace Deflow

open Script

/-! ## Bindings that lose their kind -/

/-- Whether a binding cannot be read without its kind: its name is the word of a kind, and
`as` is its new name. -/
def Specifier.isMistaken (item : Specifier) : Bool :=
  (item.name == "type".toList || item.name == "typeof".toList) &&
    item.renamed == some "as".toList

namespace Declaration

theorem announced?_ofName {name : Text} (notType : name ≠ "type".toList)
    (notTypeof : name ≠ "typeof".toList) : (Token.ofName name).announced? = none := by
  unfold Token.announced?
  split
  · rw [Token.ofName, BindingKind.ofKeyword?, if_neg notType, if_neg notTypeof]
  · rfl

/-- A binding of a value is made by the words that are drawn of it. -/
theorem bindingWords_toValue {item : Specifier} (clear : item.isMistaken = false) :
    BindingWords item.toValue (meaningful item.toValue.drawn) := by
  rcases item with ⟨kind, name, renamed⟩
  rw [Specifier.meaningful_drawn]
  cases renamed with
  | none => exact .plain (isName_ofName name) fun notValue => absurd rfl notValue
  | some new =>
      refine .renamed (isName_ofName name) (isName_ofName new) fun _ isAs => ?_
      have isNew : new = "as".toList := congrArg Token.text isAs
      subst isNew
      have notKind : name ≠ "type".toList ∧ name ≠ "typeof".toList := by
        simpa [Specifier.isMistaken] using clear
      exact announced?_ofName notKind.1 notKind.2

/-- No binding is made by those of a mistaken one. -/
theorem not_bindingWords_toValue {item other : Specifier} (mistaken : item.isMistaken = true) :
    ¬BindingWords other (meaningful item.toValue.drawn) := by
  have isWords : ∃ word ∈ ["type", "typeof"],
      meaningful item.toValue.drawn = [.word word, .word "as", .word "as"] := by
    rcases item with ⟨kind, name, renamed⟩
    simp only [Specifier.isMistaken, Bool.and_eq_true, Bool.or_eq_true, beq_iff_eq] at mistaken
    rcases mistaken with ⟨rfl | rfl, rfl⟩
    · exact ⟨"type", by simp, rfl⟩
    · exact ⟨"typeof", by simp, rfl⟩
  rcases isWords with ⟨word, isKind, isWords⟩
  rw [isWords]
  generalize isTokens : [Token.word word, .word "as", .word "as"] = tokens
  intro binding
  cases binding with
  | @plain kind name => cases kind <;> simp [BindingKind.words] at isTokens
  | @renamed kind name new isName isNew clear =>
      -- Three words are too few for a kind and two names, so that the first is the name.
      cases kind with
      | value =>
          simp only [BindingKind.words, List.nil_append, List.cons.injEq] at isTokens
          rcases isTokens with ⟨rfl, _, rfl, _⟩
          simp only [List.mem_cons, List.not_mem_nil, or_false] at isKind
          rcases isKind with rfl | rfl <;> exact absurd (clear rfl rfl) (by decide)
      | type | typeof => simp [BindingKind.words] at isTokens

/-! ## Lists that cannot be read -/

theorem isName_of_mem_words {kind : BindingKind} {token : Token} (member : token ∈ kind.words) :
    token.isName = true := by
  cases kind with
  | value => cases member
  | type | typeof =>
      rw [List.mem_singleton.mp member]
      rfl

/-- The words of a binding are names. -/
theorem BindingWords.isName {item : Specifier} {tokens : List Token}
    (binding : BindingWords item tokens) : ∀ token ∈ tokens, token.isName = true := by
  cases binding with
  | plain isName =>
      refine List.forall_mem_append.mpr ⟨fun token => isName_of_mem_words, ?_⟩
      simpa using isName
  | renamed isName isNew =>
      refine List.forall_mem_append.mpr ⟨fun token => isName_of_mem_words, ?_⟩
      exact List.forall_mem_cons.mpr ⟨isName, List.forall_mem_cons.mpr ⟨rfl, by simpa using isNew⟩⟩

/-- So are those that are drawn of one. -/
theorem isName_of_mem_drawn (item : Specifier) :
    meaningful item.drawn ≠ [] ∧ ∀ token ∈ meaningful item.drawn, token.isName = true := by
  rw [Specifier.meaningful_drawn]
  refine ⟨by simp, List.forall_mem_append.mpr ⟨fun token => isName_of_mem_words, ?_⟩⟩
  cases item.renamed with
  | none => simpa using isName_ofName item.name
  | some new =>
      exact List.forall_mem_cons.mpr ⟨isName_ofName item.name,
        List.forall_mem_cons.mpr ⟨rfl, by simpa using isName_ofName new⟩⟩

/-- The runs of names up to a closing brace. -/
def runsOf : List Token → List (List Token)
  | [] => []
  | token :: tokens =>
    if token = .punct '\x7d' then []
    else if token = .punct ',' then [] :: runsOf tokens
    else
      match runsOf tokens with
      | [] => [[token]]
      | run :: runs => (token :: run) :: runs

theorem runsOf_name {token : Token} (isName : token.isName = true) (tokens : List Token) :
    runsOf (token :: tokens) =
      (token :: (runsOf tokens).headD []) :: (runsOf tokens).tail := by
  have notSign (c : Char) : token ≠ .punct c := by
    rintro rfl
    cases isName
  rw [runsOf, if_neg (notSign _), if_neg (notSign _)]
  cases runsOf tokens <;> rfl

theorem runsOf_comma (tokens : List Token) : runsOf (.punct ',' :: tokens) = [] :: runsOf tokens :=
  rfl

theorem runsOf_brace (tokens : List Token) : runsOf (.punct '\x7d' :: tokens) = [] :=
  rfl

/-- Names in front of others belong to one run. -/
theorem runsOf_names {run : List Token} (nonempty : run ≠ [])
    (names : ∀ token ∈ run, token.isName = true) (tokens : List Token) :
    runsOf (run ++ tokens) = (run ++ (runsOf tokens).headD []) :: (runsOf tokens).tail := by
  induction run with
  | nil => exact absurd rfl nonempty
  | cons token run inductionHypothesis =>
      rcases List.forall_mem_cons.mp names with ⟨first, others⟩
      rw [List.cons_append, runsOf_name first]
      cases run with
      | nil => rfl
      | cons next run =>
          rw [inductionHypothesis (by simp) others]
          rfl

/-- The runs of a list are found again, whatever follows its brace. -/
theorem Separated.runsOf_eq {runs : List (List Token)} {tokens : List Token}
    (separated : Separated runs tokens)
    (names : ∀ run ∈ runs, run ≠ [] ∧ ∀ token ∈ run, token.isName = true) (rest : List Token) :
    runsOf (tokens ++ rest) = runs := by
  induction separated with
  | nil => rfl
  | last =>
      rcases names _ (.head _) with ⟨nonempty, ofRun⟩
      rw [List.append_assoc, runsOf_names nonempty ofRun, List.singleton_append, runsOf_brace]
      simp
  | cons behind inductionHypothesis =>
      rcases List.forall_mem_cons.mp names with ⟨⟨nonempty, ofRun⟩, ofRuns⟩
      rw [List.append_assoc, runsOf_names nonempty ofRun, List.cons_append, runsOf_comma,
        inductionHypothesis ofRuns]
      simp

/-- The words of a list with a mistaken binding are not read as a list. -/
theorem not_listWords_of_mistaken {items found : List Specifier}
    {tokens taken rest more : List Token}
    (separated : Separated ((items.map Specifier.drawn).map meaningful) tokens)
    {item : Specifier} (member : item.toValue ∈ items) (mistaken : item.isMistaken = true)
    (same : tokens ++ rest = taken ++ more) : ¬ListWords found taken := by
  intro list
  rcases listWords_iff.mp list with ⟨runs, again, bindings⟩
  have each : ∀ run ∈ runs, ∃ item, BindingWords item run := by
    clear again list
    induction bindings with
    | nil => simp
    | cons binding others inductionHypothesis =>
        exact List.forall_mem_cons.mpr ⟨⟨_, binding⟩, inductionHypothesis⟩
  have isRuns := again.runsOf_eq (fun run isRun => by
    rcases each run isRun with ⟨item, binding⟩
    exact ⟨binding.ne_nil, binding.isName⟩) more
  have isDrawn := separated.runsOf_eq (fun run isRun => by
    rcases List.mem_map.mp isRun with ⟨_, isDrawn, rfl⟩
    rcases List.mem_map.mp isDrawn with ⟨item, _, rfl⟩
    exact isName_of_mem_drawn item) rest
  have sameRuns : (items.map Specifier.drawn).map meaningful = runs := by
    rw [← isDrawn, same, isRuns]
  have isRun : meaningful item.toValue.drawn ∈ runs := by
    rw [← sameRuns]
    exact List.mem_map_of_mem (List.mem_map_of_mem member)
  rcases each _ isRun with ⟨other, binding⟩
  exact not_bindingWords_toValue mistaken binding

end Declaration

/-! ## Exports of values -/

/-- A text whose first declaration cannot be read is no document. -/
theorem ofTokens_eq_error {first : Token} {tokens : List Token}
    (meaning : first.isTrivia = false) (begins : [first] <+: tokens)
    (ends : ∀ last ∈ tokens.getLast?, last.isTrivia = false)
    (failed : ∀ start pieces, (∀ piece ∈ pieces, piece.Proper) →
      first :: pieces.flatMap Piece.tokens = tokens →
      ∃ malformed, recognise ⟨first, start⟩ pieces = .error malformed) :
    ∃ failure, Document.ofTokens tokens = .error failure := by
  rcases begins with ⟨block, rfl⟩
  rw [List.singleton_append] at ends failed ⊢
  rcases exists_group meaning ends .start with ⟨start, pieces, isGroup, proper, isTokens⟩
  rcases failed start pieces proper (by rw [isTokens]) with ⟨malformed, isFailed⟩
  refine ⟨malformed.toError (Position.start.after (Token.spell (first :: block))), ?_⟩
  simp only [Document.ofTokens, isGroup, readPieces, ParseState.recognise?,
    ParseState.atModuleLevel, List.isEmpty_nil, Option.any_none, Bool.not_false, Bool.and_self,
    if_true, isFailed]
  rfl

/-- An `export` whose list has a mistaken binding is not recognised. -/
theorem Declaration.exists_recognise_eq_error {brace : Piece} {list : List Piece}
    {items : List Specifier} (isBrace : brace.token.toToken = .punct '\x7b')
    (separated : Separated ((items.map Specifier.drawn).map meaningful) (words list))
    {item : Specifier} (member : item.toValue ∈ items) (mistaken : item.isMistaken = true)
    (behind : List Piece) (start : Position) :
    ∃ malformed,
      recognise ⟨.word "export", start⟩ (brace :: (list ++ behind)) = .error malformed := by
  cases readList : specifierList (list ++ behind) with
  | ok result =>
      rcases exists_of_specifierList readList with ⟨taken, isTaken, listed⟩
      have same : words list ++ words behind = words taken ++ words result.2 := by
        rw [← words_append, isTaken, words_append]
      exact absurd listed (not_listWords_of_mistaken separated member mistaken same)
  | error malformed =>
      have noKind : kindWord? brace = none := (not_name_of_sign (by rw [isBrace]; rfl)).2.2.1
      have isExport : (Token.word "export").isWord "export" = true := by decide
      have notImport : (Token.word "export").isWord "import" = false := by decide
      refine ⟨malformed, ?_⟩
      simp [recognise, isExport, notImport, exportDeclaration, exportKind, noKind,
        Piece.isPunct_iff.mpr isBrace, readList, bind, Except.bind]

/-- An `export` with a mistaken binding is written as a text that cannot be read. -/
theorem ExportDeclaration.Writable.parse_render_eq_error {declaration : ExportDeclaration}
    {options : PrintOptions} {attributes : List Token} {lineEnd : Text}
    (writable : declaration.Writable options attributes) (isEnd : IsLineEnd lineEnd)
    (isValue : declaration.kind = .value) {item : Specifier}
    (member : item.toValue ∈ declaration.specifiers.items) (mistaken : item.isMistaken = true) :
    ∃ failure, Document.parse (declaration.render options lineEnd) = .error failure := by
  have begins := prefix_drawn writable.noComment options lineEnd attributes
  have ends := ends_of_suffix (declaration.suffix_drawn options lineEnd attributes)
  have failed := ofTokens_eq_error rfl begins ends fun start pieces proper isTokens => by
    rcases writable.exists_pieces proper isTokens with
      ⟨front, brace, list, behind, rfl, isFront, isBrace, listProper, _, isList, _⟩
    have noFront : front = [] := by simpa [isValue, BindingKind.words, words] using isFront
    subst noFront
    have separated := Declaration.separated_drawnInside declaration.specifiers options lineEnd
      (declaration.fits options attributes)
    rw [← words_of_tokens listProper isList] at separated
    exact Declaration.exists_recognise_eq_error isBrace separated member mistaken behind start
  rcases failed with ⟨failure, isFailed⟩
  refine ⟨failure, ?_⟩
  simp [Document.parse, tokensOf, writable.tokenize_render isEnd, isFailed, bind, Except.bind]

/-- What an `export` is written as by itself behind the rule for its kinds. -/
def ExportDeclaration.normalizedText (declaration : ExportDeclaration) (options : PrintOptions) :
    Text :=
  Document.print (Rule.normalizeExportKinds.apply ⟨[.exporting declaration]⟩) options

/-- An `export` that the rule changes is written anew. -/
theorem ExportDeclaration.normalizedText_eq {declaration : ExportDeclaration}
    (changed : Rule.normalizeExportKinds.edits ⟨[.exporting declaration]⟩ ≠ 0)
    (options : PrintOptions) :
    declaration.normalizedText options =
      render { declaration with
        kind := .value
        specifiers :=
          { declaration.specifiers with items := declaration.specifiers.items.map .toValue }
        written := none } options ['\n'] := by
  have isChanged : declaration.typeCount ≠ 0 := by
    simpa [Rule.edits, Document.exports, Node.export?] using changed
  have isValues := declaration.toValues_eq
  rw [if_neg isChanged] at isValues
  have applied : Rule.normalizeExportKinds.apply ⟨[.exporting declaration]⟩ =
      ⟨[.exporting declaration.toValues]⟩ := rfl
  rw [normalizedText, applied, isValues, print_exporting rfl]
  rfl

theorem Specifier.names_toValue (items : List Specifier) :
    Specifier.names (items.map Specifier.toValue) = Specifier.names items := by
  simp [Specifier.names, List.flatMap_map, Specifier.toValue]

/-- An `export` of a document whose kinds are normalized is written as a text that is read
as one `export` of values of the same names, from the same module, if no binding is
mistaken.  Otherwise the text cannot be read. -/
theorem parse_normalizedText {source : Text} {document : Document}
    (parsed : Document.parse source = .ok document) {declaration : ExportDeclaration}
    (member : .exporting declaration ∈ document.nodes) (noComment : declaration.comments = [])
    (plain : ∀ text ∈ declaration.attributes, '<' ∉ text ∧ '/' ∉ text)
    (changed : Rule.normalizeExportKinds.edits ⟨[.exporting declaration]⟩ ≠ 0)
    (options : PrintOptions) (isQuote : options.quote = '"' ∨ options.quote = '\'') :
    ((∀ item ∈ declaration.specifiers.items, item.isMistaken = false) →
      ∃ again, Document.parse (declaration.normalizedText options) = .ok ⟨[.exporting again]⟩ ∧
        again.sense = .exporting .value (declaration.specifiers.items.map Specifier.toValue)
          (declaration.source.map StringLiteral.elements) declaration.attributes) ∧
      ((∃ item ∈ declaration.specifiers.items, item.isMistaken = true) →
        ∃ failure, Document.parse (declaration.normalizedText options) = .error failure) := by
  rcases exists_stands parsed member rfl with ⟨block, behind, stands⟩
  have quoted := (stands.parts_from rfl).quote_source (stands.isLexeme rfl plain)
  have names := Specifier.names_toValue declaration.specifiers.items
  rcases stands.exists_writable_export isQuote noComment plain names .value with
    ⟨attributes, writable⟩
  rw [ExportDeclaration.normalizedText_eq changed]
  constructor
  · intro clear
    have bindings : ∀ item ∈ declaration.specifiers.items.map Specifier.toValue,
        Declaration.BindingWords item (meaningful item.drawn) :=
      List.forall_mem_map.mpr fun item member =>
        Declaration.bindingWords_toValue (clear item member)
    have drawable := stands.drawable_export names bindings writable
    refine ⟨_, drawable.parse_render (.inl rfl), ?_⟩
    apply ExportDeclaration.sense_reread
    exact quoted
  · rintro ⟨item, member, mistaken⟩
    exact writable.parse_render_eq_error (.inl rfl) rfl (List.mem_map_of_mem member) mistaken

/-- Words of kinds and `as` among the names, a string, and attributes with script. -/
theorem parse_normalizedText_contextual_names :
    let source : Text :=
      ("export type \x7b type as as as, typeof typeof, \"x y\" as type \x7d " ++
        "from \"m\" with \x7b a: \x60b\x60 \x7d").toList
    ∃ document declaration again,
      Document.parse source = .ok document ∧
      .exporting declaration ∈ document.nodes ∧
      declaration.normalizedText {} = ("export \x7b as as as, typeof, \"x y\" as type \x7d " ++
        "from 'm' with \x7b a: \x60b\x60 \x7d;").toList ∧
      Document.parse (declaration.normalizedText {}) = .ok ⟨[.exporting again]⟩ ∧
      again.sense = .exporting .value
        [⟨.value, "as".toList, some "as".toList⟩, ⟨.value, "typeof".toList, none⟩,
          ⟨.value, "\"x y\"".toList, some "type".toList⟩]
        (some [.plain 'm']) (some "with \x7b a: \x60b\x60 \x7d".toList) := by
  intro source
  let declaration : ExportDeclaration :=
    { kind := .type
      specifiers :=
        ⟨[⟨.type, "as".toList, some "as".toList⟩, ⟨.typeof, "typeof".toList, none⟩,
          ⟨.value, "\"x y\"".toList, some "type".toList⟩], false⟩
      source := some ⟨'"', ['m']⟩
      attributes := some "with \x7b a: \x60b\x60 \x7d".toList
      written := some source }
  have parsed : Document.parse source = .ok ⟨[.exporting declaration]⟩ := by
    decide +kernel
  have member := List.mem_singleton_self (Node.exporting declaration)
  rcases (parse_normalizedText parsed member rfl (by decide +kernel) (by decide) {} (.inr rfl)).1
    (by decide) with ⟨again, isAgain, sameSense⟩
  exact ⟨_, declaration, again, parsed, member, by decide +kernel, isAgain, sameSense⟩

/-- A binding named `type` with the new name `as` is written as a text that cannot be
read. -/
theorem parse_normalizedText_mistaken :
    let source : Text := "export \x7b type type as as \x7d;".toList
    let output : Text := "export \x7b type as as \x7d;".toList
    ∃ declaration,
      Document.parse source = .ok ⟨[.exporting declaration]⟩ ∧
      declaration.normalizedText {} = output ∧
      Pipeline.standard.run source = .ok (output, 1) ∧
      Document.parse output =
        .error ⟨⟨1, 21⟩, .declaration .missingSpecifierName⟩ := by
  intro source output
  refine ⟨
    { specifiers := ⟨[⟨.type, "type".toList, some "as".toList⟩], false⟩
      written := some source }, ?_, ?_, ?_, ?_⟩
  all_goals decide +kernel

end Deflow
