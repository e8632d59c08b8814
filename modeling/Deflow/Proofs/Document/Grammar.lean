import Deflow.Proofs.Document.Words

/-!
# The words of declarations

The readers of declarations look at the tokens that mean something.  This file
says which words make which declaration: its bindings, its braced list, its
attributes and the whole.  Whatever a reader takes off the front of pieces has the
words that make what it has read, and the attributes are the text of a stretch of
the tokens taken.
-/

namespace Deflow

open Script

/-! ## Words -/

/-- The identifier that a word is. -/
def Script.Token.word (word : String) : Token :=
  ⟨.identifier, word.toList⟩

theorem Script.Token.isWord_iff {token : Token} {word : String} :
    token.isWord word = true ↔ token = .word word := by
  cases token
  simp [Token.isWord, Token.word]

theorem Piece.isWord_iff {piece : Piece} {word : String} :
    piece.isWord word = true ↔ piece.token.toToken = .word word :=
  Token.isWord_iff

theorem Piece.isPunct_iff {piece : Piece} {c : Char} :
    piece.isPunct c = true ↔ piece.token.toToken = .punct c :=
  Token.isPunct_iff

theorem Piece.isIdentifier_iff {piece : Piece} :
    piece.isIdentifier = true ↔ piece.token.kind = .identifier :=
  beq_iff_eq

theorem Piece.isString_iff {piece : Piece} :
    piece.isString = true ↔ piece.token.kind = .string :=
  beq_iff_eq

theorem meaningful_append (first second : List Token) :
    meaningful (first ++ second) = meaningful first ++ meaningful second :=
  List.filter_append ..

theorem meaningful_of_trivia {trivia : List Token}
    (isTrivia : ∀ token ∈ trivia, token.isTrivia = true) : meaningful trivia = [] :=
  List.filter_eq_nil_iff.mpr fun token member => by simp [isTrivia token member]

/-- The words of proper pieces are their tokens that mean something. -/
theorem meaningful_tokens {pieces : List Piece} (proper : ∀ piece ∈ pieces, piece.Proper) :
    meaningful (pieces.flatMap Piece.tokens) = words pieces := by
  induction pieces with
  | nil => rfl
  | cons piece pieces inductionHypothesis =>
      obtain ⟨first, others⟩ := List.forall_mem_cons.mp proper
      rw [List.flatMap_cons, words_cons, ← inductionHypothesis others, meaningful_append,
        Piece.tokens, meaningful_append, meaningful_of_trivia first.lead]
      simp [meaningful, first.token]

/-- Nothing behind the last piece is a word. -/
theorem meaningful_pieces {pieces : List Piece} {tail : List Token}
    (proper : ∀ piece ∈ pieces, piece.Proper) (isTrivia : ∀ token ∈ tail, token.isTrivia = true) :
    meaningful (pieces.flatMap Piece.tokens ++ tail) = words pieces := by
  rw [meaningful_append, meaningful_tokens proper, meaningful_of_trivia isTrivia, List.append_nil]

/-! ## Names and kinds -/

/-- Whether a token can name a binding. -/
def Script.Token.isName (token : Token) : Bool :=
  token.kind == .identifier || token.kind == .string

/-- The kind that a word announces if it is not a name. -/
def Script.Token.announced? (token : Token) : Option BindingKind :=
  if token.kind == .identifier then BindingKind.ofKeyword? token.text else none

/-- The word in front of a binding of a kind. -/
def BindingKind.words : BindingKind → List Token
  | .value => []
  | .type => [.word "type"]
  | .typeof => [.word "typeof"]

theorem words_of_announced? {token : Token} {kind : BindingKind}
    (announced : token.announced? = some kind) : kind ≠ .value ∧ kind.words = [token] := by
  obtain ⟨tokenKind, text⟩ := token
  unfold Token.announced? BindingKind.ofKeyword? at announced
  split at announced
  · rename_i identifier
    obtain rfl : tokenKind = .identifier := beq_iff_eq.mp identifier
    split at announced
    · rename_i isType
      obtain rfl : text = "type".toList := isType
      cases announced
      exact ⟨by simp, rfl⟩
    · split at announced
      · rename_i isTypeof
        obtain rfl : text = "typeof".toList := isTypeof
        cases announced
        exact ⟨by simp, rfl⟩
      · cases announced
  · cases announced

namespace Declaration

/-! ## Single words -/

/-- A reader that takes one piece if it passes a test. -/
theorem exists_of_single {read : PieceReader α} {test : Piece → Bool} {value : Piece → α}
    {fault : DeclarationFault} (atEnd : read [] = .error ⟨fault, []⟩)
    (atPiece : ∀ piece rest, read (piece :: rest) =
      if test piece then .ok (value piece, rest) else .error ⟨fault, piece :: rest⟩)
    {pieces rest : List Piece} {result : α} (isRead : read pieces = .ok (result, rest)) :
    ∃ piece, pieces = piece :: rest ∧ test piece = true ∧ value piece = result := by
  cases pieces with
  | nil => simp [atEnd] at isRead
  | cons piece pieces =>
      rw [atPiece] at isRead
      split at isRead
      · rename_i passes
        cases isRead
        exact ⟨piece, rfl, passes, rfl⟩
      · cases isRead

theorem exists_of_identifier {fault : DeclarationFault} {pieces rest : List Piece} {text : Text}
    (read : identifier fault pieces = .ok (text, rest)) :
    ∃ piece, pieces = piece :: rest ∧ piece.isIdentifier = true ∧ piece.token.text = text :=
  exists_of_single rfl (fun _ _ => rfl) read

theorem exists_of_word {expected : String} {fault : DeclarationFault} {pieces rest : List Piece}
    {passed : Unit} (read : word expected fault pieces = .ok (passed, rest)) :
    ∃ piece, pieces = piece :: rest ∧ piece.isWord expected = true := by
  obtain ⟨piece, isPieces, isWord, _⟩ :=
    @exists_of_single _ _ (·.isWord expected) (fun _ => ()) fault rfl (fun _ _ => rfl) _ _ _ read
  exact ⟨piece, isPieces, isWord⟩

theorem exists_of_source {pieces rest : List Piece} {literal : StringLiteral}
    (read : source pieces = .ok (literal, rest)) :
    ∃ piece, pieces = piece :: rest ∧ piece.isString = true ∧
      literalOf piece.token.text = literal :=
  exists_of_single rfl (fun _ _ => rfl) read

theorem exists_of_specifierName {pieces rest : List Piece} {name : Text}
    (read : specifierName pieces = .ok (name, rest)) :
    ∃ piece, pieces = piece :: rest ∧ piece.token.isName = true ∧ piece.token.text = name :=
  exists_of_single rfl (fun _ _ => rfl) read

/-- What follows a reader is read if both are. -/
theorem bind_eq_ok_iff {first : Except ε α} {next : α → Except ε β} {result : β} :
    first >>= next = .ok result ↔ ∃ value, first = .ok value ∧ next value = .ok result := by
  cases first <;> simp [bind, Except.bind]

/-! ## Bindings -/

/-- The words that make a binding.  A word that could announce a kind must be
told apart from a name by what follows it. -/
inductive BindingWords : Specifier → List Token → Prop
  | plain {kind : BindingKind} {name : Token} (isName : name.isName = true)
      (clear : kind ≠ .value → name ≠ .word "as") :
      BindingWords { kind, name := name.text } (kind.words ++ [name])
  | renamed {kind : BindingKind} {name new : Token} (isName : name.isName = true)
      (isNew : new.isName = true)
      (clear : kind = .value → new = .word "as" → name.announced? = none) :
      BindingWords { kind, name := name.text, renamed := some new.text }
        (kind.words ++ [name, .word "as", new])

/-- Reads a kind if `applies` holds of what follows its word.  Otherwise the word
is a name. -/
def kindWhere (applies : List Piece → Bool) : List Piece → BindingKind × List Piece
  | [] => (.value, [])
  | piece :: rest =>
    match kindWord? piece with
    | some kind => if applies rest then (kind, rest) else (.value, piece :: rest)
    | none => (.value, piece :: rest)

/-- A kind is read from its word, and only where it applies. -/
theorem exists_of_kindWhere {applies : List Piece → Bool} {pieces rest : List Piece}
    {kind : BindingKind} (read : kindWhere applies pieces = (kind, rest)) :
    ∃ front, pieces = front ++ rest ∧ words front = kind.words ∧
      (kind ≠ .value → applies rest = true) ∧
      (kind = .value → ∀ piece more, rest = piece :: more → (kindWord? piece).isSome = true →
        applies more = false) := by
  cases pieces with
  | nil =>
      cases read
      exact ⟨[], rfl, rfl, by simp, by simp⟩
  | cons piece pieces =>
      rw [kindWhere] at read
      split at read
      · rename_i announced isWord
        obtain ⟨notValue, isWords⟩ := words_of_announced? isWord
        split at read
        · rename_i follows
          cases read
          exact ⟨[piece], rfl, isWords.symm, fun _ => follows,
            fun isValue => absurd isValue notValue⟩
        · rename_i stops
          cases read
          refine ⟨[], rfl, rfl, by simp, fun _ _ _ same _ => ?_⟩
          obtain ⟨rfl, rfl⟩ := List.cons.inj same
          simpa using stops
      · rename_i noWord
        cases read
        refine ⟨[], rfl, rfl, by simp, fun _ _ _ same isWord => ?_⟩
        obtain ⟨rfl, rfl⟩ := List.cons.inj same
        simp [noWord] at isWord

theorem bindingKind_eq (pieces : List Piece) :
    bindingKind pieces = kindWhere announcesBinding pieces := by
  cases pieces <;> rfl

theorem exists_of_newName {pieces rest : List Piece} {renamed : Option Text}
    (read : newName pieces = .ok (renamed, rest)) :
    (renamed = none ∧ rest = pieces ∧ nextIs (·.isWord "as") pieces = false) ∨
      ∃ as new, pieces = as :: new :: rest ∧ as.token.toToken = .word "as" ∧
        new.token.isName = true ∧ renamed = some new.token.text := by
  cases pieces with
  | nil =>
      cases read
      exact .inl ⟨rfl, rfl, rfl⟩
  | cons as pieces =>
      rw [newName] at read
      split at read
      · rename_i isAs
        obtain ⟨⟨name, behind⟩, readName, isResult⟩ := bind_eq_ok_iff.mp read
        obtain ⟨new, rfl, isName, rfl⟩ := exists_of_specifierName readName
        cases isResult
        exact .inr ⟨as, new, rfl, Piece.isWord_iff.mp isAs, isName, rfl⟩
      · rename_i notAs
        cases read
        exact .inl ⟨rfl, rfl, by simpa [nextIs] using notAs⟩

/-- A comma is passed over behind a binding, and a closing brace is left. -/
theorem exists_of_separator {pieces rest : List Piece} (read : separator pieces = .ok rest) :
    ∃ sign behind, pieces = sign :: behind ∧
      (sign.token.toToken = .punct ',' ∧ rest = behind ∨
        sign.token.toToken = .punct '\x7d' ∧ rest = pieces) := by
  cases pieces with
  | nil => cases read
  | cons sign pieces =>
      rw [separator] at read
      split at read
      · rename_i isComma
        cases read
        exact ⟨sign, _, rfl, .inl ⟨Piece.isPunct_iff.mp isComma, rfl⟩⟩
      · split at read
        · rename_i isBrace
          cases read
          exact ⟨sign, pieces, rfl, .inr ⟨Piece.isPunct_iff.mp isBrace, rfl⟩⟩
        · cases read

/-- A name goes on with a binding unless it is an `as` that renames. -/
theorem announcesBinding_cons {name : Piece} (isName : name.token.isName = true)
    (rest : List Piece) :
    announcesBinding (name :: rest) = (!name.isWord "as" || nextIs (·.isWord "as") rest) := by
  have isName : (name.isIdentifier || name.isString) = true := isName
  cases isAs : name.isWord "as" <;> simp [announcesBinding, isAs, isName]

/-- A binding has the words that make it. -/
theorem exists_of_specifier {pieces rest : List Piece} {item : Specifier}
    (read : specifier pieces = .ok (item, rest)) :
    ∃ taken behind, pieces = taken ++ behind ∧ BindingWords item (words taken) ∧
      separator behind = .ok rest := by
  simp only [specifier, bind_eq_ok_iff, Prod.exists] at read
  obtain ⟨_, _, readName, renamed, behind, readNew, _, separated, isResult⟩ := read
  cases isResult
  obtain ⟨name, behindKind, isName, rfl⟩ := exists_of_specifierName readName
  have readKind : bindingKind pieces = ((bindingKind pieces).1, name :: _) :=
    Prod.ext rfl behindKind
  generalize (bindingKind pieces).1 = kind at readKind ⊢
  rw [bindingKind_eq] at readKind
  obtain ⟨front, isFront, isKind, follows, stops⟩ := exists_of_kindWhere readKind
  rcases exists_of_newName readNew with ⟨rfl, rfl, noAs⟩ | ⟨as, new, rfl, isWordAs, isNew, rfl⟩
  · refine ⟨front ++ [name], behind, by simpa using isFront, ?_, separated⟩
    rw [words_append, isKind]
    refine .plain isName fun notValue same => ?_
    simpa [announcesBinding_cons isName, Piece.isWord_iff.mpr same, noAs] using follows notValue
  · refine ⟨front ++ [name, as, new], behind, by simpa using isFront, ?_, separated⟩
    rw [words_append, isKind, words_cons, words_cons, isWordAs]
    refine .renamed isName isNew fun isValue isNewAs => ?_
    have asName : as.token.isName = true := by rw [isWordAs]; rfl
    by_contra isWord
    have stopped := stops isValue _ _ rfl (Option.isSome_iff_ne_none.mpr isWord)
    simp [announcesBinding_cons asName, nextIs, Piece.isWord_iff.mpr isNewAs] at stopped

/-! ## Braced lists -/

/-- The words that make a braced list, behind its opening brace. -/
inductive ListWords : List Specifier → List Token → Prop
  | nil : ListWords [] [.punct '\x7d']
  | last {item : Specifier} {tokens : List Token} (binding : BindingWords item tokens) :
      ListWords [item] (tokens ++ [.punct '\x7d'])
  | cons {item : Specifier} {items : List Specifier} {tokens more : List Token}
      (binding : BindingWords item tokens) (rest : ListWords items more) :
      ListWords (item :: items) (tokens ++ .punct ',' :: more)

theorem BindingWords.ne_nil {item : Specifier} {tokens : List Token}
    (binding : BindingWords item tokens) : tokens ≠ [] := by
  cases binding <;> simp

/-- Pieces that belong to a binding already read are passed over. -/
theorem specifiers_skip (skip : Nat) (pieces : List Piece) :
    specifiers skip pieces = specifiers 0 (pieces.drop skip) := by
  induction pieces generalizing skip with
  | nil => simp [specifiers]
  | cons piece pieces inductionHypothesis =>
      cases skip with
      | zero => rfl
      | succ skip => exact inductionHypothesis skip

/-- A list ends with a closing brace. -/
theorem specifiers_brace {brace : Piece} (isBrace : brace.token.toToken = .punct '\x7d')
    (rest : List Piece) : specifiers 0 (brace :: rest) = .ok ([], rest) := by
  rw [specifiers, if_pos (Piece.isPunct_iff.mpr isBrace)]

/-- Bindings are read one by one. -/
theorem specifiers_cons {piece : Piece} {pieces rest : List Piece} {item : Specifier}
    (notBrace : piece.token.toToken ≠ .punct '\x7d')
    (read : specifier (piece :: pieces) = .ok (item, rest)) :
    specifiers 0 (piece :: pieces) =
      (specifiers 0 rest >>= fun (items, behind) => .ok (item :: items, behind)) := by
  obtain ⟨taken, behind, isTaken, binding, separated⟩ := exists_of_specifier read
  have suffix : ∃ front, pieces = front ++ rest := by
    cases taken with
    | nil => exact absurd rfl binding.ne_nil
    | cons first taken =>
        obtain ⟨rfl, rfl⟩ := List.cons.inj isTaken
        obtain ⟨sign, after, rfl, ⟨_, rfl⟩ | ⟨_, rfl⟩⟩ := exists_of_separator separated
        · exact ⟨taken ++ [sign], by simp⟩
        · exact ⟨taken, rfl⟩
  obtain ⟨front, rfl⟩ := suffix
  rw [specifiers, if_neg (fun same => notBrace (Piece.isPunct_iff.mp same)), read]
  simp only
  rw [specifiers_skip, List.length_append, Nat.add_sub_cancel, List.drop_left]
  rfl

/-- A list of bindings has the words that make it. -/
theorem exists_of_specifiers {pieces rest : List Piece} {items : List Specifier}
    (read : specifiers 0 pieces = .ok (items, rest)) :
    ∃ taken, pieces = taken ++ rest ∧ ListWords items (words taken) := by
  -- Each binding leaves fewer pieces for the ones behind it.
  induction isLength : pieces.length using Nat.strongRecOn generalizing pieces items with
  | ind length inductionHypothesis =>
      cases pieces with
      | nil => cases read
      | cons piece pieces =>
          by_cases isBrace : piece.token.toToken = .punct '\x7d'
          · rw [specifiers_brace isBrace] at read
            cases read
            exact ⟨[piece], rfl, by simpa [isBrace] using ListWords.nil⟩
          · cases isItem : specifier (piece :: pieces) with
            | error malformed =>
                rw [specifiers, if_neg (fun same => isBrace (Piece.isPunct_iff.mp same)),
                  isItem] at read
                cases read
            | ok result =>
                obtain ⟨item, behind⟩ := result
                rw [specifiers_cons isBrace isItem, bind_eq_ok_iff] at read
                obtain ⟨⟨items, _⟩, readMore, isResult⟩ := read
                cases isResult
                obtain ⟨taken, after, isTaken, binding, separated⟩ := exists_of_specifier isItem
                obtain ⟨sign, left, rfl, ⟨isComma, rfl⟩ | ⟨isClosing, rfl⟩⟩ :=
                  exists_of_separator separated
                · have shorter : behind.length < length := by
                    rw [← isLength, isTaken]
                    simp only [List.length_append, List.length_cons]
                    omega
                  obtain ⟨more, rfl, list⟩ := inductionHypothesis _ shorter readMore rfl
                  refine ⟨taken ++ sign :: more, by simpa using isTaken, ?_⟩
                  rw [words_append, words_cons, isComma]
                  exact .cons binding list
                · rw [specifiers_brace isClosing] at readMore
                  cases readMore
                  refine ⟨taken ++ [sign], by simpa using isTaken, ?_⟩
                  rw [words_append, words_cons, isClosing]
                  exact .last binding

theorem exists_of_specifierList {pieces rest : List Piece} {list : SpecifierList}
    (read : specifierList pieces = .ok (list, rest)) :
    ∃ taken, pieces = taken ++ rest ∧ ListWords list.items (words taken) := by
  obtain ⟨⟨items, _⟩, readItems, isResult⟩ := bind_eq_ok_iff.mp read
  cases isResult
  exact exists_of_specifiers readItems

/-! ## Ends of declarations -/

/-- Whether words go on with the attributes of a module name. -/
def startsAttributes : List Token → Bool
  | first :: brace :: _ =>
    (first.isWord "with" || first.isWord "assert") && brace.isPunct '\x7b'
  | _ => false

/-- The words of attributes in front of `behind`, if there are any. -/
inductive AttributeWords (behind : List Token) : Bool → List Token → Prop
  | absent (stops : startsAttributes behind = false) : AttributeWords behind false []
  | present {first : Token} {inside : List Token}
      (isWord : first = .word "with" ∨ first = .word "assert")
      (inner : ∀ token ∈ inside, token ≠ .punct '\x7d') :
      AttributeWords behind true (first :: .punct '\x7b' :: (inside ++ [.punct '\x7d']))

/-- The semicolon in front of `behind`, if there is one. -/
inductive EndWords (behind : List Token) : List Token → Prop
  | absent (stops : behind.head? ≠ some (.punct ';')) : EndWords behind []
  | semicolon : EndWords behind [.punct ';']

/-- Attributes are the text of tokens that begin with a word and end with a
closing brace. -/
structure AttributeTokens (attributes : Text) (tokens : List Token) : Prop where
  spelled : attributes = Token.spell tokens
  starts : ∃ first more, tokens = first :: more ∧ first.kind = .identifier
  ends : [.punct '\x7d'] <:+ tokens

/-- The attributes of a declaration stand together among its tokens, and the words
between are theirs. -/
structure AttributesAmong (attributes : Option Text) (within tokens : List Token) : Prop where
  absent : attributes = none → within = []
  present : ∀ text ∈ attributes, ∃ inner, inner <:+: tokens ∧ AttributeTokens text inner ∧
    meaningful inner = within

theorem AttributesAmong.none (tokens : List Token) : AttributesAmong none [] tokens :=
  ⟨fun _ => rfl, by simp⟩

theorem AttributesAmong.mono {attributes : Option Text} {within tokens more : List Token}
    (among : AttributesAmong attributes within tokens) (inside : tokens <:+: more) :
    AttributesAmong attributes within more := by
  refine ⟨among.absent, fun text isText => ?_⟩
  obtain ⟨inner, isInner, isTokens⟩ := among.present text isText
  exact ⟨inner, isInner.trans inside, isTokens⟩

theorem attributes_of_stops {pieces : List Piece}
    (stops : startsAttributes (words pieces) = false) :
    attributes pieces = .ok (none, pieces) := by
  match pieces with
  | [] => rfl
  | [_] => rfl
  | first :: brace :: rest =>
      have stops :
          ¬((first.isWord "with" || first.isWord "assert") && brace.isPunct '\x7b') = true :=
        fun starts => Bool.false_ne_true (stops.symm.trans starts)
      exact if_neg stops

/-- Attributes run through the first closing brace. -/
theorem exists_of_attributes_starts {first brace : Piece} {pieces rest : List Piece}
    {written : Option Text}
    (starts : startsAttributes [first.token.toToken, brace.token.toToken] = true)
    (read : attributes (first :: brace :: pieces) = .ok (written, rest)) :
    ∃ inside closer, pieces = inside ++ closer :: rest ∧
      (∀ piece ∈ inside, piece.token.toToken ≠ .punct '\x7d') ∧
      closer.token.toToken = .punct '\x7d' ∧
      written = some (first.token.text ++ Piece.spell (brace :: inside ++ [closer])) := by
  have starts : ((first.isWord "with" || first.isWord "assert") && brace.isPunct '\x7b') = true :=
    starts
  rw [attributes, if_pos starts] at read
  simp only at read
  split at read
  · cases read
  · rename_i closer behind isBehind
    cases read
    refine ⟨_, closer, ?_, fun piece member same => ?_, ?_, rfl⟩
    · rw [← isBehind, List.takeWhile_append_dropWhile]
    · simpa [Piece.isPunct_iff.mpr same] using List.mem_takeWhile_imp member
    · have head := List.head?_dropWhile_not (fun piece : Piece => !piece.isPunct '\x7d') pieces
      rw [isBehind] at head
      exact Piece.isPunct_iff.mp (by simpa using head)

/-- Attributes are read from their words. -/
theorem exists_of_attributes {pieces rest : List Piece} {written : Option Text}
    (read : attributes pieces = .ok (written, rest)) (proper : ∀ piece ∈ pieces, piece.Proper) :
    ∃ taken, pieces = taken ++ rest ∧
      AttributeWords (words rest) written.isSome (words taken) ∧
      AttributesAmong written (words taken) (taken.flatMap Piece.tokens) := by
  cases starts : startsAttributes (words pieces) with
  | false =>
      rw [attributes_of_stops starts] at read
      cases read
      exact ⟨[], rfl, .absent starts, .none _⟩
  | true =>
      obtain ⟨first, brace, pieces, rfl⟩ : ∃ first brace rest, pieces = first :: brace :: rest := by
        match pieces with
        | [] => cases starts
        | [_] => cases starts
        | first :: brace :: rest => exact ⟨first, brace, rest, rfl⟩
      have starts : startsAttributes [first.token.toToken, brace.token.toToken] = true := starts
      obtain ⟨inside, closer, rfl, inner, closes, rfl⟩ := exists_of_attributes_starts starts read
      obtain ⟨isWord, isBrace⟩ := Bool.and_eq_true_iff.mp starts
      rw [Bool.or_eq_true, Token.isWord_iff, Token.isWord_iff] at isWord
      have isBrace := Token.isPunct_iff.mp isBrace
      refine ⟨first :: brace :: (inside ++ [closer]), by simp, ?_, by simp, ?_⟩
      · simp only [words_cons, words_append, words_nil, isBrace, closes]
        refine .present isWord fun token member => ?_
        obtain ⟨piece, isMember, rfl⟩ := List.mem_map.mp member
        exact inner piece isMember
      · rintro _ ⟨⟩
        have taken : ∀ piece ∈ first :: brace :: (inside ++ [closer]), piece.Proper :=
          fun piece member => proper piece (by simp at member ⊢; tauto)
        obtain ⟨ofFirst, ofRest⟩ := List.forall_mem_cons.mp taken
        -- The white space in front of the first word is not part of the attributes.
        refine ⟨first.token.toToken :: (brace :: (inside ++ [closer])).flatMap Piece.tokens,
          ⟨first.lead, [], by simp [Piece.tokens]⟩, ⟨?_, ⟨_, _, rfl, ?_⟩, ?_⟩, ?_⟩
        · rw [Token.spell_cons, spell_tokens]
          rfl
        · rcases isWord with isWord | isWord <;> exact congrArg Token.kind isWord
        · rw [← closes]
          exact ⟨first.token.toToken :: (brace :: inside).flatMap Piece.tokens ++ closer.lead,
            by simp [Piece.tokens]⟩
        · rw [words_cons, ← meaningful_tokens ofRest]
          simp [meaningful, ofFirst.token]

/-- A semicolon is passed over, if there is one. -/
theorem exists_of_semicolon (pieces : List Piece) :
    ∃ taken, pieces = taken ++ semicolon pieces ∧
      EndWords (words (semicolon pieces)) (words taken) := by
  cases pieces with
  | nil => exact ⟨[], rfl, .absent (by simp [semicolon])⟩
  | cons piece pieces =>
      rw [semicolon]
      split
      · rename_i isSign
        refine ⟨[piece], rfl, ?_⟩
        rw [words_cons, Piece.isPunct_iff.mp isSign]
        exact .semicolon
      · rename_i noSign
        refine ⟨[], rfl, .absent fun same => noSign (Piece.isPunct_iff.mpr ?_)⟩
        simpa using same

/-- What is read behind the bindings of a declaration: a module name and its
attributes. -/
theorem exists_of_module {pieces between rest : List Piece} {literal : StringLiteral}
    {written : Option Text} (readSource : source pieces = .ok (literal, between))
    (readAttributes : attributes between = .ok (written, rest))
    (proper : ∀ piece ∈ pieces, piece.Proper) :
    ∃ name taken, pieces = name :: (taken ++ rest) ∧ name.token.kind = .string ∧
      literalOf name.token.text = literal ∧
      AttributeWords (words rest) written.isSome (words taken) ∧
      AttributesAmong written (words taken) (taken.flatMap Piece.tokens) := by
  obtain ⟨name, rfl, isString, isLiteral⟩ := exists_of_source readSource
  obtain ⟨taken, rfl, isWords, among⟩ := exists_of_attributes readAttributes
    (List.forall_mem_cons.mp proper).2
  exact ⟨name, taken, rfl, Piece.isString_iff.mp isString, isLiteral, isWords, among⟩

/-! ## Imports -/

/-- The words of the bindings behind a default one: a namespace or a list. -/
inductive SecondWords : Option Text → Option (List Specifier) → List Token → Prop
  | star {name : Token} (isIdentifier : name.kind = .identifier) :
      SecondWords (some name.text) none [.punct '*', .word "as", name]
  | list {items : List Specifier} {tokens : List Token} (list : ListWords items tokens) :
      SecondWords none (some items) (.punct '\x7b' :: tokens)

/-- The words of the bindings of an `import` of some kind.  The comma behind a
default binding may be missing, unless the binding would then be taken for the
kind. -/
inductive ClauseWords (kind : BindingKind) :
    Option Text → Option Text → Option (List Specifier) → List Token → Prop
  | default {name : Token} (isIdentifier : name.kind = .identifier) :
      ClauseWords kind (some name.text) none none [name]
  | second {namespaceName : Option Text} {items : Option (List Specifier)} {tokens : List Token}
      (second : SecondWords namespaceName items tokens) :
      ClauseWords kind none namespaceName items tokens
  | both {name : Token} {namespaceName : Option Text} {items : Option (List Specifier)}
      {tokens : List Token} (isIdentifier : name.kind = .identifier)
      (second : SecondWords namespaceName items tokens) :
      ClauseWords kind (some name.text) namespaceName items (name :: .punct ',' :: tokens)
  | adjoined {name : Token} {namespaceName : Option Text} {items : Option (List Specifier)}
      {tokens : List Token} (isIdentifier : name.kind = .identifier)
      (clear : kind = .value → name.announced? = none)
      (second : SecondWords namespaceName items tokens) :
      ClauseWords kind (some name.text) namespaceName items (name :: tokens)

/-- The words of an `import` behind its first, in front of `behind`.  Those of its
attributes are `attributes`. -/
inductive ImportWords (behind attributes : List Token) : BareImport → List Token → Prop
  | bare {source : Token} {has : Bool} {ending : List Token} (isString : source.kind = .string)
      (hasAttributes : AttributeWords (ending ++ behind) has attributes)
      (ends : EndWords behind ending) :
      ImportWords behind attributes ⟨.value, none, none, none, literalOf source.text, has⟩
        (source :: (attributes ++ ending))
  | bindings {kind : BindingKind} {defaultName namespaceName : Option Text}
      {items : Option (List Specifier)} {source : Token} {has : Bool} {clauses ending : List Token}
      (isClauses : ClauseWords kind defaultName namespaceName items clauses)
      (isString : source.kind = .string)
      (hasAttributes : AttributeWords (ending ++ behind) has attributes)
      (ends : EndWords behind ending) :
      ImportWords behind attributes
        ⟨kind, defaultName, namespaceName, items, literalOf source.text, has⟩
        (kind.words ++ (clauses ++ .word "from" :: source :: (attributes ++ ending)))

/-- A second clause is read from its words, or there is none. -/
theorem exists_of_clause {pieces rest : List Piece} {found : Clause}
    (read : clause pieces = .ok (found, rest)) :
    (∃ taken, pieces = taken ++ rest ∧
        SecondWords found.namespaceName (found.specifiers.map SpecifierList.items) (words taken)) ∨
      (found = {} ∧ rest = pieces ∧ opensClause pieces = false) := by
  cases pieces with
  | nil =>
      cases read
      exact .inr ⟨rfl, rfl, rfl⟩
  | cons piece pieces =>
      rw [clause] at read
      split at read
      · rename_i isStar
        simp only [bind_eq_ok_iff, Prod.exists] at read
        obtain ⟨_, _, readAs, _, _, readName, isResult⟩ := read
        cases isResult
        obtain ⟨as, rfl, isAs⟩ := exists_of_word readAs
        obtain ⟨name, rfl, isIdentifier, rfl⟩ := exists_of_identifier readName
        refine .inl ⟨[piece, as, name], rfl, ?_⟩
        simp only [words_cons, words_nil, Piece.isPunct_iff.mp isStar, Piece.isWord_iff.mp isAs]
        exact .star (Piece.isIdentifier_iff.mp isIdentifier)
      · rename_i notStar
        split at read
        · rename_i isBrace
          obtain ⟨⟨list, _⟩, readList, isResult⟩ := bind_eq_ok_iff.mp read
          cases isResult
          obtain ⟨taken, rfl, list⟩ := exists_of_specifierList readList
          refine .inl ⟨piece :: taken, rfl, ?_⟩
          rw [words_cons, Piece.isPunct_iff.mp isBrace]
          exact .list list
        · rename_i notBrace
          cases read
          exact .inr ⟨rfl, rfl, by simp [opensClause, nextIs, notStar, notBrace]⟩

/-- A second clause begins with a sign. -/
theorem SecondWords.exists_sign {namespaceName : Option Text} {items : Option (List Specifier)}
    {taken : List Piece} (second : SecondWords namespaceName items (words taken)) :
    ∃ sign more, taken = sign :: more ∧ sign.isPunct ',' = false ∧ sign.isWord "from" = false := by
  cases taken with
  | nil =>
      generalize isWords : words [] = tokens at second
      cases second <;> cases isWords
  | cons piece taken =>
      obtain ⟨lead, ⟨token, start⟩⟩ := piece
      rw [words_cons] at second
      refine ⟨_, _, rfl, ?_⟩
      generalize isWords : token :: words taken = tokens at second
      cases second with
      | star | list =>
          obtain ⟨rfl, _⟩ := List.cons.inj isWords
          exact ⟨rfl, rfl⟩

/-- The bindings of an `import` are read as a default one, where there is one, and a
second clause. -/
theorem exists_of_clauses {pieces between rest : List Piece} {defaultName : Option Text}
    {found : Clause} {kind : BindingKind}
    (stops : kind = .value → ∀ piece more, pieces = piece :: more →
      (kindWord? piece).isSome = true → bindsDefault more = true)
    (readDefault : defaultBinding pieces = .ok (defaultName, between))
    (readClause : clause between = .ok (found, rest))
    (some : ¬(defaultName.isNone && found.namespaceName.isNone && found.specifiers.isNone) = true) :
    ∃ taken, pieces = taken ++ rest ∧
      ClauseWords kind defaultName found.namespaceName (found.specifiers.map SpecifierList.items)
        (words taken) := by
  cases pieces with
  | nil =>
      cases readDefault
      cases readClause
      simp at some
  | cons piece pieces =>
      rw [defaultBinding] at readDefault
      split at readDefault
      · rename_i isIdentifier
        have isIdentifier := Piece.isIdentifier_iff.mp isIdentifier
        split at readDefault
        · rename_i comma
          split at readDefault
          · rename_i opens
            cases readDefault
            obtain ⟨sign, pieces, rfl⟩ : ∃ sign rest, pieces = sign :: rest := by
              cases pieces with
              | nil => simp [nextIs] at comma
              | cons sign rest => exact ⟨sign, rest, rfl⟩
            have isComma : sign.token.toToken = .punct ',' :=
              Piece.isPunct_iff.mp (by simpa [nextIs] using comma)
            rcases exists_of_clause readClause with ⟨taken, isTaken, second⟩ | ⟨_, _, stops⟩
            · obtain rfl : pieces = taken ++ rest := isTaken
              refine ⟨piece :: sign :: taken, rfl, ?_⟩
              rw [words_cons, words_cons, isComma]
              exact .both isIdentifier second
            · exact absurd (opens.symm.trans stops) (by simp)
          · cases readDefault
        · cases readDefault
          rcases exists_of_clause readClause with ⟨taken, isTaken, second⟩ | ⟨rfl, rfl, _⟩
          · obtain rfl := isTaken
            refine ⟨piece :: taken, rfl, .adjoined isIdentifier (fun isValue => ?_) second⟩
            by_contra isWord
            obtain ⟨sign, more, rfl, notComma, notFrom⟩ := second.exists_sign
            have binds := stops isValue piece _ rfl (Option.isSome_iff_ne_none.mpr isWord)
            simp [bindsDefault, notComma, notFrom] at binds
          · exact ⟨[piece], rfl, .default isIdentifier⟩
      · cases readDefault
        rcases exists_of_clause readClause with ⟨taken, isTaken, second⟩ | ⟨rfl, _, _⟩
        · exact ⟨taken, isTaken, .second second⟩
        · simp at some

theorem importKind_eq (pieces : List Piece) :
    importKind pieces = kindWhere (!bindsDefault ·) pieces := by
  cases pieces with
  | nil => rfl
  | cons piece pieces =>
      rw [importKind, kindWhere]
      cases kindWord? piece <;> cases bindsDefault pieces <;> rfl

/-- An `import` has the words that make it. -/
theorem exists_of_importDeclaration {pieces rest : List Piece} {declaration : ImportDeclaration}
    (read : importDeclaration pieces = .ok (declaration, rest))
    (proper : ∀ piece ∈ pieces, piece.Proper) :
    ∃ taken within, pieces = taken ++ rest ∧
      ImportWords (words rest) within declaration.bare (words taken) ∧
      AttributesAmong declaration.attributes within (taken.flatMap Piece.tokens) := by
  rw [importDeclaration] at read
  split at read
  · simp only [bareImport, bind_eq_ok_iff, Prod.exists] at read
    obtain ⟨literal, between, readSource, written, behind, readAttributes, isResult⟩ := read
    cases isResult
    obtain ⟨name, taken, rfl, isString, rfl, isAttributes, among⟩ :=
      exists_of_module readSource readAttributes proper
    obtain ⟨ending, isEnding, ends⟩ := exists_of_semicolon behind
    generalize semicolon behind = rest at isEnding ends ⊢
    subst isEnding
    refine ⟨name :: (taken ++ ending), words taken, by simp, ?_, ?_⟩
    · rw [words_append] at isAttributes
      rw [words_cons, words_append]
      exact .bare isString isAttributes ends
    · exact among.mono ⟨name.tokens, ending.flatMap Piece.tokens, by simp⟩
  · obtain ⟨kind, behindKind, readKind⟩ :
        ∃ kind behind, kindWhere (!bindsDefault ·) pieces = (kind, behind) := ⟨_, _, rfl⟩
    simp only [bindingImport, importKind_eq, readKind] at read
    obtain ⟨⟨defaultName, between⟩, readDefault, read⟩ := bind_eq_ok_iff.mp read
    obtain ⟨⟨found, behindClauses⟩, readClause, read⟩ := bind_eq_ok_iff.mp read
    simp only at read
    split at read
    · cases read
    · rename_i some
      simp only [bind_eq_ok_iff, Prod.exists] at read
      obtain ⟨_, fromSource, readFrom, literal, between, readSource, written, behind,
        readAttributes, isResult⟩ := read
      cases isResult
      obtain ⟨word, rfl, isFrom⟩ := exists_of_word readFrom
      obtain ⟨front, rfl, isKind, _, stops⟩ := exists_of_kindWhere readKind
      obtain ⟨clauses, rfl, isClauses⟩ := exists_of_clauses
        (fun isValue piece more same isWord => by simpa using stops isValue piece more same isWord)
        readDefault readClause some
      have sourceProper : ∀ piece ∈ fromSource, piece.Proper := fun piece member =>
        proper piece (List.mem_append_right _ (List.mem_append_right _ (.tail _ member)))
      obtain ⟨name, taken, rfl, isString, rfl, isAttributes, among⟩ :=
        exists_of_module readSource readAttributes sourceProper
      obtain ⟨ending, isEnding, ends⟩ := exists_of_semicolon behind
      generalize semicolon behind = rest at isEnding ends ⊢
      subst isEnding
      refine ⟨front ++ (clauses ++ word :: name :: (taken ++ ending)), words taken, by simp, ?_, ?_⟩
      · rw [words_append] at isAttributes
        simp only [words_append, words_cons, isKind, Piece.isWord_iff.mp isFrom]
        exact .bindings isClauses isString isAttributes ends
      · exact among.mono ⟨(front ++ (clauses ++ [word, name])).flatMap Piece.tokens,
          ending.flatMap Piece.tokens, by simp⟩

/-! ## Exports -/

/-- The words of an `export` behind its first, in front of `behind`.  Those of its
attributes are `attributes`. -/
inductive ExportWords (behind attributes : List Token) : BareExport → List Token → Prop
  | own {kind : BindingKind} {items : List Specifier} {list ending : List Token}
      (isList : ListWords items list) (noSource : (ending ++ behind).head? ≠ some (.word "from"))
      (noAttributes : attributes = []) (ends : EndWords behind ending) :
      ExportWords behind attributes ⟨kind, items, none, false⟩
        (kind.words ++ .punct '\x7b' :: (list ++ ending))
  | reexport {kind : BindingKind} {items : List Specifier} {source : Token} {has : Bool}
      {list ending : List Token} (isList : ListWords items list)
      (isString : source.kind = .string)
      (hasAttributes : AttributeWords (ending ++ behind) has attributes)
      (ends : EndWords behind ending) :
      ExportWords behind attributes ⟨kind, items, some (literalOf source.text), has⟩
        (kind.words ++ .punct '\x7b' :: (list ++ .word "from" :: source :: (attributes ++ ending)))

theorem exportKind_eq (pieces : List Piece) :
    exportKind pieces = kindWhere (nextIs (·.isPunct '\x7b')) pieces := by
  cases pieces <;> rfl

/-- The module of an `export` is read from its words, or there is none. -/
theorem exists_of_reexport {pieces rest : List Piece} {from? : Option StringLiteral}
    {written : Option Text} (read : reexport pieces = .ok ((from?, written), rest))
    (proper : ∀ piece ∈ pieces, piece.Proper) :
    (from? = none ∧ written = none ∧ rest = pieces ∧
        (words pieces).head? ≠ some (.word "from")) ∨
      ∃ word name taken, pieces = word :: name :: (taken ++ rest) ∧
        word.token.toToken = .word "from" ∧ name.token.kind = .string ∧
        from? = some (literalOf name.token.text) ∧
        AttributeWords (words rest) written.isSome (words taken) ∧
        AttributesAmong written (words taken) (taken.flatMap Piece.tokens) := by
  cases pieces with
  | nil =>
      cases read
      exact .inl ⟨rfl, rfl, rfl, by simp⟩
  | cons word pieces =>
      rw [reexport] at read
      split at read
      · rename_i isFrom
        simp only [bind_eq_ok_iff, Prod.exists] at read
        obtain ⟨literal, between, readSource, text, behind, readAttributes, isResult⟩ := read
        cases isResult
        obtain ⟨name, taken, rfl, isString, rfl, isAttributes, among⟩ :=
          exists_of_module readSource readAttributes (List.forall_mem_cons.mp proper).2
        exact .inr ⟨word, name, taken, rfl, Piece.isWord_iff.mp isFrom, isString, rfl, isAttributes,
          among⟩
      · rename_i notFrom
        cases read
        refine .inl ⟨rfl, rfl, rfl, fun same => notFrom (Piece.isWord_iff.mpr ?_)⟩
        simpa using same

/-- An `export` with a braced list has the words that make it. -/
theorem exists_of_exportDeclaration {pieces rest : List Piece} {declaration : ExportDeclaration}
    (read : exportDeclaration pieces = .ok (some declaration, rest))
    (proper : ∀ piece ∈ pieces, piece.Proper) :
    ∃ taken within, pieces = taken ++ rest ∧
      ExportWords (words rest) within declaration.bare (words taken) ∧
      AttributesAmong declaration.attributes within (taken.flatMap Piece.tokens) := by
  rw [exportDeclaration] at read
  split at read
  · rename_i kind brace behindBrace readKind
    split at read
    · rename_i isBrace
      simp only [bind_eq_ok_iff, Prod.exists] at read
      obtain ⟨list, behindList, readList, from?, written, behind, readModule, isResult⟩ := read
      cases isResult
      rw [exportKind_eq] at readKind
      obtain ⟨front, rfl, isKind, _, _⟩ := exists_of_kindWhere readKind
      obtain ⟨items, rfl, isList⟩ := exists_of_specifierList readList
      have moduleProper : ∀ piece ∈ behindList, piece.Proper := fun piece member =>
        proper piece (List.mem_append_right _ (.tail _ (List.mem_append_right _ member)))
      obtain ⟨ending, isEnding, ends⟩ := exists_of_semicolon behind
      rcases exists_of_reexport readModule moduleProper with ⟨rfl, rfl, rfl, noFrom⟩ |
        ⟨word, name, taken, rfl, isFrom, isString, rfl, isAttributes, among⟩
      · generalize semicolon behind = rest at isEnding ends ⊢
        subst isEnding
        refine ⟨front ++ brace :: (items ++ ending), [], by simp, ?_, .none _⟩
        rw [words_append] at noFrom
        simp only [words_append, words_cons, isKind, Piece.isPunct_iff.mp isBrace]
        exact .own isList noFrom rfl ends
      · generalize semicolon behind = rest at isEnding ends ⊢
        subst isEnding
        refine ⟨front ++ brace :: (items ++ word :: name :: (taken ++ ending)), words taken,
          by simp, ?_, ?_⟩
        · rw [words_append] at isAttributes
          simp only [words_append, words_cons, isKind, Piece.isPunct_iff.mp isBrace, isFrom]
          exact .reexport isList isString isAttributes ends
        · exact among.mono ⟨(front ++ brace :: (items ++ [word, name])).flatMap Piece.tokens,
            ending.flatMap Piece.tokens, by simp⟩
    · cases read
  · cases read

end Declaration

end Deflow
