import Deflow.Proofs.Document.Outline

/-!
# Words are read as the declarations they make

The grammar says which words make which declaration, and every declaration has such
words.  This file is the way back: pieces with the words of a declaration are read as
that declaration, whatever their layout is.  What stands behind a declaration matters
only where it could go on, with attributes, a module name or a semicolon.  The layout
shows in two places: a list remembers whether it went over several lines, and attributes
are kept as they were written.
-/

namespace Deflow

open Script

/-! ## Words -/

theorem words_eq_cons_iff {pieces : List Piece} {token : Token} {tokens : List Token} :
    words pieces = token :: tokens ↔
      ∃ piece behind, pieces = piece :: behind ∧ piece.token.toToken = token ∧
        words behind = tokens :=
  List.map_eq_cons_iff

theorem words_eq_append_iff {pieces : List Piece} {first second : List Token} :
    words pieces = first ++ second ↔
      ∃ front back, pieces = front ++ back ∧ words front = first ∧ words back = second :=
  List.map_eq_append_iff

theorem words_eq_singleton_iff {pieces : List Piece} {token : Token} :
    words pieces = [token] ↔ ∃ piece, pieces = [piece] ∧ piece.token.toToken = token :=
  List.map_eq_singleton_iff

namespace Declaration

/-! ## Kinds -/

/-- The pieces of a kind's word. -/
theorem exists_of_words_eq_kind {front : List Piece} {kind : BindingKind}
    (isWords : words front = kind.words) :
    (kind = .value ∧ front = []) ∨
      ∃ piece, front = [piece] ∧ kind ≠ .value ∧ kindWord? piece = some kind := by
  have ofWord {word : String} (isWord : words front = [.word word])
      (announces : (Token.word word).announced? = some kind) :
      ∃ piece, front = [piece] ∧ kindWord? piece = some kind := by
    rcases words_eq_singleton_iff.mp isWord with ⟨piece, rfl, isToken⟩
    refine ⟨piece, rfl, ?_⟩
    rw [← announces, ← isToken]
    rfl
  cases kind with
  | value => exact .inl ⟨rfl, List.map_eq_nil_iff.mp isWords⟩
  | type | typeof =>
      rcases ofWord isWords rfl with ⟨piece, isFront, announces⟩
      exact .inr ⟨piece, isFront, by simp, announces⟩

theorem kind_of_kindWord? {piece : Piece} {kind : BindingKind}
    (isWord : kindWord? piece = some kind) : piece.token.kind = .identifier := by
  unfold kindWord? at isWord
  split at isWord
  · rename_i isIdentifier
    exact Piece.isIdentifier_iff.mp isIdentifier
  · cases isWord

/-- A kind is read where it applies, and no kind where the first word is a name. -/
theorem kindWhere_of_words {applies : List Piece → Bool} {front rest : List Piece}
    {kind : BindingKind} (isWords : words front = kind.words)
    (follows : kind ≠ .value → applies rest = true)
    (stops : kind = .value → ∀ piece more, rest = piece :: more → (kindWord? piece).isSome = true →
      applies more = false) :
    kindWhere applies (front ++ rest) = (kind, rest) := by
  rcases exists_of_words_eq_kind isWords with ⟨rfl, rfl⟩ | ⟨piece, rfl, notValue, isWord⟩
  · rw [List.nil_append]
    cases rest with
    | nil => rfl
    | cons piece rest =>
        rw [kindWhere]
        split
        · rename_i isWord
          rw [if_neg (by simp [stops rfl piece rest rfl (by simp [isWord])])]
        · rfl
  · rw [List.singleton_append, kindWhere, isWord]
    exact if_pos (follows notValue)

/-! ## Bindings -/

theorem newName_of_stops {pieces : List Piece} (stops : nextIs (·.isWord "as") pieces = false) :
    newName pieces = .ok (none, pieces) := by
  cases pieces with
  | nil => rfl
  | cons piece pieces => exact if_neg (by simpa [nextIs] using stops)

theorem newName_of_words {as new : Piece} (isAs : as.token.toToken = .word "as")
    (isName : new.token.isName = true) (rest : List Piece) :
    newName (as :: new :: rest) = .ok (some new.token.text, rest) := by
  have readName : specifierName (new :: rest) = .ok (new.token.text, rest) := if_pos isName
  rw [newName, if_pos (Piece.isWord_iff.mpr isAs), readName]
  rfl

theorem separator_comma {sign : Piece} (isComma : sign.token.toToken = .punct ',')
    (rest : List Piece) : separator (sign :: rest) = .ok rest :=
  if_pos (Piece.isPunct_iff.mpr isComma)

theorem separator_brace {sign : Piece} (isBrace : sign.token.toToken = .punct '\x7d')
    (rest : List Piece) : separator (sign :: rest) = .ok (sign :: rest) := by
  have notComma : ¬sign.isPunct ',' = true := fun isComma =>
    absurd (isBrace.symm.trans (Piece.isPunct_iff.mp isComma)) (by decide)
  rw [separator, if_neg notComma, if_pos (Piece.isPunct_iff.mpr isBrace)]

/-- No binding goes on with a comma or a brace. -/
theorem not_announcesBinding_of_separator {pieces rest : List Piece}
    (separated : separator pieces = .ok rest) :
    announcesBinding pieces = false ∧ nextIs (·.isWord "as") pieces = false := by
  rcases exists_of_separator separated with ⟨⟨lead, ⟨token, start⟩⟩, behind, rfl, isSign⟩
  rcases isSign with ⟨rfl, _⟩ | ⟨rfl, _⟩ <;> exact ⟨rfl, rfl⟩

/-- The words of a binding are read as that binding. -/
theorem specifier_of_words {taken behind rest : List Piece} {item : Specifier}
    (binding : BindingWords item (words taken)) (separated : separator behind = .ok rest) :
    specifier (taken ++ behind) = .ok (item, rest) := by
  rcases not_announcesBinding_of_separator separated with ⟨notAnnounced, notAs⟩
  -- The readers of a binding follow each other, the kind first.
  have sequence {kind : BindingKind} {name : Piece} {more : List Piece} {renamed : Option Text}
      (readKind : bindingKind (taken ++ behind) = (kind, name :: more))
      (isName : name.token.isName = true) (readNew : newName more = .ok (renamed, behind)) :
      specifier (taken ++ behind) = .ok (⟨kind, name.token.text, renamed⟩, rest) := by
    have readName : specifierName (name :: more) = .ok (name.token.text, more) := if_pos isName
    simp only [specifier, readKind]
    rw [readName]
    refine bind_eq_ok_iff.mpr ⟨_, rfl, ?_⟩
    simp only [readNew]
    refine bind_eq_ok_iff.mpr ⟨_, rfl, ?_⟩
    simp only [separated]
    rfl
  generalize isWords : words taken = tokens at binding
  cases binding with
  | @plain kind name isName clear =>
      rcases words_eq_append_iff.mp isWords with ⟨front, back, rfl, isKind, isBack⟩
      rcases words_eq_singleton_iff.mp isBack with ⟨piece, rfl, rfl⟩
      refine sequence ?_ isName (newName_of_stops notAs)
      rw [bindingKind_eq, List.append_assoc]
      apply kindWhere_of_words isKind
      · intro notValue
        have notWord : piece.isWord "as" = false := by
          simpa using fun same => clear notValue (Piece.isWord_iff.mp same)
        exact (announcesBinding_cons isName behind).trans (by simp [notWord])
      · intro _ _ _ same _
        rcases List.cons.inj same with ⟨_, rfl⟩
        exact notAnnounced
  | @renamed kind name new isName isNew clear =>
      rcases words_eq_append_iff.mp isWords with ⟨front, back, rfl, isKind, isBack⟩
      rcases words_eq_cons_iff.mp isBack with ⟨piece, behindName, rfl, rfl, isAsNew⟩
      rcases words_eq_cons_iff.mp isAsNew with ⟨as, behindAs, rfl, isAs, isNewWord⟩
      rcases words_eq_singleton_iff.mp isNewWord with ⟨newPiece, rfl, rfl⟩
      have asName : as.token.isName = true := by rw [isAs]; rfl
      refine sequence ?_ isName (newName_of_words isAs isNew behind)
      rw [bindingKind_eq, List.append_assoc]
      apply kindWhere_of_words isKind
      · intro _
        refine (announcesBinding_cons isName _).trans ?_
        simp [nextIs, Piece.isWord_iff.mpr isAs]
      · intro isValue _ _ same isWord
        rcases List.cons.inj same with ⟨rfl, rfl⟩
        have notWord : newPiece.isWord "as" = false := by
          by_contra isNewAs
          have noKind := clear isValue (Piece.isWord_iff.mp (by simpa using isNewAs))
          exact Option.isSome_iff_ne_none.mp isWord noKind
        refine (announcesBinding_cons asName _).trans ?_
        simp [nextIs, Piece.isWord_iff.mpr isAs, notWord]

/-! ## Braced lists -/

/-- A binding begins with a name or with a word that could be one. -/
theorem BindingWords.exists_head {item : Specifier} {tokens : List Token}
    (binding : BindingWords item tokens) :
    ∃ first more, tokens = first :: more ∧ first.isName = true := by
  cases binding with
  | @plain kind name isName clear =>
      cases kind with
      | value => exact ⟨_, _, rfl, isName⟩
      | type | typeof => exact ⟨_, _, rfl, rfl⟩
  | @renamed kind name new isName isNew clear =>
      cases kind with
      | value => exact ⟨_, _, rfl, isName⟩
      | type | typeof => exact ⟨_, _, rfl, rfl⟩

/-- A binding in front of others is read first. -/
theorem specifiers_of_binding {taken behind rest : List Piece} {item : Specifier}
    (binding : BindingWords item (words taken)) (separated : separator behind = .ok rest) :
    specifiers 0 (taken ++ behind) =
      (specifiers 0 rest >>= fun (items, left) => .ok (item :: items, left)) := by
  have readItem := specifier_of_words binding separated
  rcases binding.exists_head with ⟨first, more, isWords, isName⟩
  rcases words_eq_cons_iff.mp isWords with ⟨piece, others, rfl, rfl, _⟩
  refine specifiers_cons (fun isBrace => ?_) readItem
  rw [isBrace] at isName
  cases isName

/-- Words that make a list are read as that list. -/
theorem specifiers_of_words {items : List Specifier} {taken : List Piece}
    (list : ListWords items (words taken)) (rest : List Piece) :
    specifiers 0 (taken ++ rest) = .ok (items, rest) := by
  generalize isWords : words taken = tokens at list
  induction list generalizing taken with
  | nil =>
      rcases words_eq_singleton_iff.mp isWords with ⟨brace, rfl, isBrace⟩
      exact specifiers_brace isBrace rest
  | last binding =>
      rcases words_eq_append_iff.mp isWords with ⟨front, back, rfl, rfl, isBack⟩
      rcases words_eq_singleton_iff.mp isBack with ⟨brace, rfl, isBrace⟩
      rw [List.append_assoc, List.singleton_append,
        specifiers_of_binding binding (separator_brace isBrace rest), specifiers_brace isBrace]
      rfl
  | cons binding more inductionHypothesis =>
      rcases words_eq_append_iff.mp isWords with ⟨front, back, rfl, rfl, isBack⟩
      rcases words_eq_cons_iff.mp isBack with ⟨comma, behind, rfl, isComma, rfl⟩
      rw [List.append_assoc, List.cons_append,
        specifiers_of_binding binding (separator_comma isComma _), inductionHypothesis rfl]
      rfl

/-- The list that pieces are read as, behind its opening brace. -/
def listOf (pieces : List Piece) (items : List Specifier) : SpecifierList where
  items := items
  multiline := (Piece.spell pieces).contains '\n'

theorem specifierList_of_words {items : List Specifier} {pieces : List Piece}
    (list : ListWords items (words pieces)) (rest : List Piece) :
    specifierList (pieces ++ rest) = .ok (listOf pieces items, rest) := by
  refine bind_eq_ok_iff.mpr ⟨_, specifiers_of_words list rest, ?_⟩
  simp only [taken_append]
  rfl

/-! ## Ends of declarations -/

/-- The attributes that pieces are read as. -/
def attributesOf : List Piece → Option Text
  | [] => none
  | first :: more => some (first.token.text ++ Piece.spell more)

/-- Attributes run through the first closing brace. -/
theorem attributes_of_starts {first brace closer : Piece} {inside rest : List Piece}
    (starts : startsAttributes [first.token.toToken, brace.token.toToken] = true)
    (inner : ∀ piece ∈ inside, piece.token.toToken ≠ .punct '\x7d')
    (closes : closer.token.toToken = .punct '\x7d') :
    attributes (first :: brace :: (inside ++ closer :: rest)) =
      .ok (attributesOf (first :: brace :: (inside ++ [closer])), rest) := by
  have notBrace : ∀ piece ∈ inside, (!piece.isPunct '\x7d') = true := fun piece member => by
    simpa using fun same => inner piece member (Piece.isPunct_iff.mp same)
  have isBrace : (!closer.isPunct '\x7d') = false := by simp [Piece.isPunct_iff.mpr closes]
  have inFront : (inside ++ closer :: rest).takeWhile (!·.isPunct '\x7d') = inside := by
    rw [List.takeWhile_append_of_pos notBrace, List.takeWhile_cons_of_neg (by simp [isBrace]),
      List.append_nil]
  have behind : (inside ++ closer :: rest).dropWhile (!·.isPunct '\x7d') = closer :: rest := by
    rw [List.dropWhile_append_of_pos notBrace, List.dropWhile_cons_of_neg (by simp [isBrace])]
  have starts : ((first.isWord "with" || first.isWord "assert") && brace.isPunct '\x7b') = true :=
    starts
  rw [attributes, if_pos starts]
  simp only [inFront, behind]
  rfl

/-- Words of attributes are read as attributes. -/
theorem attributes_of_words {pieces rest : List Piece} {has : Bool}
    (isWords : AttributeWords (words rest) has (words pieces)) :
    attributes (pieces ++ rest) = .ok (attributesOf pieces, rest) := by
  generalize isPieces : words pieces = tokens at isWords
  cases isWords with
  | absent stops =>
      rw [List.map_eq_nil_iff.mp isPieces]
      exact attributes_of_stops stops
  | @present first inside isWord inner =>
      rcases words_eq_cons_iff.mp isPieces with ⟨firstPiece, behindFirst, rfl, rfl, isBehind⟩
      rcases words_eq_cons_iff.mp isBehind with ⟨brace, behindBrace, rfl, isBrace, isInside⟩
      rcases words_eq_append_iff.mp isInside with ⟨insidePieces, back, rfl, rfl, isBack⟩
      rcases words_eq_singleton_iff.mp isBack with ⟨closer, rfl, closes⟩
      have starts : startsAttributes [firstPiece.token.toToken, brace.token.toToken] = true := by
        rw [isBrace]
        rcases isWord with isWord | isWord <;> rw [isWord] <;> decide
      have read := @attributes_of_starts _ _ _ _ rest starts
        (fun piece member => inner _ (List.mem_map_of_mem member)) closes
      simpa using read

theorem semicolon_of_words {pieces rest : List Piece}
    (ends : EndWords (words rest) (words pieces)) : semicolon (pieces ++ rest) = rest := by
  generalize isPieces : words pieces = tokens at ends
  cases ends with
  | absent stops =>
      rw [List.map_eq_nil_iff.mp isPieces]
      cases rest with
      | nil => rfl
      | cons piece rest =>
          refine if_neg fun isSign => stops ?_
          rw [words_cons, List.head?_cons, Piece.isPunct_iff.mp isSign]
  | semicolon =>
      rcases words_eq_singleton_iff.mp isPieces with ⟨piece, rfl, isSign⟩
      exact if_pos (Piece.isPunct_iff.mpr isSign)

/-! ## Clauses of imports -/

/-- The pieces behind the first opening brace. -/
def inBraces (pieces : List Piece) : List Piece :=
  (pieces.dropWhile (!·.isPunct '\x7b')).drop 1

theorem inBraces_brace {brace : Piece} (isBrace : brace.isPunct '\x7b' = true)
    (pieces : List Piece) : inBraces (brace :: pieces) = pieces := by
  rw [inBraces, List.dropWhile_cons_of_neg (by simp [isBrace])]
  rfl

theorem inBraces_cons {piece : Piece} (noBrace : piece.isPunct '\x7b' = false)
    (pieces : List Piece) : inBraces (piece :: pieces) = inBraces pieces := by
  rw [inBraces, List.dropWhile_cons_of_pos (by simp [noBrace])]
  rfl

/-- What the bindings behind a default one are read as. -/
def clauseOf (pieces : List Piece) (namespaceName : Option Text)
    (items : Option (List Specifier)) : Clause where
  namespaceName := namespaceName
  specifiers := items.map (listOf (inBraces pieces))

theorem clauseOf_cons {piece : Piece} (noBrace : piece.isPunct '\x7b' = false)
    (pieces : List Piece) : clauseOf (piece :: pieces) = clauseOf pieces := by
  funext namespaceName items
  rw [clauseOf, clauseOf, inBraces_cons noBrace]

theorem clause_of_words {namespaceName : Option Text} {items : Option (List Specifier)}
    {pieces : List Piece} (second : SecondWords namespaceName items (words pieces))
    (rest : List Piece) :
    opensClause (pieces ++ rest) = true ∧
      clause (pieces ++ rest) = .ok (clauseOf pieces namespaceName items, rest) := by
  generalize isWords : words pieces = tokens at second
  cases second with
  | star isIdentifier =>
      rcases words_eq_cons_iff.mp isWords with ⟨star, behindStar, rfl, isStar, isAsName⟩
      rcases words_eq_cons_iff.mp isAsName with ⟨as, behindAs, rfl, isAs, isNameWord⟩
      rcases words_eq_singleton_iff.mp isNameWord with ⟨name, rfl, rfl⟩
      have isStar := Piece.isPunct_iff.mpr isStar
      have readAs : word "as" .missingAs (as :: name :: rest) = .ok ((), name :: rest) :=
        if_pos (Piece.isWord_iff.mpr isAs)
      have readName : identifier .missingNamespaceName (name :: rest) =
          .ok (name.token.text, rest) :=
        if_pos (Piece.isIdentifier_iff.mpr isIdentifier)
      refine ⟨by simp [opensClause, nextIs, isStar], ?_⟩
      simp only [List.cons_append, List.nil_append, clause, isStar, if_true]
      exact bind_eq_ok_iff.mpr ⟨_, readAs, bind_eq_ok_iff.mpr ⟨_, readName, rfl⟩⟩
  | list list =>
      rcases words_eq_cons_iff.mp isWords with ⟨brace, behind, rfl, isBrace, rfl⟩
      have notStar : ¬brace.isPunct '*' = true := fun isStar =>
        absurd (isBrace.symm.trans (Piece.isPunct_iff.mp isStar)) (by decide)
      have isBrace := Piece.isPunct_iff.mpr isBrace
      refine ⟨by simp [opensClause, nextIs, isBrace], ?_⟩
      rw [List.cons_append, clause, if_neg notStar, if_pos isBrace, clauseOf,
        inBraces_brace isBrace]
      exact bind_eq_ok_iff.mpr ⟨_, specifierList_of_words list rest, rfl⟩

theorem clause_of_stops {pieces : List Piece} (stops : opensClause pieces = false) :
    clause pieces = .ok ({}, pieces) := by
  cases pieces with
  | nil => rfl
  | cons piece pieces =>
      have signs : piece.isPunct '*' = false ∧ piece.isPunct '\x7b' = false := by
        simpa [opensClause, nextIs] using stops
      simp [clause, signs]

/-- A sign is no name, no string and no word. -/
theorem not_name_of_sign {sign : Piece} (isSign : sign.token.kind = .punctuation) :
    sign.isIdentifier = false ∧ sign.isString = false ∧ kindWord? sign = none ∧
      ∀ word, sign.isWord word = false := by
  rcases sign with ⟨lead, ⟨⟨kind, text⟩, start⟩⟩
  obtain rfl : kind = .punctuation := isSign
  exact ⟨rfl, rfl, rfl, fun _ => rfl⟩

/-- An identifier is no sign and no string. -/
theorem not_sign_of_identifier {name : Piece} (isIdentifier : name.token.kind = .identifier) :
    name.isString = false ∧ ∀ c, name.isPunct c = false := by
  rcases name with ⟨lead, ⟨⟨kind, text⟩, start⟩⟩
  obtain rfl : kind = .identifier := isIdentifier
  exact ⟨rfl, fun _ => rfl⟩

/-- The bindings behind a default one begin with a star or a brace. -/
theorem SecondWords.exists_punctuation {namespaceName : Option Text}
    {items : Option (List Specifier)} {pieces : List Piece}
    (second : SecondWords namespaceName items (words pieces)) :
    ∃ sign more, pieces = sign :: more ∧ sign.token.kind = .punctuation ∧
      sign.isPunct ',' = false := by
  generalize isWords : words pieces = tokens at second
  cases second with
  | star | list =>
      rcases words_eq_cons_iff.mp isWords with ⟨⟨lead, ⟨token, start⟩⟩, behind, rfl, rfl, _⟩
      exact ⟨_, _, rfl, rfl, rfl⟩

/-- An identifier in front of something else than a module name binds no default name to
the word in front of it. -/
theorem bindsDefault_of_identifier {name : Piece} (isIdentifier : name.token.kind = .identifier)
    {next : Piece} (notString : next.isString = false) (rest : List Piece) :
    bindsDefault (name :: next :: rest) = false := by
  simp [bindsDefault, (not_sign_of_identifier isIdentifier).2, nextIs, notString]

/-- How the bindings of an `import` are read, in front of `from` and a module name: the
word in front of them is told apart from a default name, and they are not empty. -/
structure ReadsClauses (kind : BindingKind) (defaultName : Option Text) (found : Clause)
    (pieces rest : List Piece) : Prop where
  typed : kind ≠ .value → bindsDefault pieces = false
  value : kind = .value → ∀ piece more, pieces = piece :: more →
    (kindWord? piece).isSome = true → bindsDefault more = true
  noString : nextIs (·.isString) pieces = false
  binds : (defaultName.isNone && found.namespaceName.isNone && found.specifiers.isNone) = false
  read : ∃ between, defaultBinding pieces = .ok (defaultName, between) ∧
    clause between = .ok (found, rest)

theorem readsClauses_of_words {kind : BindingKind} {defaultName namespaceName : Option Text}
    {items : Option (List Specifier)} {pieces : List Piece}
    (clauses : ClauseWords kind defaultName namespaceName items (words pieces))
    {word source : Piece} (isFrom : word.token.toToken = .word "from")
    (isString : source.isString = true) (rest : List Piece) :
    ReadsClauses kind defaultName (clauseOf pieces namespaceName items)
      (pieces ++ word :: source :: rest) (word :: source :: rest) := by
  have fromIdentifier : word.token.kind = .identifier := by rw [isFrom]; rfl
  have fromWord := Piece.isWord_iff.mpr isFrom
  rcases not_sign_of_identifier fromIdentifier with ⟨fromNoString, fromNoSign⟩
  generalize isWords : words pieces = tokens at clauses
  cases clauses with
  | default isIdentifier =>
      rcases words_eq_singleton_iff.mp isWords with ⟨name, rfl, rfl⟩
      rcases not_sign_of_identifier isIdentifier with ⟨noString, noSign⟩
      have stops : opensClause (word :: source :: rest) = false := by
        simp [opensClause, nextIs, fromNoSign]
      constructor
      · exact fun _ => bindsDefault_of_identifier isIdentifier fromNoString _
      · intro _ _ _ same _
        rcases List.cons.inj same with ⟨rfl, rfl⟩
        simp [bindsDefault, fromWord, nextIs, isString]
      · exact noString
      · rfl
      · refine ⟨word :: source :: rest, ?_, clause_of_stops stops⟩
        simp [defaultBinding, Piece.isIdentifier_iff.mpr isIdentifier, nextIs, fromNoSign]
  | second second =>
      subst isWords
      rcases second.exists_punctuation with ⟨sign, more, rfl, isSign, noComma⟩
      rcases not_name_of_sign isSign with ⟨noIdentifier, noString, noKind, noWord⟩
      rcases clause_of_words second (word :: source :: rest) with ⟨_, readClause⟩
      constructor
      · exact fun _ => by simp [bindsDefault, noComma, noWord]
      · intro _ _ _ same isWord
        rcases List.cons.inj same with ⟨rfl, _⟩
        simp [noKind] at isWord
      · exact noString
      · generalize words (sign :: more) = tokens at second
        cases second <;> simp [clauseOf]
      · exact ⟨_, if_neg (by simp [noIdentifier]), readClause⟩
  | both isIdentifier second =>
      rcases words_eq_cons_iff.mp isWords with ⟨name, behind, rfl, rfl, isBehind⟩
      rcases words_eq_cons_iff.mp isBehind with ⟨comma, pieces, rfl, isComma, rfl⟩
      rcases not_sign_of_identifier isIdentifier with ⟨noString, noSign⟩
      have noBrace : comma.isPunct '\x7b' = false := by
        by_contra isBrace
        exact absurd (isComma.symm.trans (Piece.isPunct_iff.mp (by simpa using isBrace)))
          (by decide)
      have commaNoString : comma.isString = false :=
        (not_name_of_sign (by rw [isComma]; rfl)).2.1
      have isComma := Piece.isPunct_iff.mpr isComma
      rcases clause_of_words second (word :: source :: rest) with ⟨opens, readClause⟩
      rw [clauseOf_cons (noSign _), clauseOf_cons noBrace]
      constructor
      · exact fun _ => bindsDefault_of_identifier isIdentifier commaNoString _
      · intro _ _ _ same _
        rcases List.cons.inj same with ⟨rfl, rfl⟩
        simp [bindsDefault, isComma]
      · exact noString
      · rfl
      · refine ⟨_, ?_, readClause⟩
        simp [defaultBinding, Piece.isIdentifier_iff.mpr isIdentifier, nextIs, isComma, opens]
  | adjoined isIdentifier clear second =>
      rcases words_eq_cons_iff.mp isWords with ⟨name, pieces, rfl, rfl, rfl⟩
      rcases not_sign_of_identifier isIdentifier with ⟨noString, noSign⟩
      rw [clauseOf_cons (noSign _)]
      rcases second.exists_punctuation with ⟨sign, more, rfl, isSign, noComma⟩
      rcases clause_of_words second (word :: source :: rest) with ⟨_, readClause⟩
      constructor
      · exact fun _ => bindsDefault_of_identifier isIdentifier (not_name_of_sign isSign).2.1 _
      · intro isValue _ _ same isWord
        rcases List.cons.inj same with ⟨rfl, _⟩
        exact absurd (clear isValue) (Option.isSome_iff_ne_none.mp isWord)
      · exact noString
      · rfl
      · refine ⟨_, ?_, readClause⟩
        simp [defaultBinding, Piece.isIdentifier_iff.mpr isIdentifier, nextIs, noComma]

/-! ## Declarations -/

section

variable {word name : Piece} {attributePieces ending rest : List Piece} {has : Bool}
  (isFrom : word.token.toToken = .word "from") (isString : name.token.kind = .string)
  (hasAttributes : AttributeWords (words (ending ++ rest)) has (words attributePieces))
  (ends : EndWords (words rest) (words ending))

include isString in
theorem source_of_string (behind : List Piece) :
    source (name :: behind) = .ok (literalOf name.token.text, behind) :=
  if_pos (Piece.isString_iff.mpr isString)

include isString hasAttributes ends in
/-- A module name with its attributes is read as an `import` that binds nothing. -/
theorem importDeclaration_of_source :
    importDeclaration (name :: (attributePieces ++ (ending ++ rest))) =
      .ok ({ source := literalOf name.token.text, attributes := attributesOf attributePieces },
        rest) := by
  rw [importDeclaration, if_pos (show nextIs (·.isString) (name :: _) = true from
    Piece.isString_iff.mpr isString)]
  refine bind_eq_ok_iff.mpr ⟨_, source_of_string isString _, ?_⟩
  refine bind_eq_ok_iff.mpr ⟨_, attributes_of_words hasAttributes, ?_⟩
  simp only [semicolon_of_words ends]
  rfl

include isFrom isString hasAttributes ends in
/-- The words of bindings in front of a module name are read as an `import`. -/
theorem importDeclaration_of_clauses {kind : BindingKind} {defaultName namespaceName : Option Text}
    {items : Option (List Specifier)} {front clauses : List Piece}
    (isKind : words front = kind.words)
    (isClauses : ClauseWords kind defaultName namespaceName items (words clauses)) :
    importDeclaration
        (front ++ (clauses ++ word :: name :: (attributePieces ++ (ending ++ rest)))) =
      .ok ({
        kind, defaultName, namespaceName
        specifiers := items.map (listOf (inBraces clauses))
        source := literalOf name.token.text
        attributes := attributesOf attributePieces }, rest) := by
  have reads := readsClauses_of_words isClauses isFrom (Piece.isString_iff.mpr isString)
    (attributePieces ++ (ending ++ rest))
  rcases reads.read with ⟨between, readDefault, readClause⟩
  have readKind : kindWhere (!bindsDefault ·)
      (front ++ (clauses ++ word :: name :: (attributePieces ++ (ending ++ rest)))) =
      (kind, clauses ++ word :: name :: (attributePieces ++ (ending ++ rest))) := by
    apply kindWhere_of_words isKind
    · intro notValue
      simpa using reads.typed notValue
    · intro isValue piece more same isWord
      simpa using reads.value isValue piece more same isWord
  have noString : ¬nextIs (·.isString)
      (front ++ (clauses ++ word :: name :: (attributePieces ++ (ending ++ rest)))) = true := by
    rcases exists_of_words_eq_kind isKind with ⟨_, rfl⟩ | ⟨piece, rfl, _, isWord⟩
    · simpa using reads.noString
    · simpa [nextIs] using (not_sign_of_identifier (kind_of_kindWord? isWord)).1
  rw [importDeclaration, if_neg noString]
  simp only [bindingImport, importKind_eq, readKind]
  refine bind_eq_ok_iff.mpr ⟨_, readDefault, bind_eq_ok_iff.mpr ⟨_, readClause, ?_⟩⟩
  have binds := reads.binds
  simp only [clauseOf] at binds ⊢
  simp only [binds, Bool.false_eq_true, if_false]
  refine bind_eq_ok_iff.mpr ⟨((), _), if_pos (Piece.isWord_iff.mpr isFrom), ?_⟩
  refine bind_eq_ok_iff.mpr ⟨_, source_of_string isString _, ?_⟩
  refine bind_eq_ok_iff.mpr ⟨_, attributes_of_words hasAttributes, ?_⟩
  simp only [semicolon_of_words ends]
  rfl

/-- The kind of an `export` is read in front of a brace. -/
theorem exportKind_of_brace {kind : BindingKind} {brace : Piece} {front : List Piece}
    (isKind : words front = kind.words) (isBrace : brace.token.toToken = .punct '\x7b')
    (behind : List Piece) : exportKind (front ++ brace :: behind) = (kind, brace :: behind) := by
  have isBrace := Piece.isPunct_iff.mpr isBrace
  rw [exportKind_eq]
  apply kindWhere_of_words isKind
  · exact fun _ => by simp [nextIs, isBrace]
  · intro _ _ _ same isWord
    rcases List.cons.inj same with ⟨rfl, _⟩
    rcases Option.isSome_iff_exists.mp isWord with ⟨_, announced⟩
    simp [(not_sign_of_identifier (kind_of_kindWord? announced)).2] at isBrace

/-- A braced list behind the word of an `export` is the beginning of a declaration. -/
theorem exportDeclaration_of_list {kind : BindingKind} {items : List Specifier} {brace : Piece}
    {front list behind left : List Piece} {from? : Option StringLiteral} {written : Option Text}
    (isKind : words front = kind.words) (isBrace : brace.token.toToken = .punct '\x7b')
    (isList : ListWords items (words list))
    (readModule : reexport behind = .ok ((from?, written), left)) :
    exportDeclaration (front ++ brace :: (list ++ behind)) =
      .ok (some {
        kind
        specifiers := listOf list items
        source := from?
        attributes := written }, semicolon left) := by
  simp only [exportDeclaration, exportKind_of_brace isKind isBrace]
  rw [if_pos (Piece.isPunct_iff.mpr isBrace)]
  refine bind_eq_ok_iff.mpr ⟨_, specifierList_of_words isList behind, ?_⟩
  exact bind_eq_ok_iff.mpr ⟨_, readModule, rfl⟩

include ends in
/-- An `export` of names of its own. -/
theorem exportDeclaration_of_own {kind : BindingKind} {items : List Specifier} {brace : Piece}
    {front list : List Piece} (isKind : words front = kind.words)
    (isBrace : brace.token.toToken = .punct '\x7b') (isList : ListWords items (words list))
    (noSource : (words (ending ++ rest)).head? ≠ some (.word "from")) :
    exportDeclaration (front ++ brace :: (list ++ (ending ++ rest))) =
      .ok (some { kind, specifiers := listOf list items }, rest) := by
  have noModule : reexport (ending ++ rest) = .ok ((none, none), ending ++ rest) := by
    cases isPieces : ending ++ rest with
    | nil => rfl
    | cons piece pieces =>
        refine if_neg fun isFrom => noSource ?_
        rw [isPieces, words_cons, Piece.isWord_iff.mp isFrom]
        rfl
  rw [exportDeclaration_of_list isKind isBrace isList noModule, semicolon_of_words ends]

include isFrom isString hasAttributes ends in
/-- An `export` of names of another module. -/
theorem exportDeclaration_of_module {kind : BindingKind} {items : List Specifier} {brace : Piece}
    {front list : List Piece} (isKind : words front = kind.words)
    (isBrace : brace.token.toToken = .punct '\x7b') (isList : ListWords items (words list)) :
    exportDeclaration
        (front ++ brace :: (list ++ word :: name :: (attributePieces ++ (ending ++ rest)))) =
      .ok (some {
        kind
        specifiers := listOf list items
        source := some (literalOf name.token.text)
        attributes := attributesOf attributePieces }, rest) := by
  have readModule : reexport (word :: name :: (attributePieces ++ (ending ++ rest))) =
      .ok ((some (literalOf name.token.text), attributesOf attributePieces), ending ++ rest) := by
    rw [reexport, if_pos (Piece.isWord_iff.mpr isFrom)]
    refine bind_eq_ok_iff.mpr ⟨_, source_of_string isString _, ?_⟩
    exact bind_eq_ok_iff.mpr ⟨_, attributes_of_words hasAttributes, rfl⟩
  rw [exportDeclaration_of_list isKind isBrace isList readModule, semicolon_of_words ends]

end

end Declaration

end Deflow
