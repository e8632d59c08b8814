import Deflow.Proofs.Script.LineEnds
import Deflow.Proofs.Script.Rescan

/-!
# Tokens side by side

What the longest match and the rules of reading say about two tokens that follow
each other: white space is never cut in two, a blank behind trivia begins a
token of white space, and a line comment runs up to the end of its line.  Only white
space and the text between markup tags may end with a line feed, and no trivia stands
behind the latter.
-/

namespace Deflow.Script

/-! ## Two tokens -/

/-- What holds of a token and the one behind it. -/
structure Token.Adjoins (first second : Token) : Prop where
  spaces : first.kind = .whitespace → second.kind ≠ .whitespace
  blank : first.isTrivia = true → second.text.head?.any isTagSpace = true →
    second.kind = .whitespace
  lineComment : first.kind = .lineComment → second.text.head?.all isLineFeed = true
  feed : second.isTrivia = true → first.text.getLast? = some '\n' → first.kind = .whitespace

/-- Of a token that means something only the last character matters. -/
theorem Token.Adjoins.of_meaning {first second : Token} (meaning : first.isTrivia = false)
    (last : second.isTrivia = true → first.text.getLast? ≠ some '\n') : first.Adjoins second where
  spaces isWhite := by simp [Token.isTrivia, isWhite] at meaning
  blank isTrivia := by simp [meaning] at isTrivia
  lineComment isComment := by simp [Token.isTrivia, isComment] at meaning
  feed isTrivia isLast := absurd isLast (last isTrivia)

theorem Token.Adjoins.of_punct {c : Char} (notFeed : c ≠ '\n') (second : Token) :
    (Token.punct c).Adjoins second :=
  .of_meaning rfl fun _ isLast => notFeed (Option.some.inj isLast)

/-- White space of tags is white space of script. -/
theorem isSpace_of_isTagSpace {c : Char} (space : isTagSpace c = true) : isSpace c = true := by
  simp only [isTagSpace, Bool.or_eq_true, Bool.and_eq_true, decide_eq_true_eq, beq_iff_eq] at space
  rcases space with ((⟨low, high⟩ | rfl) | rfl) | rfl
  · simp only [isSpace, spaceRanges, Text.CharRanges.contains, List.any_cons, Bool.or_eq_true,
      Bool.and_eq_true, decide_eq_true_eq]
    exact .inl ⟨low, high⟩
  · decide
  · decide
  · decide

theorem TagPart.eq_whitespace {part : TagPart} (isWhite : part.kind = .whitespace) :
    part = .whitespace := by
  cases part <;> first | rfl | cases isWhite

theorem TagPart.eq_lineComment {part : TagPart} (isComment : part.kind = .lineComment) :
    part = .lineComment := by
  cases part <;> first | rfl | cases isComment

/-! ## Readings -/

/-- The first token that is read begins as the text does. -/
theorem Reads.head?_text {mode : Mode} {text rest : Text} {tokens : List Token}
    (reads : Reads mode text tokens rest) :
    ∀ first ∈ tokens.head?, first.text.head? = text.head? := by
  intro first isFirst
  obtain ⟨more, rfl⟩ := List.head?_eq_some_iff.mp isFirst
  obtain ⟨c, own, isText⟩ := List.exists_cons_of_ne_nil (reads.text_ne_nil first (by simp))
  rw [reads.spelled, Token.spell_cons, isText]
  rfl

/-- Script begins with a token of white space exactly if it begins with white
space. -/
theorem Reads.head_space_iff {stop : Until} {context : Context} {text rest : Text}
    {first : Token} {tokens : List Token}
    (reads : Reads (.script stop context) text (first :: tokens) rest) :
    first.kind = .whitespace ↔ first.text.head?.any isSpace = true := by
  constructor
  · intro isWhite
    cases reads with
    | scriptToken spelled plain alone more =>
        subst spelled
        have lexeme := (plainToken_append_eq_ok_iff.mp plain).1
        cases lexeme with
        | @whitespace text nonempty blank =>
            obtain ⟨c, own, rfl⟩ := List.exists_cons_of_ne_nil nonempty
            exact blank c (by simp)
        | _ => cases isWhite
    | _ => cases isWhite
  · intro space
    by_contra notWhite
    have noSpace := reads.head_filled (by simpa using notWhite)
    rw [← reads.head?_text first rfl, space] at noSpace
    cases noSpace

/-- A tag goes on with a token of white space exactly if it goes on with white
space. -/
theorem Reads.tag_head_space_iff {items : List TagItem} {text rest : Text}
    {first : Token} {tokens : List Token} (reads : Reads (.tag items) text (first :: tokens) rest) :
    first.kind = .whitespace ↔ first.text.head?.any isTagSpace = true := by
  constructor
  · intro isWhite
    cases reads with
    | @tagPart _ part _ _ _ _ _ spelled found kind notClose notBrace more =>
        subst spelled
        have shape := (tagPart?_append_eq_some_iff.mp found).1
        obtain rfl := TagPart.eq_whitespace (kind.symm.trans isWhite)
        revert shape
        generalize first.text = own
        rintro ⟨⟩
        rename_i nonempty blank
        obtain ⟨c, own, rfl⟩ := List.exists_cons_of_ne_nil nonempty
        exact blank c (by simp)
    | _ => cases isWhite
  · intro space
    by_contra notWhite
    have noSpace := reads.tag_head_filled (by simpa using notWhite)
    rw [← reads.head?_text first rfl, space] at noSpace
    cases noSpace

/-- A token in front of one that is white space exactly if it begins with a character
of a class.  The class is one for script and another for tags. -/
theorem Token.Adjoins.of_class {first second : Token} {space : Char → Bool}
    (wide : ∀ c, isTagSpace c = true → space c = true)
    (isSpace : second.kind = .whitespace ↔ second.text.head?.any space = true)
    (ends : first.kind = .whitespace → second.text.head?.any space = false)
    (comment : first.kind = .lineComment → second.text.head?.all isLineFeed = true)
    (last : first.text.getLast? = some '\n' → first.kind = .whitespace) : first.Adjoins second where
  spaces isWhite alsoWhite := by
    rw [ends isWhite] at isSpace
    simp [alsoWhite] at isSpace
  blank _ blank := by
    rw [isSpace, Option.any_eq_true]
    obtain ⟨c, isHead, isBlank⟩ := (Option.any_eq_true ..).mp blank
    exact ⟨c, isHead, wide c isBlank⟩
  lineComment := comment
  feed _ := last

/-- A token in front of others. -/
theorem isChain_cons_of_forall {first : Token} {tokens : List Token}
    (adjoins : ∀ second more, tokens = second :: more → first.Adjoins second)
    (more : tokens.IsChain Token.Adjoins) : (first :: tokens).IsChain Token.Adjoins := by
  refine List.isChain_cons.mpr ⟨fun second isSecond => ?_, more⟩
  obtain ⟨more, isTokens⟩ := List.head?_eq_some_iff.mp isSecond
  exact adjoins second more isTokens

/-- A stretch that ends with a sign, in front of others. -/
theorem isChain_append_of_last {mode : Mode} {text rest : Text} {stretch tokens : List Token}
    (reads : Reads mode text stretch rest) {c : Char} (last : mode.last? = some (Token.punct c))
    (notFeed : c ≠ '\n') (first : stretch.IsChain Token.Adjoins)
    (more : tokens.IsChain Token.Adjoins) : (stretch ++ tokens).IsChain Token.Adjoins := by
  refine List.isChain_append.mpr ⟨first, more, fun token isLast second _ => ?_⟩
  obtain ⟨front, rfl⟩ := reads.last_suffix _ last
  obtain rfl : Token.punct c = token := by simpa using isLast
  exact .of_punct notFeed second

/-- Children of an element begin with markup, script or text. -/
theorem Reads.children_head {name text rest : Text} {first : Token} {tokens : List Token}
    (reads : Reads (.children name) text (first :: tokens) rest) : first.isTrivia = false := by
  cases reads <;> rfl

/-- Tokens that are read one after the other stand side by side as they must. -/
theorem Reads.adjoins {mode : Mode} {text rest : Text} {tokens : List Token}
    (reads : Reads mode text tokens rest) : tokens.IsChain Token.Adjoins := by
  induction reads with
  | scriptEnd => exact .nil
  | scriptClose | tagClose | templateEnd | templateEscape | templateScript | templateChar =>
      exact .singleton _
  | @scriptTemplate _ _ _ body _ _ _ template more _ ofMore =>
      refine isChain_cons_of_forall (fun second _ _ => .of_meaning rfl fun _ => ?_) ofMore
      obtain ⟨_, ⟨⟩, isLast⟩ := template.keepsLineEnds
      rw [List.getLast?_cons, isLast]
      decide
  | @scriptRegex _ _ body _ _ _ expected slash length more ofMore =>
      refine isChain_cons_of_forall (fun second _ _ => .of_meaning rfl fun _ isLast => ?_) ofMore
      rcases List.mem_cons.mp (List.mem_of_mem_getLast? isLast) with same | inBody
      · exact absurd same (by decide)
      · exact notMem_of_regexLength? (regexLength?_append_eq_iff.mp length).1 (by decide) inBody
  | scriptMarkup expected opens markup more ofElement ofMore =>
      exact isChain_cons_of_forall (fun second _ _ => .of_punct (by decide) second)
        (isChain_append_of_last markup rfl (by decide) ofElement ofMore)
  | @scriptToken _ _ _ _ _ token _ spelled plain alone more ofMore =>
      subst spelled
      obtain ⟨lexeme, ends⟩ := plainToken_append_eq_ok_iff.mp plain
      refine isChain_cons_of_forall ?_ ofMore
      rintro second behind rfl
      rw [token.endsBefore_congr (more.head?_text second rfl).symm] at ends
      refine .of_class (fun c => isSpace_of_isTagSpace) more.head_space_iff (fun isWhite => ?_)
        (fun isComment => ?_) (lexeme.kind_of_feed (by decide))
      · simpa [Token.endsBefore, isWhite] using ends
      · simpa [Token.endsBefore, isComment] using ends
  | @tagPart _ part _ _ _ token _ spelled found kind notClose notBrace more ofMore =>
      subst spelled
      obtain ⟨shape, ends⟩ := tagPart?_append_eq_some_iff.mp found
      refine isChain_cons_of_forall ?_ ofMore
      rintro second behind rfl
      have sameHead := more.head?_text second rfl
      refine .of_class (fun c => id) more.tag_head_space_iff (fun isWhite => ?_)
        (fun isComment => ?_) (fun isLast => ?_)
      · obtain rfl := TagPart.eq_whitespace (kind.symm.trans isWhite)
        rw [sameHead]
        simpa [TagPart.endsBefore] using ends
      · obtain rfl := TagPart.eq_lineComment (kind.symm.trans isComment)
        rw [sameHead]
        exact ends
      · rw [kind, shape.eq_of_feed (by decide) isLast]
        rfl
  | tagScript inner more ofScript ofMore | childrenScript inner more ofScript ofMore =>
      exact isChain_cons_of_forall (fun second _ _ => .of_punct (by decide) second)
        (isChain_append_of_last inner rfl (by decide) ofScript ofMore)
  | childrenText nonempty inside ends more ofMore =>
      refine isChain_cons_of_forall ?_ ofMore
      rintro second behind rfl
      refine .of_meaning rfl fun isTrivia => ?_
      simp [more.children_head] at isTrivia
  | childrenElement markup more ofElement ofMore =>
      exact isChain_cons_of_forall (fun second _ _ => .of_punct (by decide) second)
        (isChain_append_of_last markup rfl (by decide) ofElement ofMore)
  | childrenClose tag closing ofTag =>
      exact isChain_cons_of_forall (fun second _ _ => .of_punct (by decide) second) ofTag
  | elementEmpty tag opening empty ofTag => exact ofTag
  | elementWhole tag opening whole children ofTag ofChildren =>
      exact isChain_append_of_last tag rfl (by decide) ofTag ofChildren

/-- Tokens of a source text stand side by side as they must. -/
theorem Scans.adjoins {source : Text} {tokens : List Token} (scans : Scans source tokens) :
    tokens.IsChain Token.Adjoins := by
  cases scans with
  | script noLine reads => exact reads.adjoins
  | hashbang oneLine ends reads =>
      refine isChain_cons_of_forall (fun second _ _ => .of_meaning rfl fun _ isLast => ?_)
        reads.adjoins
      exact absurd (oneLine _ (List.mem_of_mem_getLast? isLast)) (by decide)

end Deflow.Script
