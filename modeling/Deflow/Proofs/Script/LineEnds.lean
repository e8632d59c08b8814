import Deflow.Proofs.Script.Tiling

/-!
# Line ends and tokens

No token ends between a carriage return and the line feed behind it.  In a text all
of whose line feeds follow carriage returns, this therefore holds in every token
by itself.
-/

namespace Deflow

/-- Every line feed of a text follows a carriage return. -/
def Text.Crlf (text : Text) : Prop :=
  text.head? ≠ some '\n' ∧ text.IsChain fun c next => next = '\n' → c = '\r'

instance (text : Text) : Decidable text.Crlf :=
  inferInstanceAs (Decidable (_ ∧ _))

namespace Text

theorem crlf_nil : Crlf [] := by
  decide

/-- A text without line feeds. -/
theorem crlf_of_notMem {text : Text} (noFeed : '\n' ∉ text) : text.Crlf := by
  constructor
  · intro isFeed
    exact noFeed (List.mem_of_mem_head? isFeed)
  · induction text with
    | nil => exact List.isChain_nil
    | cons c text inductionHypothesis =>
        rw [List.mem_cons, not_or] at noFeed
        rw [List.isChain_cons]
        refine ⟨fun next isHead isFeed => ?_, inductionHypothesis noFeed.2⟩
        subst isFeed
        exact absurd (List.mem_of_mem_head? isHead) noFeed.2

theorem Crlf.append {first second : Text} (ofFirst : first.Crlf) (ofSecond : second.Crlf) :
    (first ++ second).Crlf := by
  rcases ofFirst with ⟨firstHead, firstChain⟩
  rcases ofSecond with ⟨secondHead, secondChain⟩
  constructor
  · cases first with
    | nil => exact secondHead
    | cons c first => exact firstHead
  · rw [List.isChain_append]
    refine ⟨firstChain, secondChain, fun c _ next isHead isFeed => ?_⟩
    subst isFeed
    exact absurd isHead secondHead

theorem Crlf.left {first second : Text} (crlf : (first ++ second).Crlf) : first.Crlf := by
  rcases crlf with ⟨head, chain⟩
  constructor
  · cases first with
    | nil => simp
    | cons c first => exact head
  · exact (List.isChain_append.mp chain).1

/-- What stands behind a front part, unless that ends within a line end. -/
theorem Crlf.right {first second : Text} (crlf : (first ++ second).Crlf)
    (apart : first.getLast? = some '\r' → second.head? ≠ some '\n') : second.Crlf := by
  rcases crlf with ⟨head, chain⟩
  rcases List.isChain_append.mp chain with ⟨_, secondChain, seam⟩
  refine ⟨fun isFeed => ?_, secondChain⟩
  cases isLast : first.getLast? with
  | none =>
      rw [List.getLast?_eq_none_iff] at isLast
      subst isLast
      exact head isFeed
  | some c =>
      have isReturn := seam c isLast '\n' isFeed rfl
      subst isReturn
      exact apart isLast isFeed

end Text

namespace Script

/-! ## Last characters -/

/-- A block comment ends with a slash. -/
theorem getLast?_of_commentEnd? {size : Nat} {body : Text}
    (closed : commentEnd? size body = some (size + body.length)) : body.getLast? = some '/' := by
  fun_induction commentEnd? size body with
  | case1 => cases closed
  | case2 size text =>
      have isEnd : text = [] := by
        simp only [List.length_cons, Option.some.injEq] at closed
        exact List.length_eq_zero_iff.mp (by omega)
      subst isEnd
      rfl
  | case3 size c text notEnd inductionHypothesis =>
      have behind := inductionHypothesis (by simpa [Nat.add_assoc, Nat.add_comm 1] using closed)
      cases text with
      | nil => cases behind
      | cons d text => exact behind

/-- A string ends with its quote. -/
theorem getLast?_of_stringEnd? {quote : Char} {size : Nat} {body : Text}
    (closed : stringEnd? quote size body = some (size + body.length)) :
    body.getLast? = some quote := by
  have isEnd {text : Text} (before : Text) (behind : text.getLast? = some quote) :
      (before ++ text).getLast? = some quote := by
    rw [List.getLast?_append, behind]
    rfl
  fun_induction stringEnd? quote size body with
  | case1 => cases closed
  | case2 size text inductionHypothesis =>
      apply isEnd ['\\', '\r', '\n']
      apply inductionHypothesis
      rw [closed, List.length_cons, List.length_cons, List.length_cons]
      congr 1
      omega
  | case3 size c text _ inductionHypothesis =>
      apply isEnd ['\\', c]
      apply inductionHypothesis
      rw [closed, List.length_cons, List.length_cons]
      congr 1
      omega
  | case4 => cases closed
  | case5 size text =>
      have isEmpty : text = [] := by
        simp only [List.length_cons, Option.some.injEq] at closed
        exact List.length_eq_zero_iff.mp (by omega)
      subst isEmpty
      rfl
  | case6 => cases closed
  | case7 size c text _ _ _ _ _ inductionHypothesis =>
      apply isEnd [c]
      apply inductionHypothesis
      rw [closed, List.length_cons]
      congr 1
      omega

/-- The characters of a number. -/
theorem isNumberPart_of_mem {c : Char} {text : Text}
    (whole : numberLength (c :: text) = text.length + 1) :
    ∀ d ∈ text, isNumberPart d = true ∨ d = '+' ∨ d = '-' := by
  rcases exists_run isNumberPart text with ⟨digits, rest, rfl, inside, ends⟩
  rw [numberLength_cons_append inside ends] at whole
  cases rest with
  | nil => simpa using fun d member => .inl (inside d member)
  | cons sign rest =>
      simp only [List.length_append, List.length_cons] at whole
      split at whole
      · rename_i signed
        simp only [Bool.and_eq_true, Bool.or_eq_true, beq_iff_eq] at signed
        have run : runLength isNumberPart (rest ++ []) = rest.length := by
          rw [List.append_nil]
          omega
        have others := (runLength_append_eq_iff.mp run).1
        intro d member
        rcases List.mem_append.mp member with inDigits | inRest
        · exact .inl (inside d inDigits)
        · rcases List.mem_cons.mp inRest with rfl | inRest
          · exact .inr signed.1.1
          · exact .inl (others d inRest)
      · omega

/-- The body of a regular expression runs to a slash on the same line. -/
theorem exists_of_regexBodyEnd? {place : RegexPlace} {size finish : Nat} {text : Text}
    (found : regexBodyEnd? place size text = some finish) :
    ∃ before after, text = before ++ '/' :: after ∧ finish = size + before.length ∧
      ∀ c ∈ before, isLineTerminator c = false := by
  induction text using escapeInduction generalizing place size with
  | nil => simp [regexBodyEnd?] at found
  | lone => simp [regexBodyEnd?] at found
  | escape c text inductionHypothesis =>
      rw [regexBodyEnd?_escape] at found
      split at found
      · cases found
      · rename_i inLine
        rcases inductionHypothesis found with ⟨before, after, rfl, rfl, inside⟩
        refine ⟨'\\' :: c :: before, after, rfl, by simp only [List.length_cons]; omega, ?_⟩
        simp only [List.forall_mem_cons]
        exact ⟨by decide, by simpa using inLine, inside⟩
  | plain c text isPlain inductionHypothesis =>
      rw [regexBodyEnd?_cons _ _ _ isPlain] at found
      split at found
      · rename_i closes
        cases found
        exact ⟨[], text, by rw [closes.2]; rfl, rfl, by simp⟩
      · split at found
        · cases found
        · rename_i inLine
          rcases inductionHypothesis found with ⟨before, after, rfl, rfl, inside⟩
          refine ⟨c :: before, after, rfl, by simp only [List.length_cons]; omega, ?_⟩
          simp only [List.forall_mem_cons]
          exact ⟨by simpa using inLine, inside⟩

/-- A character that ends a line is part of no token but white space. -/
theorem not_other_of_isLineFeed {c : Char} (feed : isLineFeed c = true) :
    isIdentPart c = false ∧ isNumberPart c = false ∧ isPunctuation c = false ∧
      isRegexFlag c = false ∧ isTagNamePart c = false := by
  simp only [isLineFeed, Bool.or_eq_true, beq_iff_eq] at feed
  rcases feed with rfl | rfl
  · decide
  · decide

theorem ne_of_isLineFeed {c d : Char} (feed : isLineFeed c = true) (other : isLineFeed d = false) :
    c ≠ d := by
  rintro rfl
  simp [feed] at other

/-- No flag of a regular expression ends a line of script. -/
theorem isLineTerminator_of_isRegexFlag {c : Char} (flag : isRegexFlag c = true) :
    isLineTerminator c = false := by
  by_contra terminator
  simp only [isLineTerminator, isLineFeed, Bool.not_eq_false, Bool.or_eq_true, beq_iff_eq]
    at terminator
  rcases terminator with ((rfl | rfl) | rfl) | rfl
  all_goals exact absurd flag (by decide)

/-- A regular expression stays on its line. -/
theorem isLineTerminator_of_regexLength? {body : Text}
    (whole : regexLength? body = some body.length) : ∀ c ∈ body, isLineTerminator c = false := by
  rcases regexLength?_eq_some_iff.mp whole with ⟨size, atSlash, length⟩
  rcases exists_of_regexBodyEnd? atSlash with ⟨before, flags, rfl, isSize, inside⟩
  have isDrop : (before ++ '/' :: flags).drop (size + 2) = flags := by
    have isSize : size + 2 = (before ++ ['/']).length := by
      rw [List.length_append, List.length_singleton]
      omega
    rw [List.append_cons before '/' flags, isSize, List.drop_left]
  have run : runLength isRegexFlag (flags ++ []) = flags.length := by
    rw [isDrop] at length
    rw [List.append_nil]
    simp only [List.length_append, List.length_cons] at length
    omega
  have isFlag := (runLength_append_eq_iff.mp run).1
  intro c member
  rcases List.mem_append.mp member with inBody | behind
  · exact inside c inBody
  · rcases List.mem_cons.mp behind with rfl | inFlags
    · decide
    · exact isLineTerminator_of_isRegexFlag (isFlag c inFlags)

theorem notMem_of_regexLength? {body : Text} (whole : regexLength? body = some body.length)
    {c : Char} (feed : isLineFeed c = true) : c ∉ body := by
  intro member
  have inLine := isLineTerminator_of_regexLength? whole c member
  simp [isLineTerminator, feed] at inLine

/-! ## Tokens -/

/-- A lexeme that ends where a line ends is white space. -/
theorem IsLexeme.kind_of_feed {token : Token} (lexeme : IsLexeme token) {c : Char}
    (feed : isLineFeed c = true) (isLast : token.text.getLast? = some c) :
    token.kind = .whitespace := by
  have member := List.mem_of_mem_getLast? isLast
  obtain ⟨notIdent, notNumber, notSign, _⟩ := not_other_of_isLineFeed feed
  cases lexeme with
  | whitespace => rfl
  | lineComment oneLine =>
      simp only [List.mem_cons] at member
      rcases member with same | same | inBody
      · exact absurd same (ne_of_isLineFeed feed (by decide))
      · exact absurd same (ne_of_isLineFeed feed (by decide))
      · simp [oneLine c inBody] at feed
  | blockComment closed =>
      have last := getLast?_of_commentEnd? (closed.trans (by rw [Nat.zero_add]))
      rw [List.getLast?_cons, List.getLast?_cons, last] at isLast
      exact absurd (Option.some.inj isLast).symm (ne_of_isLineFeed feed (by decide))
  | identifier start inside =>
      rcases List.mem_cons.mp member with rfl | inParts
      · simp [isIdentPart, start] at notIdent
      · simp [inside c inParts] at notIdent
  | string isQuote closed =>
      have last := getLast?_of_stringEnd? (closed.trans (by rw [Nat.zero_add]))
      rw [List.getLast?_cons, last] at isLast
      refine absurd (Option.some.inj isLast).symm (ne_of_isLineFeed feed ?_)
      rcases isQuote with rfl | rfl
      · decide
      · decide
  | @number text start whole =>
      cases text with
      | nil => cases start
      | cons d text =>
          rcases List.mem_cons.mp member with rfl | inText
          · simp only [startsNumber, Bool.or_eq_true, Bool.and_eq_true, beq_iff_eq] at start
            rcases start with digit | ⟨rfl, _⟩
            · simp [isIdentPart, digit] at notIdent
            · exact absurd feed (by decide)
          · rcases isNumberPart_of_mem whole c inText with isPart | rfl | rfl
            · simp [isPart] at notNumber
            · exact absurd feed (by decide)
            · exact absurd feed (by decide)
  | punctuation sign =>
      obtain rfl := List.mem_singleton.mp member
      simp [sign] at notSign

/-- A part of a tag that ends where a line ends is white space. -/
theorem IsTagPart.eq_of_feed {part : TagPart} {text : Text} (shape : IsTagPart part text) {c : Char}
    (feed : isLineFeed c = true) (isLast : text.getLast? = some c) : part = .whitespace := by
  have member := List.mem_of_mem_getLast? isLast
  have notPart := (not_other_of_isLineFeed feed).2.2.2.2
  have single {d : Char} (member : c ∈ [d]) (other : isLineFeed d = false) : False :=
    ne_of_isLineFeed feed other (List.mem_singleton.mp member)
  cases shape with
  | whitespace => rfl
  | lineComment oneLine =>
      simp only [List.mem_cons] at member
      rcases member with same | same | inBody
      · exact absurd same (ne_of_isLineFeed feed (by decide))
      · exact absurd same (ne_of_isLineFeed feed (by decide))
      · simp [oneLine c inBody] at feed
  | blockComment closed =>
      have last := getLast?_of_commentEnd? (closed.trans (by rw [Nat.zero_add]))
      rw [List.getLast?_cons, List.getLast?_cons, last] at isLast
      exact absurd (Option.some.inj isLast).symm (ne_of_isLineFeed feed (by decide))
  | string isQuote inside =>
      rw [← List.cons_append, List.getLast?_concat] at isLast
      refine absurd (Option.some.inj isLast).symm (ne_of_isLineFeed feed ?_)
      rcases isQuote with rfl | rfl
      · decide
      · decide
  | name start inside =>
      rcases List.mem_cons.mp member with rfl | inParts
      · simp [isTagNamePart, start] at notPart
      · simp [inside c inParts] at notPart
  | openBrace | slash | close => exact (single member (by decide)).elim
  | punctuation sign =>
      refine (single member ?_).elim
      rcases sign with rfl | rfl | rfl
      · decide
      · decide
      · decide

/-- A lexeme that ends with a carriage return is white space, and goes on through a
line feed. -/
theorem IsLexeme.apart {token : Token} (lexeme : IsLexeme token) {rest : Text}
    (ends : token.endsBefore rest = true) :
    token.text.getLast? = some '\r' → token.isComment = false ∧ rest.head? ≠ some '\n' := by
  intro isLast
  have white := lexeme.kind_of_feed (by decide) isLast
  refine ⟨by simp [Token.isComment, white], fun isFeed => ?_⟩
  simp only [Token.endsBefore, white, isFeed] at ends
  exact absurd ends (by decide)

/-- A part of a tag that ends with a carriage return is white space, and goes on
through a line feed. -/
theorem IsTagPart.apart {part : TagPart} {text : Text} (shape : IsTagPart part text) {rest : Text}
    (ends : part.endsBefore rest = true) :
    text.getLast? = some '\r' → part = .whitespace ∧ rest.head? ≠ some '\n' := by
  intro isLast
  obtain rfl := shape.eq_of_feed (by decide) isLast
  refine ⟨rfl, fun isFeed => ?_⟩
  rw [TagPart.endsBefore, isFeed] at ends
  exact absurd ends (by decide)

/-- A string begins with a quote. -/
theorem IsLexeme.head_string {token : Token} (lexeme : IsLexeme token) :
    token.kind = .string → token.text.head? ≠ some '\r' := by
  intro isString
  cases lexeme with
  | string isQuote closed => rcases isQuote with rfl | rfl <;> exact by simp
  | _ => cases isString

theorem IsTagPart.head_string {part : TagPart} {text : Text} (shape : IsTagPart part text) :
    part.kind = .string → text.head? ≠ some '\r' := by
  intro isString
  cases shape with
  | string isQuote inside => rcases isQuote with rfl | rfl <;> exact by simp
  | _ => cases isString

/-! ## Reading -/

/-- Every line feed of a token follows a carriage return, and no line end begins
behind a comment or in front of a string. -/
structure Token.Crlf (token : Token) : Prop where
  text : token.text.Crlf
  comment : token.isComment = true → token.text.getLast? ≠ some '\r'
  string : token.kind = .string → token.text.head? ≠ some '\r'

/-- What reading says about line ends in each mode: they do not fall apart, and a
template ends with its quote. -/
def KeepsLineEnds (text rest : Text) (tokens : List Token) : Mode → Prop
  | .template => ∃ body, tokens = [⟨.template, body⟩] ∧ body.getLast? = some '\x60'
  | _ => text.Crlf → (∀ token ∈ tokens, token.Crlf) ∧ rest.Crlf

/-- A token in front of others. -/
theorem crlf_cons {token : Token} {text rest : Text} {tokens : List Token}
    (apart : token.text.getLast? = some '\r' →
      token.isComment = false ∧ text.head? ≠ some '\n')
    (string : token.kind = .string → token.text.head? ≠ some '\r')
    (more : text.Crlf → (∀ token ∈ tokens, token.Crlf) ∧ rest.Crlf)
    (crlf : (token.text ++ text).Crlf) : (∀ other ∈ token :: tokens, other.Crlf) ∧ rest.Crlf := by
  rcases more (crlf.right fun isLast => (apart isLast).2) with ⟨others, behind⟩
  refine ⟨List.forall_mem_cons.mpr ⟨⟨crlf.left, fun isComment isLast => ?_, string⟩, others⟩,
    behind⟩
  rw [(apart isLast).1] at isComment
  cases isComment

/-- A token that is neither a comment nor a string, in front of others. -/
theorem crlf_cons_of_last (kind : TokenKind) {own text rest : Text} {tokens : List Token}
    (other : kind ≠ .lineComment ∧ kind ≠ .blockComment ∧ kind ≠ .string)
    (apart : own.getLast? = some '\r' → text.head? ≠ some '\n')
    (more : text.Crlf → (∀ token ∈ tokens, token.Crlf) ∧ rest.Crlf) (crlf : (own ++ text).Crlf) :
    (∀ token ∈ ⟨kind, own⟩ :: tokens, token.Crlf) ∧ rest.Crlf := by
  refine crlf_cons (fun isLast => ⟨?_, apart isLast⟩) (fun isString => absurd isString other.2.2)
    more crlf
  cases kind <;> simp_all [Token.isComment]

/-- A sign in front of others. -/
theorem crlf_cons_sign {c : Char} (notReturn : c ≠ '\r') {text rest : Text} {tokens : List Token}
    (more : text.Crlf → (∀ token ∈ tokens, token.Crlf) ∧ rest.Crlf) (crlf : Text.Crlf (c :: text)) :
    (∀ token ∈ Token.punct c :: tokens, token.Crlf) ∧ rest.Crlf :=
  crlf_cons_of_last .punctuation (by decide)
    (fun isLast => absurd (Option.some.inj isLast) notReturn) more crlf

/-- A stretch in front of others. -/
theorem crlf_append {text behind rest : Text} {stretch tokens : List Token}
    (first : text.Crlf → (∀ token ∈ stretch, token.Crlf) ∧ behind.Crlf)
    (more : behind.Crlf → (∀ token ∈ tokens, token.Crlf) ∧ rest.Crlf) (crlf : text.Crlf) :
    (∀ token ∈ stretch ++ tokens, token.Crlf) ∧ rest.Crlf := by
  rcases first crlf with ⟨inStretch, behind⟩
  rcases more behind with ⟨others, after⟩
  exact ⟨List.forall_mem_append.mpr ⟨inStretch, others⟩, after⟩

theorem Reads.keepsLineEnds {mode : Mode} {text rest : Text} {tokens : List Token}
    (reads : Reads mode text tokens rest) : KeepsLineEnds text rest tokens mode := by
  induction reads with
  | scriptEnd => exact fun crlf => ⟨by simp, crlf⟩
  | scriptClose | tagClose => exact crlf_cons_sign (by decide) fun crlf => ⟨by simp, crlf⟩
  | @scriptTemplate _ _ _ body _ _ _ template more ofTemplate ofMore =>
      intro crlf
      rcases ofTemplate with ⟨_, ⟨⟩, isLast⟩
      rw [template.spelled] at crlf
      refine crlf_cons_of_last .template (by decide) ?_ ofMore (by simpa using crlf)
      rw [List.getLast?_cons, isLast]
      exact fun same => absurd same (by decide)
  | @scriptRegex _ _ body _ _ _ expected slash length more ofMore =>
      intro crlf
      have noFeed := @notMem_of_regexLength? _ (regexLength?_append_eq_iff.mp length).1
      refine @crlf_cons_of_last .regex ('/' :: body) _ _ _ (by decide)
        (fun isLast => ?_) ofMore crlf
      rcases List.mem_cons.mp (List.mem_of_mem_getLast? isLast) with same | inBody
      · exact absurd same (by decide)
      · exact absurd inBody (noFeed (by decide))
  | scriptMarkup expected opens markup more ofElement ofMore =>
      exact crlf_cons_sign (by decide) (crlf_append ofElement ofMore)
  | scriptToken spelled plain alone more ofMore =>
      subst spelled
      rcases plainToken_append_eq_ok_iff.mp plain with ⟨lexeme, ends⟩
      exact crlf_cons (lexeme.apart ends) lexeme.head_string ofMore
  | templateEnd => exact ⟨_, rfl, rfl⟩
  | templateEscape more ofMore | templateChar notEnd isPlain noScript more ofMore =>
      rcases ofMore with ⟨_, ⟨⟩, isLast⟩
      refine ⟨_, rfl, ?_⟩
      simp [List.getLast?_cons, isLast]
  | templateScript script more ofScript ofMore =>
      rcases ofMore with ⟨_, ⟨⟩, isLast⟩
      refine ⟨_, rfl, ?_⟩
      simp [List.getLast?_cons, List.getLast?_append, isLast]
  | @tagPart _ part _ _ _ token _ spelled found kind notClose notBrace more ofMore =>
      subst spelled
      rcases tagPart?_append_eq_some_iff.mp found with ⟨shape, ends⟩
      refine crlf_cons (fun isLast => ?_) (fun isString => ?_) ofMore
      · rcases shape.apart ends isLast with ⟨rfl, notFeed⟩
        exact ⟨by simp [Token.isComment, kind, TagPart.kind], notFeed⟩
      · exact shape.head_string (kind.symm.trans isString)
  | tagScript inner more ofScript ofMore | childrenScript inner more ofScript ofMore =>
      exact crlf_cons_sign (by decide) (crlf_append ofScript ofMore)
  | childrenText nonempty inside ends more ofMore =>
      refine crlf_cons_of_last .jsxText (by decide) (fun _ isFeed => ?_) ofMore
      rw [isFeed] at ends
      exact absurd ends (by decide)
  | childrenElement markup more ofElement ofMore =>
      exact crlf_cons_sign (by decide) (crlf_append ofElement ofMore)
  | childrenClose tag closing ofTag => exact crlf_cons_sign (by decide) ofTag
  | elementEmpty tag opening empty ofTag => exact ofTag
  | elementWhole tag opening whole children ofTag ofChildren => exact crlf_append ofTag ofChildren

/-- If every line feed of a source text follows a carriage return, then so it does in
each of its tokens. -/
theorem Scans.crlf {source : Text} {tokens : List Token} (scans : Scans source tokens)
    (crlf : source.Crlf) : ∀ token ∈ tokens, token.Crlf := by
  cases scans with
  | script noLine reads => exact (reads.keepsLineEnds crlf).1
  | hashbang oneLine ends reads =>
      refine (crlf_cons_of_last .hashbang (by decide) (fun isLast => ?_) reads.keepsLineEnds crlf).1
      exact absurd (oneLine _ (List.mem_of_mem_getLast? isLast)) (by decide)

end Script

end Deflow
