import Deflow.Proofs.Script.LineEnds

/-!
# How tokens begin and end

Script, tags and children have readers of their own, but a comment, a string or a sign
looks the same wherever it was read.  What a token looks like follows from its kind, as
far as others rely on it.
-/

namespace Deflow.Script

/-! ## Shapes -/

/-- How a token of each kind is written, as far as others rely on it. -/
def Token.Shaped (token : Token) : Prop :=
  match token.kind with
  | .lineComment => ['/', '/'] <+: token.text ∧ '\n' ∉ token.text ∧ '\r' ∉ token.text
  | .blockComment => ∃ body, token.text = '/' :: '*' :: (body ++ ['*', '/']) ∧
      ¬['*', '/'] <:+: body ++ ['*']
  | .string => ∃ quote body, (quote = '"' ∨ quote = '\'') ∧ token.text = quote :: (body ++ [quote])
  | .template => ∃ body, token.text = '\x60' :: (body ++ ['\x60'])
  | .regex => token.text.head? = some '/' ∧
      '\n' ∉ token.text ∧ '\r' ∉ token.text ∧ '\u2028' ∉ token.text ∧ '\u2029' ∉ token.text
  | .jsxText => '<' ∉ token.text ∧ '\x7b' ∉ token.text
  | .punctuation => ∃ c, token.text = [c] ∧ c.toNat < 128
  | _ => True

/-- Punctuation is a single character. -/
theorem Token.Shaped.exists_punct {token : Token} (shaped : token.Shaped)
    (isPunctuation : token.kind = .punctuation) : ∃ c, token = .punct c := by
  rcases token with ⟨kind, text⟩
  cases isPunctuation
  rcases shaped with ⟨c, spelled, _⟩
  exact ⟨c, congrArg (Token.mk .punctuation) spelled⟩

theorem shaped_punct {c : Char} (ascii : c.toNat < 128) : (Token.punct c).Shaped :=
  ⟨c, rfl, ascii⟩

theorem shaped_lineComment {body : Text} (oneLine : ∀ c ∈ body, isLineFeed c = false) :
    Token.Shaped ⟨.lineComment, '/' :: '/' :: body⟩ := by
  have notMem {c : Char} (feed : isLineFeed c = true) : c ∉ '/' :: '/' :: body := by
    have notSlash := ne_of_isLineFeed feed (by decide : isLineFeed '/' = false)
    simp only [List.mem_cons, notSlash, false_or]
    intro member
    simp [oneLine c member] at feed
  exact ⟨⟨body, rfl⟩, notMem (by decide), notMem (by decide)⟩

/-- The end of a comment is the first one behind its beginning. -/
theorem exists_of_commentEnd? {size : Nat} {text : Text}
    (closed : commentEnd? size text = some (size + text.length)) :
    ∃ body, text = body ++ ['*', '/'] ∧ ¬['*', '/'] <:+: body ++ ['*'] := by
  fun_induction commentEnd? size text with
  | case1 => cases closed
  | case2 size text =>
      simp only [List.length_cons, Option.some.injEq] at closed
      obtain rfl : text = [] := List.length_eq_zero_iff.mp (by omega)
      exact ⟨[], rfl, by decide⟩
  | case3 size c text notEnd inductionHypothesis =>
      have behind : commentEnd? (size + 1) text = some (size + 1 + text.length) := by
        rw [closed, List.length_cons]
        congr 1
        omega
      rcases inductionHypothesis behind with ⟨body, rfl, first⟩
      refine ⟨c :: body, rfl, ?_⟩
      rw [List.cons_append, List.infix_cons_iff, not_or]
      constructor
      · rintro ⟨rest, spelled⟩
        rcases List.cons.inj spelled with ⟨rfl, behind⟩
        cases body with
        | nil => simp at behind
        | cons d body =>
            rcases List.cons.inj behind with ⟨rfl, _⟩
            exact notEnd _ rfl rfl
      · exact first

theorem shaped_blockComment {body : Text} (closed : commentEnd? 0 body = some body.length) :
    Token.Shaped ⟨.blockComment, '/' :: '*' :: body⟩ := by
  rcases exists_of_commentEnd? (closed.trans (by rw [Nat.zero_add])) with ⟨inner, rfl, first⟩
  exact ⟨inner, rfl, first⟩

theorem shaped_regex {body : Text} (whole : regexLength? body = some body.length) :
    Token.Shaped ⟨.regex, '/' :: body⟩ := by
  have notMem {c : Char} (terminator : isLineTerminator c = true) : c ∉ '/' :: body := by
    have notSlash : c ≠ '/' := by
      rintro rfl
      exact absurd terminator (by decide)
    simp only [List.mem_cons, notSlash, false_or]
    intro member
    simp [isLineTerminator_of_regexLength? whole c member] at terminator
  exact ⟨rfl, notMem (by decide), notMem (by decide), notMem (by decide), notMem (by decide)⟩

theorem IsLexeme.shaped {token : Token} (lexeme : IsLexeme token) : token.Shaped := by
  cases lexeme with
  | lineComment oneLine => exact shaped_lineComment oneLine
  | blockComment closed => exact shaped_blockComment closed
  | string isQuote closed =>
      have last := getLast?_of_stringEnd? (closed.trans (by rw [Nat.zero_add]))
      rcases List.getLast?_eq_some_iff.mp last with ⟨body, rfl⟩
      exact ⟨_, body, isQuote, rfl⟩
  | punctuation sign => exact shaped_punct (toNat_lt_of_isPunctuation sign)
  | whitespace | identifier | number => trivial

theorem IsTagPart.shaped {part : TagPart} {text : Text} (shape : IsTagPart part text) :
    Token.Shaped ⟨part.kind, text⟩ := by
  cases shape with
  | lineComment oneLine => exact shaped_lineComment oneLine
  | blockComment closed => exact shaped_blockComment closed
  | @string quote body isQuote inside => exact ⟨quote, body, isQuote, rfl⟩
  | openBrace | slash | close => exact shaped_punct (by decide)
  | punctuation sign => rcases sign with rfl | rfl | rfl <;> exact shaped_punct (by decide)
  | whitespace | name => trivial

/-! ## Reading -/

/-- A template ends with its quote. -/
theorem Reads.exists_of_template {text rest : Text} {token : Token}
    (reads : Reads .template text [token] rest) : ∃ body, token.text = body ++ ['\x60'] := by
  generalize isTemplate : Mode.template = mode at reads
  generalize isTokens : [token] = tokens at reads
  induction reads generalizing token with
  | templateEnd =>
      cases isTokens
      exact ⟨[], rfl⟩
  | @templateEscape c text body rest more inductionHypothesis =>
      cases isTokens
      rcases inductionHypothesis rfl rfl with ⟨inner, rfl⟩
      exact ⟨'\\' :: c :: inner, rfl⟩
  | @templateScript text behind body rest tokens script more _ inductionHypothesis =>
      cases isTokens
      rcases inductionHypothesis rfl rfl with ⟨inner, rfl⟩
      exact ⟨'$' :: '\x7b' :: (Token.spell tokens ++ inner), by simp⟩
  | @templateChar c text body rest notEnd plain noScript more inductionHypothesis =>
      cases isTokens
      rcases inductionHypothesis rfl rfl with ⟨inner, rfl⟩
      exact ⟨c :: inner, rfl⟩
  | _ => cases isTemplate

/-- Every token has the shape of its kind, whichever reader has read it. -/
theorem Reads.shaped {mode : Mode} {text rest : Text} {tokens : List Token}
    (reads : Reads mode text tokens rest) (whole : mode ≠ .template) :
    ∀ token ∈ tokens, token.Shaped := by
  induction reads with
  | scriptEnd => simp
  | scriptClose level => simpa using shaped_punct (by decide)
  | scriptTemplate template more _ moreHypothesis =>
      rcases template.exists_of_template with ⟨body, isBody⟩
      refine List.forall_mem_cons.mpr ⟨⟨body, ?_⟩, moreHypothesis (by simp)⟩
      exact congrArg _ isBody
  | scriptRegex expected slash length more moreHypothesis =>
      have alone := (regexLength?_append_eq_iff.mp length).1
      exact List.forall_mem_cons.mpr ⟨shaped_regex alone, moreHypothesis (by simp)⟩
  | scriptToken spelled plain alone more moreHypothesis =>
      subst spelled
      have lexeme := (plainToken_append_eq_ok_iff.mp plain).1
      exact List.forall_mem_cons.mpr ⟨lexeme.shaped, moreHypothesis (by simp)⟩
  | templateEnd | templateEscape | templateScript | templateChar => exact absurd rfl whole
  | tagClose => simpa using shaped_punct (by decide)
  | @tagPart items part source text rest token tokens spelled found kind notClose notBrace more
      moreHypothesis =>
      subst spelled
      have shape := (tagPart?_append_eq_some_iff.mp found).1.shaped
      rw [← kind] at shape
      exact List.forall_mem_cons.mpr ⟨shape, moreHypothesis (by simp)⟩
  | childrenText nonempty inside ends more moreHypothesis =>
      refine List.forall_mem_cons.mpr ⟨⟨?_, ?_⟩, moreHypothesis (by simp)⟩
      all_goals
        intro member
        have other := inside _ member
        simp at other
  | scriptMarkup expected opens markup more markupHypothesis moreHypothesis =>
      refine List.forall_mem_cons.mpr ⟨shaped_punct (by decide), ?_⟩
      exact List.forall_mem_append.mpr ⟨markupHypothesis (by simp), moreHypothesis (by simp)⟩
  | tagScript inner more innerHypothesis moreHypothesis
  | childrenScript inner more innerHypothesis moreHypothesis
  | childrenElement inner more innerHypothesis moreHypothesis =>
      refine List.forall_mem_cons.mpr ⟨shaped_punct (by decide), ?_⟩
      exact List.forall_mem_append.mpr ⟨innerHypothesis (by simp), moreHypothesis (by simp)⟩
  | childrenClose tag closing tagHypothesis =>
      exact List.forall_mem_cons.mpr ⟨shaped_punct (by decide), tagHypothesis (by simp)⟩
  | elementEmpty tag opening empty tagHypothesis => exact tagHypothesis (by simp)
  | elementWhole tag opening whole children tagHypothesis childrenHypothesis =>
      exact List.forall_mem_append.mpr ⟨tagHypothesis (by simp), childrenHypothesis (by simp)⟩

theorem Scans.shaped {source : Text} {tokens : List Token} (scans : Scans source tokens) :
    ∀ token ∈ tokens, token.Shaped := by
  cases scans with
  | script noLine reads => exact reads.shaped (by simp)
  | hashbang oneLine ends reads =>
      exact List.forall_mem_cons.mpr ⟨trivial, reads.shaped (by simp)⟩

end Deflow.Script
