import Deflow.Proofs.Document.Outline
import Deflow.Proofs.Script.Freestanding

/-!
# Scripts with declarations drawn anew

Declarations stand where no bracket is open.  In a markup element words are read only
between braces, so that no declaration stands inside an element, although what is in
front of it may have opened one.  Whatever is drawn in place of a declaration, the
tokens around it are therefore read as before, if each of them stays what it is in
front of the changed text.
-/

namespace Deflow

open Script

/-! ## The tokens around declarations -/

/-- A text does not begin with a character of the mark `#!` of interpreter lines. -/
def Unmarked (text : Text) : Prop :=
  text.head?.any (fun c => c == '#' || c == '!') = false

/-- Tokens begin with the word of a declaration. -/
def StartsDeclaration (tokens : List Token) : Prop :=
  [.word "import"] <+: tokens ∨ [.word "export"] <+: tokens

theorem StartsDeclaration.exists_cons {block : List Token} (starts : StartsDeclaration block) :
    ∃ word more, block = ⟨.identifier, word⟩ :: more ∧ Unmarked word ∧ word ≠ [] := by
  rcases starts with ⟨more, rfl⟩ | ⟨more, rfl⟩
  all_goals exact ⟨_, more, rfl, rfl, by decide⟩

/-- Tokens some of whose declarations are drawn anew, where the brackets `openers` are
open in front of them.  Each token that is kept stays what it is in front of the changed
text. -/
inductive Redrawn : (openers : List Char) → List Token → List Token → Prop
  | nil {openers : List Char} : Redrawn openers [] []
  | keep {openers behind : List Char} {token : Token} {tokens drawn : List Token}
      (tracked : token.track? openers = some behind)
      (stays : Stays token (Token.spell tokens) (Token.spell drawn))
      (more : Redrawn behind tokens drawn) : Redrawn openers (token :: tokens) (token :: drawn)
  /-- A declaration is left as it is. -/
  | leave {block tokens drawn : List Token} (starts : StartsDeclaration block)
      (noMarkup : ∀ token ∈ block, token.isPunct '<' = false)
      (stay : AllStay (Token.spell tokens) (Token.spell drawn) block)
      (more : Redrawn [] tokens drawn) : Redrawn [] (block ++ tokens) (block ++ drawn)
  /-- A declaration is drawn anew.  It ends with a semicolon then, which can make a
  difference to a sign that follows. -/
  | redraw {block new tokens drawn : List Token} (starts : StartsDeclaration block)
      (plain : ∀ token ∈ block, token.isPlain = true)
      (free : Freestanding (Token.spell tokens) block → Freestanding (Token.spell drawn) new)
      (head : Unmarked (Token.spell new))
      (ends : [.punct ';'] <:+ new)
      (behind : [.punct ';'] <:+ block ∨ ∀ token ∈ (meaningful tokens).head?, token.isSign = false)
      (more : Redrawn [] tokens drawn) : Redrawn [] (block ++ tokens) (new ++ drawn)

/-- A token that is no word, or has a bracket open around it, is kept. -/
theorem Redrawn.exists_keep {openers : List Char} {token : Token} {tokens drawn : List Token}
    (redrawn : Redrawn openers (token :: tokens) drawn)
    (inside : openers ≠ [] ∨ token.kind ≠ .identifier) :
    ∃ behind rest, drawn = token :: rest ∧ token.track? openers = some behind ∧
      Stays token (Token.spell tokens) (Token.spell rest) ∧ Redrawn behind tokens rest := by
  have noDeclaration {block more : List Token} (starts : StartsDeclaration block)
      (same : token :: tokens = block ++ more) : token.kind = .identifier := by
    rcases starts.exists_cons with ⟨word, others, rfl, _⟩
    rw [(List.cons.inj same).1]
  generalize isAll : token :: tokens = all at redrawn
  cases redrawn with
  | nil => cases isAll
  | keep tracked stays more =>
      rcases List.cons.inj isAll with ⟨rfl, rfl⟩
      exact ⟨_, _, rfl, tracked, stays, more⟩
  | leave starts noMarkup stay more =>
      exact (inside.resolve_left (by simp) (noDeclaration starts isAll)).elim
  | redraw starts plain free head ends behind more =>
      exact (inside.resolve_left (by simp) (noDeclaration starts isAll)).elim

/-! ## Markup elements -/

/-- Tokens are kept, whatever stands behind them. -/
def Passes (openers : List Char) (tokens : List Token) (behind : List Char) : Prop :=
  ∀ ⦃more drawn : List Token⦄, Redrawn openers (tokens ++ more) drawn →
    ∃ rest, drawn = tokens ++ rest ∧ AllStay (Token.spell more) (Token.spell rest) tokens ∧
      Redrawn behind more rest

theorem Passes.nil (openers : List Char) : Passes openers [] openers :=
  fun _ drawn redrawn => ⟨drawn, rfl, trivial, redrawn⟩

theorem Passes.cons {openers behind : List Char} {token : Token} {tokens : List Token}
    (inside : openers ≠ [] ∨ token.kind ≠ .identifier)
    (others : ∀ found, token.track? openers = some found → Passes found tokens behind) :
    Passes openers (token :: tokens) behind := by
  intro more drawn redrawn
  rw [List.cons_append] at redrawn
  rcases redrawn.exists_keep inside with ⟨found, rest, rfl, isFound, stays, after⟩
  rcases others found isFound after with ⟨rest, rfl, allStay, redrawnBehind⟩
  rw [Token.spell_append, Token.spell_append] at stays
  exact ⟨rest, rfl, ⟨stays, allStay⟩, redrawnBehind⟩

/-- A token that is no word and no bracket. -/
theorem Passes.cons_same {openers behind : List Char} {token : Token} {tokens : List Token}
    (inside : openers ≠ [] ∨ token.kind ≠ .identifier)
    (same : token.track? openers = some openers) (others : Passes openers tokens behind) :
    Passes openers (token :: tokens) behind := by
  refine .cons inside fun found isFound => ?_
  rw [same] at isFound
  cases isFound
  exact others

theorem Passes.append {openers middle behind : List Char} {first second : List Token}
    (ofFirst : Passes openers first middle) (ofSecond : Passes middle second behind) :
    Passes openers (first ++ second) behind := by
  intro more drawn redrawn
  rw [List.append_assoc] at redrawn
  rcases ofFirst redrawn with ⟨rest, rfl, firstStay, after⟩
  rcases ofSecond after with ⟨rest, rfl, secondStay, redrawnBehind⟩
  rw [Token.spell_append, Token.spell_append] at firstStay
  exact ⟨rest, by simp, allStay_append.mpr ⟨firstStay, secondStay⟩, redrawnBehind⟩

/-- Script between braces, behind its opening brace. -/
theorem Passes.braces {openers behind : List Char} {script tokens : List Token}
    (ofScript : Passes ('\x7b' :: openers) script openers) (others : Passes openers tokens behind) :
    Passes openers (.punct '\x7b' :: (script ++ tokens)) behind := by
  refine .cons (.inr (by simp [Token.punct])) fun found isFound => ?_
  cases isFound
  exact ofScript.append others

/-- The parts of a tag are no words and no brackets. -/
theorem Script.IsTagPart.track? {part : TagPart} {token : Token} (shape : IsTagPart part token.text)
    (kind : token.kind = part.kind) (notBrace : part ≠ .openBrace) (openers : List Char) :
    token.track? openers = some openers ∧ token.kind ≠ .identifier := by
  rcases token with ⟨tokenKind, text⟩
  replace shape : IsTagPart part text := shape
  obtain rfl : tokenKind = part.kind := kind
  cases shape with
  | openBrace => exact absurd rfl notBrace
  | punctuation sign =>
      rcases sign with rfl | rfl | rfl
      all_goals exact ⟨rfl, by simp [TagPart.kind]⟩
  | _ => exact ⟨rfl, by simp [TagPart.kind]⟩

/-- A closing bracket closes the innermost open one. -/
theorem Script.Token.track?_closer {c opener : Char} {openers found : List Char}
    (closes : openerOf? c = some opener) (tracked : (Token.punct c).track? openers = some found) :
    openers = opener :: found := by
  have notOpener : isOpener c = false := by
    unfold openerOf? at closes
    split at closes <;> first | rfl | cases closes
  simp only [Token.track?, Token.punct, notOpener, closes, Bool.false_eq_true, if_false] at tracked
  cases openers with
  | nil => cases tracked
  | cons innermost outer =>
      simp only at tracked
      split at tracked
      · rename_i same
        cases tracked
        rw [same]
      · cases tracked

/-- Behind one more token of script between braces, the brackets inside the braces are
those that were opened in the script. -/
theorem track?_inside {context : Context} {token : Token} {rest : Text}
    {inner outer found : List Char} (lexeme : IsLexeme token)
    (alone : StandsAlone .closingBrace context token rest)
    (count : inner.count '\x7b' = context.depth)
    (tracked : token.track? (inner ++ '\x7b' :: outer) = some found) :
    ∃ more, found = more ++ '\x7b' :: outer ∧ more.count '\x7b' = (context.push token).depth := by
  by_cases isPunctuation : token.kind = .punctuation
  · cases lexeme with
    | @punctuation c sign =>
        by_cases opens : isOpener c = true
        · have isFound : c :: (inner ++ '\x7b' :: outer) = found := by
            simpa [Token.track?, opens] using tracked
          subst isFound
          refine ⟨c :: inner, rfl, ?_⟩
          simp only [isOpener, Bool.or_eq_true, beq_iff_eq] at opens
          rcases opens with (rfl | rfl) | rfl
          all_goals simp [Context.push, Token.isPunct, count]
        · cases closes : openerOf? c with
          | none =>
              have isFound : inner ++ '\x7b' :: outer = found := by
                simpa [Token.track?, opens, closes] using tracked
              subst isFound
              refine ⟨inner, rfl, count.trans ?_⟩
              have noBrace : c ≠ '\x7b' ∧ c ≠ '\x7d' := by
                constructor
                · rintro rfl
                  exact opens rfl
                · rintro rfl
                  cases closes
              simp [Context.push, Token.isPunct, noBrace]
          | some opener =>
              have isInner := Token.track?_closer closes tracked
              cases inner with
              | nil =>
                  -- Only a brace closes the brace, and then the script would end here.
                  rcases List.cons.inj isInner with ⟨rfl, _⟩
                  obtain rfl : c = '\x7d' := by
                    unfold openerOf? at closes
                    split at closes <;> first | rfl | cases closes
                  have ended := alone.goesOn rfl count.symm
                  cases ended
              | cons innermost inner =>
                  rcases List.cons.inj isInner with ⟨rfl, rfl⟩
                  refine ⟨inner, rfl, ?_⟩
                  unfold openerOf? at closes
                  split at closes
                  · cases closes
                    simp [Context.push, Token.isPunct, ← count]
                  · cases closes
                    simpa [Context.push, Token.isPunct] using count
                  · cases closes
                    simpa [Context.push, Token.isPunct] using count
                  · cases closes
    | _ => cases isPunctuation
  · rw [Token.track?_of_kind isPunctuation] at tracked
    cases tracked
    refine ⟨inner, rfl, count.trans ?_⟩
    simp [Context.push, Token.isPunct, isPunctuation]

/-- No declaration stands among what is read in a mode, as far as that is sure to end in
a balanced way. -/
def Shelters (tokens : List Token) : Mode → Prop
  | .script .closingBrace context => ∀ inner outer : List Char,
      inner.count '\x7b' = context.depth → Passes (inner ++ '\x7b' :: outer) tokens outer
  | .tag _ | .children _ | .element => ∀ outer, Passes outer tokens outer
  | _ => True

/-- Markup keeps its tokens. -/
theorem Script.Reads.shelters {mode : Mode} {text rest : Text} {tokens : List Token}
    (reads : Reads mode text tokens rest) : Shelters tokens mode := by
  have angle (openers : List Char) : (Token.punct '<').track? openers = some openers := rfl
  have isOpen (inner outer : List Char) : inner ++ '\x7b' :: outer ≠ [] := by simp
  induction reads with
  | scriptEnd | templateEnd | templateEscape | templateScript | templateChar => trivial
  | scriptClose level =>
      intro inner outer count
      refine .cons (.inr (by simp [Token.punct])) fun found tracked => ?_
      have isInner := Token.track?_closer rfl tracked
      cases inner with
      | nil =>
          cases isInner
          exact .nil outer
      | cons innermost inner =>
          rcases List.cons.inj isInner with ⟨rfl, _⟩
          simp [level] at count
  | @scriptTemplate stop context text body behind rest tokens template more _ inductionHypothesis =>
      cases stop with
      | endOfInput => trivial
      | closingBrace =>
          intro inner outer count
          exact .cons_same (.inl (isOpen inner outer)) rfl (inductionHypothesis inner outer count)
  | @scriptRegex stop context body behind rest tokens expected slash length more
      inductionHypothesis =>
      cases stop with
      | endOfInput => trivial
      | closingBrace =>
          intro inner outer count
          exact .cons_same (.inl (isOpen inner outer)) rfl (inductionHypothesis inner outer count)
  | @scriptMarkup stop context text behind rest element tokens expected opens markup more ofElement
      ofMore =>
      cases stop with
      | endOfInput => trivial
      | closingBrace =>
          intro inner outer count
          exact .cons_same (.inl (isOpen inner outer)) (angle _)
            ((ofElement _).append (ofMore inner outer count))
  | @scriptToken stop context source text rest token tokens spelled plain alone more
      inductionHypothesis =>
      cases stop with
      | endOfInput => trivial
      | closingBrace =>
          intro inner outer count
          subst spelled
          refine .cons (.inl (isOpen inner outer)) fun found tracked => ?_
          have lexeme := (plainToken_append_eq_ok_iff.mp plain).1
          rcases track?_inside lexeme alone count tracked with ⟨inner, rfl, count⟩
          exact inductionHypothesis inner outer count
  | tagClose => exact fun outer => .cons_same (.inr (by simp [Token.punct])) rfl (.nil outer)
  | tagPart spelled found kind notClose notBrace more inductionHypothesis =>
      intro outer
      subst spelled
      have shape := (tagPart?_append_eq_some_iff.mp found).1
      rcases shape.track? kind notBrace outer with ⟨same, notWord⟩
      exact .cons_same (.inr notWord) same (inductionHypothesis outer)
  | tagScript inner more ofScript ofMore | childrenScript inner more ofScript ofMore =>
      exact fun outer => .braces (ofScript [] outer rfl) (ofMore outer)
  | childrenText nonempty inside ends more inductionHypothesis =>
      exact fun outer => .cons_same (.inr (by simp)) rfl (inductionHypothesis outer)
  | childrenElement markup more ofElement ofMore =>
      exact fun outer => .cons_same (.inr (by simp [Token.punct])) (angle outer)
        ((ofElement outer).append (ofMore outer))
  | childrenClose tag closing ofTag =>
      exact fun outer => .cons_same (.inr (by simp [Token.punct])) (angle outer) (ofTag outer)
  | elementEmpty tag opening empty ofTag => exact ofTag
  | elementWhole tag opening whole children ofTag ofChildren =>
      exact fun outer => (ofTag outer).append (ofChildren outer)

/-! ## Reading again -/

/-- Tokens without markup that stay are read in front of what is read behind them. -/
theorem Script.AllStay.reads {context : Context} {text changed : Text}
    {block tokens new : List Token} (stay : AllStay (Token.spell tokens) changed block)
    (noMarkup : ∀ token ∈ block, token.isPunct '<' = false)
    (reads : Reads (.script .endOfInput context) text (block ++ tokens) [])
    (behind : ∀ context, Reads (.script .endOfInput context) (Token.spell tokens) tokens [] →
      Reads (.script .endOfInput context) changed new []) :
    Reads (.script .endOfInput context) (Token.spell block ++ changed) (block ++ new) [] := by
  induction block generalizing context text with
  | nil =>
      have spelled := reads.spelled
      rw [List.append_nil] at spelled
      subst spelled
      exact behind context reads
  | cons token block inductionHypothesis =>
      rcases List.forall_mem_cons.mp noMarkup with ⟨notAngle, others⟩
      have stays := stay.1
      rw [← Token.spell_append] at stays
      rcases reads.keep_first stays with ⟨context, after, put⟩ | ⟨rfl, _⟩
      · rw [Token.spell_cons, List.append_assoc]
        exact put _ (inductionHypothesis stay.2 others after)
      · cases notAngle

/-- Behind a semicolon an expression may begin. -/
theorem Script.Context.expressionStart_pushAll {tokens : List Token}
    (ends : [.punct ';'] <:+ tokens) (context : Context) :
    (context.pushAll tokens).expressionStart = true := by
  rcases ends with ⟨front, rfl⟩
  rw [Context.pushAll, List.foldl_append]
  rfl

/-- What is redrawn is read as drawn. -/
theorem Redrawn.reads {openers : List Char} {tokens drawn : List Token}
    (redrawn : Redrawn openers tokens drawn) {context : Context} {text : Text}
    (reads : Reads (.script .endOfInput context) text tokens []) :
    Reads (.script .endOfInput context) (Token.spell drawn) drawn [] := by
  have shorter (first : Token) (front tokens : List Token) :
      tokens.length < (first :: (front ++ tokens)).length := by
    rw [List.length_cons, List.length_append]
    omega
  -- An element is kept as a whole, so the induction is on the number of tokens.
  induction count : tokens.length using Nat.strong_induction_on
    generalizing openers tokens drawn context text with
  | h count inductionHypothesis =>
      subst count
      cases redrawn with
      | nil => exact .scriptEnd
      | @keep openers behind token tokens drawn tracked stays more =>
          rcases reads.keep_first stays with ⟨context, after, put⟩ |
            ⟨rfl, expected, element, others, rfl, opens, markup, after⟩
          · exact put _ (inductionHypothesis _ (Nat.lt_succ_self _) more after rfl)
          · rcases markup.shelters behind more with ⟨rest, rfl, stay, redrawn⟩
            have again := inductionHypothesis _ (shorter ..) redrawn after rfl
            have opensAgain := markup.opensMarkup_of_edited opens
              (stay.edited markup.text_ne_nil false)
            rw [Token.spell_cons, Token.spell_append]
            exact .scriptMarkup expected opensAgain (markup.element_of_allStay stay) again
      | @leave block tokens drawn starts noMarkup stay more =>
          rcases starts.exists_cons with ⟨word, others, rfl, _⟩
          rw [Token.spell_append]
          refine stay.reads noMarkup reads fun context after => ?_
          exact inductionHypothesis _ (shorter ..) more after rfl
      | @redraw block new tokens drawn starts plain free head ends behind more =>
          rcases starts.exists_cons with ⟨word, others, rfl, _⟩
          rcases reads.freestanding plain with ⟨freeBlock, after⟩
          rw [Token.spell_append]
          have same : Reads (.script .endOfInput (context.pushAll new)) (Token.spell tokens) tokens
              [] := by
            refine after.of_context (behind.imp_left fun alsoEnds => ?_)
            rw [Context.expressionStart_pushAll alsoEnds, Context.expressionStart_pushAll ends]
          exact (free freeBlock).reads (inductionHypothesis _ (shorter ..) more same rfl)

/-! ## Whole scripts -/

/-- What is drawn begins as the script did, or not with a mark. -/
theorem Redrawn.first_cases {openers : List Char} {tokens drawn : List Token}
    (redrawn : Redrawn openers tokens drawn) :
    (∃ behind token more rest, tokens = token :: more ∧ drawn = token :: rest ∧
      Redrawn behind more rest) ∨ Unmarked (Token.spell drawn) := by
  have unmarked {first : Text} (isFirst : Unmarked first) (nonempty : first ≠ []) (second : Text) :
      Unmarked (first ++ second) := by
    rwa [Unmarked, List.head?_append_of_ne_nil _ nonempty]
  cases redrawn with
  | nil => exact .inr rfl
  | keep tracked stays more => exact .inl ⟨_, _, _, _, rfl, rfl, more⟩
  | leave starts noMarkup stay more =>
      rcases starts.exists_cons with ⟨word, others, rfl, isWord, nonempty⟩
      exact .inr (unmarked isWord nonempty _)
  | redraw starts plain free head ends behind more =>
      rcases ends with ⟨front, rfl⟩
      rw [Token.spell_append]
      exact .inr (unmarked head (by simp [Token.punct]) _)

/-- No interpreter line comes about. -/
theorem Redrawn.noLine {openers : List Char} {tokens drawn : List Token}
    (redrawn : Redrawn openers tokens drawn) (filled : ∀ token ∈ tokens, token.text ≠ [])
    (line : ['#', '!'] <+: Token.spell drawn) : ['#', '!'] <+: Token.spell tokens := by
  rcases line with ⟨rest, isLine⟩
  rcases redrawn.first_cases with ⟨behind, ⟨kind, text⟩, tokens, drawn, rfl, rfl, more⟩ | unmarked
  · rcases List.forall_mem_cons.mp filled with ⟨first, others⟩
    rw [Token.spell_cons] at isLine ⊢
    match text with
    | [] => exact absurd rfl first
    | c :: d :: text =>
        rcases List.cons.inj isLine with ⟨rfl, afterMark⟩
        rcases List.cons.inj afterMark with ⟨rfl, _⟩
        exact ⟨_, rfl⟩
    | [c] =>
        rcases List.cons.inj isLine with ⟨rfl, afterMark⟩
        rcases more.first_cases with ⟨_, ⟨kind, text⟩, tokens, drawn, rfl, rfl, _⟩ | unmarked
        · cases text with
          | nil => exact absurd rfl (List.forall_mem_cons.mp others).1
          | cons d text =>
              rcases List.cons.inj afterMark with ⟨rfl, _⟩
              exact ⟨_, rfl⟩
        · have isHead : '!' :: rest = Token.spell drawn := afterMark
          rw [← isHead] at unmarked
          cases unmarked
  · rw [← isLine] at unmarked
    cases unmarked

/-- A script with declarations drawn anew has the tokens that were drawn. -/
theorem Script.Scans.redrawn {source : Text} {tokens drawn : List Token}
    (scans : Scans source tokens) (redrawn : Redrawn [] tokens drawn) :
    Scans (Token.spell drawn) drawn := by
  cases scans with
  | script noLine reads =>
      have spelled := reads.spelled
      rw [List.append_nil] at spelled
      refine .script (fun line => noLine ?_) (redrawn.reads reads)
      rw [spelled]
      exact redrawn.noLine reads.text_ne_nil line
  | hashbang oneLine ends reads =>
      rcases redrawn.exists_keep (.inr (by simp)) with ⟨behind, rest, rfl, _, stays, more⟩
      rw [reads.spelled, List.append_nil] at ends
      have endsAgain := stays.endsBefore ends
      exact .hashbang oneLine endsAgain (more.reads reads)

/-- An interpreter line stays. -/
theorem Script.Scans.line_redrawn {source : Text} {tokens drawn : List Token}
    (scans : Scans source tokens) (redrawn : Redrawn [] tokens drawn)
    (line : ['#', '!'] <+: source) : ['#', '!'] <+: Token.spell drawn := by
  cases scans with
  | script noLine reads => exact absurd line noLine
  | hashbang oneLine ends reads =>
      rcases redrawn.exists_keep (.inr (by simp)) with ⟨behind, rest, rfl, _⟩
      exact ⟨_, rfl⟩

end Deflow
