import Deflow.Proofs.Document.Balance
import Deflow.Proofs.Script.Shape

/-!
# Braces around script

Script between braces ends with the brace that closes it, and all other braces in it are
balanced, although the reader counts only those that stand outside of markup.  A markup
element closes every brace that it opens.  Whoever counts braces, the reader of the script
around the element or the parser with its stack of brackets, is therefore behind the
element where it was in front of it.
-/

namespace Deflow

open Script

/-! ## Braces among tokens -/

/-- Balanced brackets that are put between others leave them as balanced as they are. -/
theorem Balanced.insert {front middle back : List Char} (balanced : Balanced (front ++ back))
    (ofMiddle : Balanced middle) : Balanced (front ++ (middle ++ back)) := by
  generalize isAll : front ++ back = all at balanced
  induction balanced generalizing front back with
  | nil =>
      rcases List.append_eq_nil_iff.mp isAll with ⟨rfl, rfl⟩
      simpa using ofMiddle
  | @wrap opener closer inner pair within inductionHypothesis =>
      cases front with
      | nil =>
          replace isAll : back = opener :: (inner ++ [closer]) := isAll
          subst isAll
          exact ofMiddle.append (.wrap pair within)
      | cons first front =>
          rw [List.cons_append] at isAll
          rcases List.cons.inj isAll with ⟨rfl, isInner⟩
          rcases List.eq_nil_or_concat back with rfl | ⟨back, last, rfl⟩
          · -- The middle stands behind the whole pair.
            rw [List.append_nil] at isInner ⊢
            rw [List.cons_append, isInner, ← List.cons_append]
            exact (Balanced.wrap pair within).append ofMiddle
          · rw [List.concat_eq_append, ← List.append_assoc] at isInner
            rcases List.append_inj' isInner rfl with ⟨sameInner, sameLast⟩
            cases sameLast
            have inside := inductionHypothesis sameInner
            simpa using Balanced.wrap pair inside
  | append ofFirst ofSecond firstHypothesis secondHypothesis =>
      rcases List.append_eq_append_iff.mp isAll.symm with
        ⟨between, rfl, rfl⟩ | ⟨between, rfl, rfl⟩
      · rw [List.append_assoc]
        exact ofFirst.append (secondHypothesis rfl)
      · rw [← List.append_assoc middle, ← List.append_assoc front]
        exact (firstHypothesis rfl).append ofSecond

/-- The brace that a token is. -/
def Script.Token.brace? (token : Token) : Option Char :=
  if token.isPunct '\x7b' then some '\x7b'
  else if token.isPunct '\x7d' then some '\x7d'
  else none

/-- The braces among tokens. -/
def bracesOf (tokens : List Token) : List Char :=
  tokens.filterMap Token.brace?

@[simp]
theorem bracesOf_nil : bracesOf [] = [] :=
  rfl

@[simp]
theorem bracesOf_append (first second : List Token) :
    bracesOf (first ++ second) = bracesOf first ++ bracesOf second :=
  List.filterMap_append

theorem bracesOf_cons (token : Token) (tokens : List Token) :
    bracesOf (token :: tokens) = token.brace?.toList ++ bracesOf tokens := by
  cases brace : token.brace? with
  | none => exact List.filterMap_cons_none brace
  | some c => exact List.filterMap_cons_some brace

theorem Script.Token.brace?_eq_some_iff {token : Token} {c : Char} :
    token.brace? = some c ↔ token = .punct c ∧ (c = '\x7b' ∨ c = '\x7d') := by
  unfold Token.brace?
  constructor
  · intro isBrace
    split at isBrace
    · rename_i opens
      cases isBrace
      exact ⟨Token.isPunct_iff.mp opens, .inl rfl⟩
    · split at isBrace
      · rename_i closes
        cases isBrace
        exact ⟨Token.isPunct_iff.mp closes, .inr rfl⟩
      · cases isBrace
  · rintro ⟨rfl, rfl | rfl⟩ <;> rfl

/-! ## Reading -/

/-- Tokens whose brackets are braces around script, and whatever stands in that script, as
long as its braces are balanced. -/
inductive Braced : List Token → Prop
  | nil : Braced []
  | cons {token : Token} {tokens : List Token} (noBracket : token.bracket? = none)
      (noBrace : token.brace? = none) (more : Braced tokens) : Braced (token :: tokens)
  | script {inner tokens : List Token} (balanced : Balanced (bracesOf inner))
      (more : Braced tokens) :
      Braced (.punct '\x7b' :: (inner ++ .punct '\x7d' :: tokens))

theorem Braced.append {first second : List Token} (ofFirst : Braced first)
    (ofSecond : Braced second) : Braced (first ++ second) := by
  induction ofFirst with
  | nil => exact ofSecond
  | cons noBracket noBrace more inductionHypothesis =>
      exact .cons noBracket noBrace inductionHypothesis
  | script balanced more inductionHypothesis =>
      rw [List.cons_append, List.append_assoc, List.cons_append]
      exact .script balanced inductionHypothesis

/-- The braces of braced tokens are balanced. -/
theorem Braced.balanced {tokens : List Token} (braced : Braced tokens) :
    Balanced (bracesOf tokens) := by
  induction braced with
  | nil => exact .nil
  | cons noBracket noBrace more inductionHypothesis =>
      rw [bracesOf_cons, noBrace]
      exact inductionHypothesis
  | @script inner tokens balanced more inductionHypothesis =>
      have isWhole : bracesOf (.punct '\x7b' :: (inner ++ .punct '\x7d' :: tokens)) =
          '\x7b' :: (bracesOf inner ++ ['\x7d']) ++ bracesOf tokens := by
        simp [bracesOf_cons, Token.brace?, Token.isPunct, Token.punct]
      rw [isWhole]
      exact (Balanced.wrap (by simp [bracketPairs]) balanced).append inductionHypothesis

/-- Script between braces closes the braces that are open in it and the one around it, and
markup closes its own. -/
def ClosesBraces (tokens : List Token) : Mode → Prop
  | .script .closingBrace context => ∃ inner, tokens = inner ++ [.punct '\x7d'] ∧
      Balanced (List.replicate context.depth '\x7b' ++ bracesOf inner)
  | .tag _ | .children _ | .element => Braced tokens
  | _ => True

/-- One more token in front of script in which as many braces are open as behind it. -/
theorem balanced_push {context : Context} {token : Token} {rest : Text} {inner : List Token}
    (alone : StandsAlone .closingBrace context token rest)
    (ofMore : Balanced (List.replicate (context.push token).depth '\x7b' ++ bracesOf inner)) :
    Balanced (List.replicate context.depth '\x7b' ++ bracesOf (token :: inner)) := by
  rw [bracesOf_cons]
  by_cases opens : token.isPunct '\x7b' = true
  · simp only [Context.push, opens, if_true, List.replicate_succ', List.append_assoc] at ofMore
    simpa [Token.brace?, opens] using ofMore
  by_cases closes : token.isPunct '\x7d' = true
  · -- The brace that is closed is one of those that are open: else the script would end.
    cases isDepth : context.depth with
    | zero => cases alone.goesOn closes isDepth
    | succ depth =>
        simp only [Context.push, opens, closes, isDepth, if_false, if_true, Bool.false_eq_true,
          Nat.add_sub_cancel] at ofMore
        have pair : Balanced ['\x7b', '\x7d'] :=
          .wrap (by simp [bracketPairs]) .nil
        have inserted := ofMore.insert pair
        simpa [Token.brace?, opens, closes, List.replicate_succ'] using inserted
  · simp only [Context.push, opens, closes, if_false, Bool.false_eq_true] at ofMore
    simpa [Token.brace?, opens, closes] using ofMore

/-- The parts of a tag are no brackets. -/
theorem Script.IsTagPart.bracket? {part : TagPart} {token : Token}
    (shape : IsTagPart part token.text) (kind : token.kind = part.kind)
    (notBrace : part ≠ .openBrace) : token.bracket? = none ∧ token.brace? = none := by
  rcases token with ⟨tokenKind, text⟩
  replace shape : IsTagPart part text := shape
  obtain rfl : tokenKind = part.kind := kind
  cases shape with
  | openBrace => exact absurd rfl notBrace
  | punctuation sign =>
      rcases sign with rfl | rfl | rfl
      all_goals exact ⟨rfl, rfl⟩
  | _ => exact ⟨rfl, rfl⟩

theorem Script.Reads.closesBraces {mode : Mode} {text rest : Text} {tokens : List Token}
    (reads : Reads mode text tokens rest) : ClosesBraces tokens mode := by
  have braces {script tokens : List Token} {context : Context} (level : context.depth = 0)
      (ofScript : ClosesBraces script (.script .closingBrace context)) (ofMore : Braced tokens) :
      Braced (.punct '\x7b' :: (script ++ tokens)) := by
    rcases ofScript with ⟨inner, rfl, balanced⟩
    rw [List.append_assoc]
    exact .script (by simpa [level] using balanced) ofMore
  induction reads with
  | scriptEnd | templateEnd | templateEscape | templateScript | templateChar => trivial
  | scriptClose level => exact ⟨[], rfl, by simpa [level] using Balanced.nil⟩
  | @scriptTemplate stop context text body behind rest tokens template more _ inductionHypothesis =>
      cases stop with
      | endOfInput => trivial
      | closingBrace =>
          rcases inductionHypothesis with ⟨inner, rfl, balanced⟩
          exact ⟨⟨.template, '\x60' :: body⟩ :: inner, rfl, balanced⟩
  | @scriptRegex stop context body behind rest tokens expected slash length more
      inductionHypothesis =>
      cases stop with
      | endOfInput => trivial
      | closingBrace =>
          rcases inductionHypothesis with ⟨inner, rfl, balanced⟩
          exact ⟨⟨.regex, '/' :: body⟩ :: inner, rfl, balanced⟩
  | @scriptMarkup stop context text behind rest element tokens expected opens markup more ofElement
      ofMore =>
      cases stop with
      | endOfInput => trivial
      | closingBrace =>
          rcases ofMore with ⟨inner, rfl, balanced⟩
          refine ⟨.punct '<' :: (element ++ inner), by simp, ?_⟩
          have inserted := Balanced.insert balanced (Braced.balanced ofElement)
          rw [← bracesOf_append] at inserted
          exact inserted
  | @scriptToken stop context source text rest token tokens spelled plain alone more
      inductionHypothesis =>
      cases stop with
      | endOfInput => trivial
      | closingBrace =>
          rcases inductionHypothesis with ⟨inner, rfl, balanced⟩
          exact ⟨token :: inner, rfl, balanced_push alone balanced⟩
  | tagClose => exact .cons rfl rfl .nil
  | tagPart spelled found kind notClose notBrace more inductionHypothesis =>
      subst spelled
      have shape := (tagPart?_append_eq_some_iff.mp found).1
      rcases shape.bracket? kind notBrace with ⟨noBracket, noBrace⟩
      exact .cons noBracket noBrace inductionHypothesis
  | tagScript inner more ofScript ofMore | childrenScript inner more ofScript ofMore =>
      exact braces rfl ofScript ofMore
  | childrenText nonempty inside ends more inductionHypothesis =>
      exact .cons rfl rfl inductionHypothesis
  | childrenElement markup more ofElement ofMore =>
      exact .cons rfl rfl (Braced.append ofElement ofMore)
  | childrenClose tag closing ofTag => exact .cons rfl rfl ofTag
  | elementEmpty tag opening empty ofTag => exact ofTag
  | elementWhole tag opening whole children ofTag ofChildren =>
      exact Braced.append ofTag ofChildren

/-! ## Counting braces -/

theorem eq_of_pair {opener closer : Char} (pair : (opener, closer) ∈ bracketPairs)
    (isBrace : opener = '\x7b' ∨ opener = '\x7d') : opener = '\x7b' ∧ closer = '\x7d' := by
  rcases isBrace with rfl | rfl
  · simpa [bracketPairs] using pair
  · simp [bracketPairs] at pair

/-- The two ends of a pair of braces. -/
theorem eq_punct_of_pair {first last : Token} {opener closer : Char}
    (isOpener : first.brace? = some opener) (isCloser : last.brace? = some closer)
    (pair : (opener, closer) ∈ bracketPairs) : first = .punct '\x7b' ∧ last = .punct '\x7d' := by
  rcases Token.brace?_eq_some_iff.mp isOpener with ⟨rfl, isBrace⟩
  rcases Token.brace?_eq_some_iff.mp isCloser with ⟨rfl, _⟩
  rcases eq_of_pair pair isBrace with ⟨rfl, rfl⟩
  exact ⟨rfl, rfl⟩

/-- A token that is no brace does not change the depth. -/
theorem depth_push_of_none {token : Token} (noBrace : token.brace? = none) (state : ScriptState) :
    (state.push token).depth = state.depth := by
  unfold Token.brace? at noBrace
  split at noBrace
  · cases noBrace
  · rename_i notOpen
    split at noBrace
    · cases noBrace
    · rename_i notClose
      simp [ScriptState.push, notOpen, notClose]

/-- The depth behind pairs of braces is the one in front of them. -/
theorem Paired.depth_foldl {tokens : List Token} (paired : Paired Token.brace? tokens)
    (state : ScriptState) : (tokens.foldl ScriptState.push state).depth = state.depth := by
  induction paired generalizing state with
  | @others tokens noBrace =>
      induction tokens generalizing state with
      | nil => rfl
      | cons token tokens inductionHypothesis =>
          rcases List.forall_mem_cons.mp noBrace with ⟨first, others⟩
          rw [List.foldl_cons, inductionHypothesis others, depth_push_of_none first]
  | wrap isOpener isCloser pair within inductionHypothesis =>
      rcases eq_punct_of_pair isOpener isCloser pair with ⟨rfl, rfl⟩
      rw [List.foldl_cons, List.foldl_append, List.foldl_cons, List.foldl_nil]
      generalize behind : List.foldl ScriptState.push _ _ = inside
      have isDepth := congrArg ScriptState.depth behind
      rw [inductionHypothesis] at isDepth
      replace isDepth : state.depth + 1 = inside.depth := isDepth
      have isClosed : (inside.push (.punct '\x7d')).depth = inside.depth - 1 := rfl
      rw [isClosed, ← isDepth, Nat.add_sub_cancel]
  | append ofFirst ofSecond first second => rw [List.foldl_append, second, first]

/-! ## The stack of brackets -/

theorem eq_punct_of_bracket? {token : Token} {c : Char}
    (sign : token.kind = .punctuation → ∃ c, token = .punct c)
    (bracket : token.bracket? = some c) : token = .punct c := by
  have isPunctuation : token.kind = .punctuation := by
    unfold Token.bracket? at bracket
    split at bracket
    · assumption
    · cases bracket
  rcases sign isPunctuation with ⟨d, rfl⟩
  simp only [Token.bracket?, Token.punct] at bracket
  split at bracket
  · cases bracket
    rfl
  · cases bracket

/-- Among the open brackets `brackets`, the innermost brace is `brace`, around which `outer`
are open. -/
def InnermostBrace (brace : OpenBracket) (outer brackets : List OpenBracket) : Prop :=
  ∃ inner, brackets = inner ++ brace :: outer ∧ ∀ bracket ∈ inner, bracket.opener ≠ '\x7b'

section

variable {brace : OpenBracket} {outer brackets behind : List OpenBracket} {position : Position}

/-- A token that is no brace opens and closes other brackets inside the innermost brace. -/
theorem InnermostBrace.step (innermost : InnermostBrace brace outer brackets)
    (isBrace : brace.opener = '\x7b') {token : Token}
    (sign : token.kind = .punctuation → ∃ c, token = .punct c) (noBrace : token.brace? = none)
    (tracked : trackToken brackets ⟨token, position⟩ = .ok behind) :
    InnermostBrace brace outer behind := by
  rcases innermost with ⟨inner, rfl, others⟩
  cases bracket : token.bracket? with
  | none =>
      rw [trackToken_of_none bracket] at tracked
      cases tracked
      exact ⟨inner, rfl, others⟩
  | some c =>
      have notBrace : c ≠ '\x7b' ∧ c ≠ '\x7d' := by
        rw [eq_punct_of_bracket? sign bracket] at noBrace
        constructor
        all_goals
          rintro rfl
          cases noBrace
      rcases Token.opens_or_closes bracket with opens | ⟨_, opener, pair⟩
      · rw [trackToken_opener opens] at tracked
        cases tracked
        exact ⟨⟨c, position⟩ :: inner, rfl, List.forall_mem_cons.mpr ⟨notBrace.1, others⟩⟩
      · rw [trackToken_of_some bracket] at tracked
        have notOpener : opener ≠ '\x7b' := by
          rintro rfl
          exact notBrace.2 (eq_of_pair pair (.inl rfl)).2
        cases inner with
        | nil =>
            have different : brace.opener ≠ opener := isBrace ▸ notOpener.symm
            rw [List.nil_append, trackBracket_mismatched pair different] at tracked
            cases tracked
        | cons first inner =>
            by_cases same : first.opener = opener
            · rcases first with ⟨firstOpener, opened⟩
              replace same : firstOpener = opener := same
              subst same
              rw [List.cons_append, trackBracket_closer pair] at tracked
              cases tracked
              exact ⟨inner, rfl, (List.forall_mem_cons.mp others).2⟩
            · rw [List.cons_append, trackBracket_mismatched pair same] at tracked
              cases tracked

/-- A brace closes the innermost brace. -/
theorem InnermostBrace.close (innermost : InnermostBrace brace outer brackets)
    (isBrace : brace.opener = '\x7b')
    (tracked : trackToken brackets ⟨.punct '\x7d', position⟩ = .ok behind) : behind = outer := by
  have pair : ('\x7b', '\x7d') ∈ bracketPairs := by simp [bracketPairs]
  rw [trackToken_of_some (bracket?_punct pair).2] at tracked
  rcases innermost with ⟨inner, rfl, others⟩
  rcases brace with ⟨opener, opened⟩
  replace isBrace : opener = '\x7b' := isBrace
  subst isBrace
  cases inner with
  | nil =>
      rw [List.nil_append, trackBracket_closer pair] at tracked
      cases tracked
      rfl
  | cons first inner =>
      have different := others first (List.mem_cons_self ..)
      rw [List.cons_append, trackBracket_mismatched pair different] at tracked
      cases tracked

/-- Braces leave nothing open if all that stands between them leaves their brace innermost. -/
theorem eq_of_tracked_braces {inner : List Token}
    (keeps : ∀ between, trackPlaced (⟨'\x7b', position⟩ :: brackets)
      (position.after ['\x7b']) inner = .ok between →
      InnermostBrace ⟨'\x7b', position⟩ brackets between)
    (tracked : trackPlaced brackets position (.punct '\x7b' :: (inner ++ [.punct '\x7d'])) =
      .ok behind) : behind = brackets := by
  have pair : ('\x7b', '\x7d') ∈ bracketPairs := by simp [bracketPairs]
  have opens : (Token.punct '\x7b').Opens '\x7b' := ⟨(bracket?_punct pair).1, _, pair⟩
  rw [trackPlaced_cons, trackToken_opener opens] at tracked
  replace tracked : trackPlaced (⟨'\x7b', position⟩ :: brackets) (position.after ['\x7b'])
      (inner ++ [.punct '\x7d']) = .ok behind := tracked
  rw [trackPlaced_append, Declaration.bind_eq_ok_iff] at tracked
  rcases tracked with ⟨between, ofInner, last⟩
  rw [trackPlaced_cons, Declaration.bind_eq_ok_iff] at last
  rcases last with ⟨closed, last, done⟩
  cases done
  exact (keeps between ofInner).close rfl last

theorem InnermostBrace.others (innermost : InnermostBrace brace outer brackets)
    (isBrace : brace.opener = '\x7b') {tokens : List Token}
    (signs : ∀ token ∈ tokens, token.kind = .punctuation → ∃ c, token = .punct c)
    (noBrace : ∀ token ∈ tokens, token.brace? = none)
    (tracked : trackPlaced brackets position tokens = .ok behind) :
    InnermostBrace brace outer behind := by
  induction tokens generalizing brackets position with
  | nil =>
      cases tracked
      exact innermost
  | cons token tokens inductionHypothesis =>
      rw [trackPlaced_cons, Declaration.bind_eq_ok_iff] at tracked
      rcases tracked with ⟨between, first, more⟩
      rcases List.forall_mem_cons.mp signs with ⟨sign, otherSigns⟩
      rcases List.forall_mem_cons.mp noBrace with ⟨isNone, otherNone⟩
      exact inductionHypothesis (innermost.step isBrace sign isNone first) otherSigns otherNone more

/-- Behind pairs of braces the innermost brace is still the same. -/
theorem InnermostBrace.run (innermost : InnermostBrace brace outer brackets)
    (isBrace : brace.opener = '\x7b') {tokens : List Token}
    (signs : ∀ token ∈ tokens, token.kind = .punctuation → ∃ c, token = .punct c)
    (paired : Paired Token.brace? tokens)
    (tracked : trackPlaced brackets position tokens = .ok behind) :
    InnermostBrace brace outer behind := by
  induction paired generalizing brace outer brackets position behind with
  | others noBrace => exact innermost.others isBrace signs noBrace tracked
  | wrap isOpener isCloser pair within inductionHypothesis =>
      rcases eq_punct_of_pair isOpener isCloser pair with ⟨rfl, rfl⟩
      rcases List.forall_mem_append.mp (List.forall_mem_cons.mp signs).2 with ⟨innerSigns, _⟩
      have same : behind = brackets := by
        apply eq_of_tracked_braces _ tracked
        intro between ofInner
        exact inductionHypothesis ⟨[], rfl, by simp⟩ rfl innerSigns ofInner
      exact same ▸ innermost
  | append ofFirst ofSecond firstHypothesis secondHypothesis =>
      rw [trackPlaced_append, Declaration.bind_eq_ok_iff] at tracked
      rcases tracked with ⟨between, first, second⟩
      rcases List.forall_mem_append.mp signs with ⟨firstSigns, secondSigns⟩
      exact secondHypothesis (firstHypothesis innermost isBrace firstSigns first) isBrace
        secondSigns second

/-- If the parser accepts the brackets of braced tokens, the same brackets are open behind the
tokens as in front of them. -/
theorem Braced.eq_of_tracked {tokens : List Token} (braced : Braced tokens)
    (signs : ∀ token ∈ tokens, token.kind = .punctuation → ∃ c, token = .punct c)
    (tracked : trackPlaced brackets position tokens = .ok behind) : behind = brackets := by
  induction braced generalizing brackets position with
  | nil =>
      cases tracked
      rfl
  | cons noBracket noBrace more inductionHypothesis =>
      rw [trackPlaced_cons, trackToken_of_none noBracket] at tracked
      exact inductionHypothesis (List.forall_mem_cons.mp signs).2 tracked
  | @script inner tokens balanced more inductionHypothesis =>
      have isWhole : Token.punct '\x7b' :: (inner ++ .punct '\x7d' :: tokens) =
          (Token.punct '\x7b' :: (inner ++ [.punct '\x7d'])) ++ tokens := by
        simp
      rw [isWhole] at signs tracked
      rw [trackPlaced_append, Declaration.bind_eq_ok_iff] at tracked
      rcases tracked with ⟨between, ofBraces, ofTokens⟩
      rcases List.forall_mem_append.mp signs with ⟨braceSigns, otherSigns⟩
      rcases List.forall_mem_append.mp (List.forall_mem_cons.mp braceSigns).2 with ⟨innerSigns, _⟩
      have same : between = brackets := by
        apply eq_of_tracked_braces _ ofBraces
        intro inside ofInner
        have innermost : InnermostBrace ⟨'\x7b', position⟩ brackets
            (⟨'\x7b', position⟩ :: brackets) := ⟨[], rfl, by simp⟩
        exact innermost.run rfl innerSigns (balanced.paired rfl) ofInner
      subst same
      exact inductionHypothesis otherSigns ofTokens

end

/-! ## Script between braces and markup elements -/

/-- Script between braces ends with the first brace that is not opened in it.  A markup
element closes all braces that it opens: the depth that script keeps over it is the one that
is left by counting its braces, and the parser has the same brackets open behind it as in
front of it. -/
theorem closes_own_braces :
    (∀ state text all, state.depth = 0 → readScript .closingBrace state 0 text = .ok all →
      ∃ inner rest, all = state.read.reverse ++ (inner ++ [.punct '\x7d']) ∧
        text = Token.spell (inner ++ [.punct '\x7d']) ++ rest ∧ Balanced (bracesOf inner)) ∧
      ∀ text tokens, readElement text = some tokens →
        (∃ rest, '<' :: text = Token.spell tokens ++ rest) ∧
        Balanced (bracesOf tokens) ∧
        (∀ state : ScriptState, (state.pushMarkup tokens).depth = state.depth ∧
          (tokens.foldl ScriptState.push state).depth = state.depth) ∧
        ∀ brackets position behind,
          trackPlaced brackets position tokens = .ok behind → behind = brackets := by
  constructor
  · intro state text all isZero isRead
    rcases readScript_eq_ok_iff.mp isRead with ⟨tokens, rest, reads, rfl⟩
    rcases reads.closesBraces with ⟨inner, rfl, balanced⟩
    have noneOpen : state.context.depth = 0 := isZero
    rw [noneOpen] at balanced
    exact ⟨inner, rest, rfl, reads.spelled, balanced⟩
  · intro text tokens isRead
    rcases readElement_eq_some_iff.mp isRead with ⟨tokens, rest, reads, rfl⟩
    have braced : Braced (.punct '<' :: tokens) := .cons rfl rfl reads.closesBraces
    have signs : ∀ token ∈ Token.punct '<' :: tokens,
        token.kind = .punctuation → ∃ c, token = .punct c := by
      refine List.forall_mem_cons.mpr ⟨fun _ => ⟨'<', rfl⟩, ?_⟩
      intro token member
      exact (reads.shaped (by simp) token member).exists_punct
    refine ⟨⟨rest, by rw [reads.spelled]; rfl⟩, braced.balanced, ?_, ?_⟩
    · exact fun state => ⟨rfl, (braced.balanced.paired rfl).depth_foldl state⟩
    · exact fun brackets position behind => braced.eq_of_tracked signs

/-- An element with braces in its text and in a regular expression, which are none, as the first
of what stands between braces and parentheses. -/
theorem closes_own_braces_hidden :
    let markup : Text := "b c=\x7b\x7b\x7d\x7d>\x7d\x7b/\x7d/\x7d</b>\x7dd".toList
    ∃ script element behind,
      readScript .closingBrace {} 0 ('<' :: markup) = .ok script ∧
      (∃ inner rest, script = inner ++ [.punct '\x7d'] ∧
        '<' :: markup = Token.spell (inner ++ [.punct '\x7d']) ++ rest ∧
        Balanced (bracesOf inner)) ∧
      readElement markup = some element ∧
      bracesOf element = "\x7b\x7b\x7d\x7d\x7b\x7d".toList ∧
      Balanced (bracesOf element) ∧
      trackPlaced [⟨'(', ⟨1, 1⟩⟩] ⟨1, 3⟩ element = .ok behind ∧
      behind = [⟨'(', ⟨1, 1⟩⟩] := by
  intro markup
  have isElement : readElement markup =
      some [Token.punct '<', ⟨.jsxName, ['b']⟩, ⟨.whitespace, [' ']⟩, ⟨.jsxName, ['c']⟩,
        Token.punct '=', Token.punct '\x7b', Token.punct '\x7b', Token.punct '\x7d',
        Token.punct '\x7d', Token.punct '>', ⟨.jsxText, ['\x7d']⟩, Token.punct '\x7b',
        ⟨.regex, "/\x7d/".toList⟩, Token.punct '\x7d', Token.punct '<', Token.punct '/',
        ⟨.jsxName, ['b']⟩, Token.punct '>'] := by
    decide +kernel
  have isScript : readScript .closingBrace {} 0 ('<' :: markup) =
        .ok [Token.punct '<', ⟨.jsxName, ['b']⟩, ⟨.whitespace, [' ']⟩, ⟨.jsxName, ['c']⟩,
          Token.punct '=', Token.punct '\x7b', Token.punct '\x7b', Token.punct '\x7d',
          Token.punct '\x7d', Token.punct '>', ⟨.jsxText, ['\x7d']⟩, Token.punct '\x7b',
          ⟨.regex, "/\x7d/".toList⟩, Token.punct '\x7d', Token.punct '<', Token.punct '/',
          ⟨.jsxName, ['b']⟩, Token.punct '>', Token.punct '\x7d'] := by
    decide +kernel
  rcases closes_own_braces with ⟨ofScript, ofElement⟩
  rcases ofElement _ _ isElement with ⟨_, balanced, _, keeps⟩
  refine ⟨_, _, [⟨'(', ⟨1, 1⟩⟩], isScript, ofScript _ _ _ rfl isScript, isElement, rfl, balanced,
    ?tracked, keeps _ _ _ ?tracked⟩
  rfl

end Deflow
