import Deflow.Proofs.Document.Outline

/-!
# Balanced brackets

Brackets are balanced if they can be put together from pairs.  This file says so as a
grammar, and shows that the brackets which the parser takes to be open behind tokens are
those that the grammar leaves open: the tokens fall apart into the open brackets and
balanced stretches between them.
-/

namespace Deflow

open Script

/-! ## The grammar -/

/-- The pairs of brackets. -/
def bracketPairs : List (Char × Char) :=
  [('(', ')'), ('[', ']'), ('\x7b', '\x7d')]

/-- Brackets that are balanced: none at all, a pair around balanced brackets, or balanced
brackets behind each other. -/
inductive Balanced : List Char → Prop
  | nil : Balanced []
  | wrap {opener closer : Char} {inner : List Char} (pair : (opener, closer) ∈ bracketPairs)
      (within : Balanced inner) : Balanced (opener :: (inner ++ [closer]))
  | append {first second : List Char} (ofFirst : Balanced first) (ofSecond : Balanced second) :
      Balanced (first ++ second)

/-- The bracket that a token is. -/
def Script.Token.bracket? (token : Token) : Option Char :=
  match token.kind, token.text with
  | .punctuation, c :: _ =>
    if bracketPairs.any fun (opener, closer) => c == opener || c == closer then some c else none
  | _, _ => none

/-- The brackets among tokens. -/
def bracketsOf (tokens : List Token) : List Char :=
  tokens.filterMap Token.bracket?

@[simp]
theorem bracketsOf_append (first second : List Token) :
    bracketsOf (first ++ second) = bracketsOf first ++ bracketsOf second :=
  List.filterMap_append

theorem bracketsOf_cons {token : Token} {c : Char} (bracket : token.bracket? = some c)
    (tokens : List Token) : bracketsOf (token :: tokens) = c :: bracketsOf tokens :=
  List.filterMap_cons_some bracket

theorem openerOf?_eq_some_iff {closer opener : Char} :
    openerOf? closer = some opener ↔ (opener, closer) ∈ bracketPairs := by
  constructor
  · intro found
    unfold openerOf? at found
    split at found <;> cases found <;> simp [bracketPairs]
  · intro pair
    simp only [bracketPairs, List.mem_cons, Prod.mk.injEq, List.not_mem_nil, or_false] at pair
    rcases pair with ⟨rfl, rfl⟩ | ⟨rfl, rfl⟩ | ⟨rfl, rfl⟩ <;> rfl

theorem isOpener_of_pair {opener closer : Char} (pair : (opener, closer) ∈ bracketPairs) :
    isOpener opener = true ∧ isOpener closer = false := by
  simp only [bracketPairs, List.mem_cons, Prod.mk.injEq, List.not_mem_nil, or_false] at pair
  rcases pair with ⟨rfl, rfl⟩ | ⟨rfl, rfl⟩ | ⟨rfl, rfl⟩ <;> exact ⟨rfl, rfl⟩

/-- A token is the bracket `opener`, the first of a pair. -/
def Script.Token.Opens (token : Token) (opener : Char) : Prop :=
  token.bracket? = some opener ∧ ∃ closer, (opener, closer) ∈ bracketPairs

/-- A token is the bracket `closer`, the second of a pair. -/
def Script.Token.Closes (token : Token) (closer : Char) : Prop :=
  token.bracket? = some closer ∧ ∃ opener, (opener, closer) ∈ bracketPairs

theorem Script.Token.opens_or_closes {token : Token} {c : Char}
    (bracket : token.bracket? = some c) :
    token.Opens c ∨ token.Closes c := by
  have isBracket := bracket
  unfold Token.bracket? at bracket
  split at bracket
  · split at bracket
    · rename_i isOne
      cases bracket
      rcases List.any_eq_true.mp isOne with ⟨⟨opener, closer⟩, member, same⟩
      simp only [Bool.or_eq_true, beq_iff_eq] at same
      rcases same with rfl | rfl
      · exact .inl ⟨isBracket, closer, member⟩
      · exact .inr ⟨isBracket, opener, member⟩
    · cases bracket
  · cases bracket

/-- Both brackets of a pair are brackets. -/
theorem bracket?_punct {opener closer : Char} (pair : (opener, closer) ∈ bracketPairs) :
    (Token.punct opener).bracket? = some opener ∧ (Token.punct closer).bracket? = some closer := by
  simp only [bracketPairs, List.mem_cons, Prod.mk.injEq, List.not_mem_nil, or_false] at pair
  rcases pair with ⟨rfl, rfl⟩ | ⟨rfl, rfl⟩ | ⟨rfl, rfl⟩ <;> exact ⟨rfl, rfl⟩

/-- White space and comments are no brackets. -/
theorem bracket?_of_trivia {token : Token} (isTrivia : token.isTrivia = true) :
    token.bracket? = none := by
  rcases token with ⟨kind, text⟩
  cases kind with
  | whitespace | lineComment | blockComment => rfl
  | _ => contradiction

/-! ## Balanced tokens -/

/-- Tokens that are put together from pairs, where `bracket?` tells which bracket a token is,
and tokens that are none. -/
inductive Paired (bracket? : Token → Option Char) : List Token → Prop
  | others {tokens : List Token} (noBracket : ∀ token ∈ tokens, bracket? token = none) :
      Paired bracket? tokens
  | wrap {first last : Token} {opener closer : Char} {inner : List Token}
      (isOpener : bracket? first = some opener) (isCloser : bracket? last = some closer)
      (pair : (opener, closer) ∈ bracketPairs) (within : Paired bracket? inner) :
      Paired bracket? (first :: (inner ++ [last]))
  | append {first second : List Token} (ofFirst : Paired bracket? first)
      (ofSecond : Paired bracket? second) : Paired bracket? (first ++ second)

/-- Tokens whose brackets are balanced are put together from pairs. -/
theorem Balanced.paired {chars : List Char} (balanced : Balanced chars)
    {bracket? : Token → Option Char} {tokens : List Token}
    (isChars : tokens.filterMap bracket? = chars) : Paired bracket? tokens := by
  induction balanced generalizing tokens with
  | nil => exact .others (List.filterMap_eq_nil_iff.mp isChars)
  | @wrap opener closer inner pair within inductionHypothesis =>
      rcases List.filterMap_eq_cons_iff.mp isChars with
        ⟨before, first, behind, rfl, noneBefore, isOpener, isBehind⟩
      rcases List.filterMap_eq_append_iff.mp isBehind with
        ⟨between, ending, rfl, isInner, isEnding⟩
      rcases List.filterMap_eq_cons_iff.mp isEnding with
        ⟨after, last, rest, rfl, noneAfter, isCloser, isRest⟩
      -- What is no bracket may stand around the pair, and in front of its end.
      have ofBetween : Paired bracket? (between ++ after) :=
        (inductionHypothesis isInner).append (.others noneAfter)
      have whole := (Paired.others noneBefore).append
        ((Paired.wrap isOpener isCloser pair ofBetween).append
          (.others (List.filterMap_eq_nil_iff.mp isRest)))
      simpa using whole
  | append ofFirst ofSecond first second =>
      rcases List.filterMap_eq_append_iff.mp isChars with ⟨front, back, rfl, isFirst, isSecond⟩
      exact (first isFirst).append (second isSecond)

/-! ## Open brackets, step by step -/

section

variable {token : Token} {brackets : List OpenBracket}

theorem trackToken_of_none (noBracket : token.bracket? = none) (position : Position) :
    trackToken brackets ⟨token, position⟩ = .ok brackets := by
  obtain ⟨kind, text⟩ := token
  unfold trackToken
  split
  · rename_i c more isKind isText
    have notOne :
        ¬(bracketPairs.any fun (opener, closer) => c == opener || c == closer) = true := by
      intro isBracket
      obtain rfl : kind = .punctuation := isKind
      obtain rfl : text = c :: more := isText
      simp [Token.bracket?, isBracket] at noBracket
    have notOpener : isOpener c = false := by
      by_contra opens
      apply notOne
      simp only [isOpener, Bool.not_eq_false, Bool.or_eq_true, beq_iff_eq] at opens
      rcases opens with (rfl | rfl) | rfl <;> rfl
    have notCloser : openerOf? c = none := by
      cases closes : openerOf? c with
      | none => rfl
      | some opener =>
          refine absurd (List.any_eq_true.mpr ⟨_, openerOf?_eq_some_iff.mp closes, ?_⟩) notOne
          simp
    simp [trackBracket, notOpener, notCloser]
  · rfl

theorem trackToken_of_some {c : Char} (bracket : token.bracket? = some c) (position : Position) :
    trackToken brackets ⟨token, position⟩ = trackBracket brackets c position := by
  obtain ⟨kind, text⟩ := token
  unfold Token.bracket? at bracket
  split at bracket
  · rename_i first more isKind isText
    obtain rfl : kind = .punctuation := isKind
    obtain rfl : text = first :: more := isText
    split at bracket
    · cases bracket
      rfl
    · cases bracket
  · cases bracket

end

section

variable {opener closer : Char} {brackets : List OpenBracket} {position : Position}

theorem trackToken_opener {token : Token} (opens : token.Opens opener) :
    trackToken brackets ⟨token, position⟩ = .ok (⟨opener, position⟩ :: brackets) := by
  rcases opens with ⟨bracket, closer, pair⟩
  rw [trackToken_of_some bracket]
  exact if_pos (isOpener_of_pair pair).1

theorem trackBracket_closer (pair : (opener, closer) ∈ bracketPairs) (opened : Position) :
    trackBracket (⟨opener, opened⟩ :: brackets) closer position = .ok brackets := by
  simp [trackBracket, (isOpener_of_pair pair).2, openerOf?_eq_some_iff.mpr pair]

theorem trackBracket_mismatched (pair : (opener, closer) ∈ bracketPairs)
    {innermost : OpenBracket} (different : innermost.opener ≠ opener) :
    trackBracket (innermost :: brackets) closer position =
      .error ⟨position, .mismatchedBracket closer innermost.opener innermost.position⟩ := by
  simp [trackBracket, (isOpener_of_pair pair).2, openerOf?_eq_some_iff.mpr pair, different]

theorem trackBracket_unexpected (pair : (opener, closer) ∈ bracketPairs) :
    trackBracket [] closer position = .error ⟨position, .unexpectedBracket closer⟩ := by
  simp [trackBracket, (isOpener_of_pair pair).2, openerOf?_eq_some_iff.mpr pair]

end

/-! ## Open brackets behind tokens -/

/-- The brackets that are open behind tokens, the first of which stands at `position`. -/
def trackPlaced (brackets : List OpenBracket) (position : Position) (tokens : List Token) :
    Except SyntaxError (List OpenBracket) :=
  (Token.place position tokens).foldlM trackToken brackets

@[simp]
theorem trackPlaced_nil (brackets : List OpenBracket) (position : Position) :
    trackPlaced brackets position [] = .ok brackets :=
  rfl

@[simp]
theorem trackPlaced_cons (brackets : List OpenBracket) (position : Position) (token : Token)
    (tokens : List Token) :
    trackPlaced brackets position (token :: tokens) =
      (trackToken brackets ⟨token, position⟩ >>= fun behind =>
        trackPlaced behind (position.after token.text) tokens) :=
  rfl

theorem trackPlaced_append (brackets : List OpenBracket) (position : Position)
    (first second : List Token) :
    trackPlaced brackets position (first ++ second) =
      (trackPlaced brackets position first >>= fun behind =>
        trackPlaced behind (position.after (Token.spell first)) second) := by
  induction first generalizing brackets position with
  | nil => rfl
  | cons token first inductionHypothesis =>
      rw [List.cons_append, trackPlaced_cons, trackPlaced_cons, bind_assoc]
      refine congrArg _ (funext fun behind => ?_)
      rw [inductionHypothesis, Token.spell_cons, Position.after_append]

/-- What is no bracket opens and closes nothing. -/
theorem trackPlaced_of_none {tokens : List Token}
    (noBracket : ∀ token ∈ tokens, token.bracket? = none) (brackets : List OpenBracket)
    (position : Position) : trackPlaced brackets position tokens = .ok brackets := by
  induction tokens generalizing position with
  | nil => rfl
  | cons token tokens inductionHypothesis =>
      obtain ⟨first, others⟩ := List.forall_mem_cons.mp noBracket
      rw [trackPlaced_cons, trackToken_of_none first]
      exact inductionHypothesis others _

/-- Behind pairs of brackets the same are open as in front of them. -/
theorem Paired.tracked {tokens : List Token} (paired : Paired Token.bracket? tokens)
    (brackets : List OpenBracket) (position : Position) :
    trackPlaced brackets position tokens = .ok brackets := by
  induction paired generalizing brackets position with
  | others noBracket => exact trackPlaced_of_none noBracket _ _
  | @wrap first last opener closer inner isOpener isCloser pair within inductionHypothesis =>
      simp only [trackPlaced_cons, trackPlaced_append, trackToken_opener ⟨isOpener, closer, pair⟩,
        inductionHypothesis, trackToken_of_some isCloser, trackBracket_closer pair,
        trackPlaced_nil, bind, Except.bind]
  | append ofFirst ofSecond first second =>
      rw [trackPlaced_append, first]
      exact second _ _

/-- Behind balanced brackets the same are open as in front of them. -/
theorem Balanced.tracked {chars : List Char} (balanced : Balanced chars) {tokens : List Token}
    (isChars : bracketsOf tokens = chars) (brackets : List OpenBracket) (position : Position) :
    trackPlaced brackets position tokens = .ok brackets :=
  (balanced.paired isChars).tracked brackets position

/-! ## What is left open -/

/-- The brackets that tokens leave open, innermost first, where the first token stands at
`start`: between them, and behind the innermost, all brackets are balanced. -/
inductive Leaves (start : Position) : List Token → List OpenBracket → Prop
  | none {tokens : List Token} (balanced : Balanced (bracketsOf tokens)) : Leaves start tokens []
  | opened {outer inner : List Token} {token : Token} {opener : Char} {brackets : List OpenBracket}
      (leaves : Leaves start outer brackets) (opens : token.Opens opener)
      (balanced : Balanced (bracketsOf inner)) :
      Leaves start (outer ++ token :: inner)
        (⟨opener, start.after (Token.spell outer)⟩ :: brackets)

section

variable {start : Position} {front tokens : List Token} {brackets behind : List OpenBracket}

theorem Leaves.append (leaves : Leaves start front brackets)
    (balanced : Balanced (bracketsOf tokens)) : Leaves start (front ++ tokens) brackets := by
  cases leaves with
  | none ofFront =>
      apply Leaves.none
      rw [bracketsOf_append]
      exact ofFront.append balanced
  | opened leaves opens inner =>
      rw [List.append_assoc, List.cons_append]
      apply Leaves.opened leaves opens
      rw [bracketsOf_append]
      exact inner.append balanced

/-- One more token leaves open what the parser takes to be open. -/
theorem Leaves.step {token : Token} (leaves : Leaves start front brackets)
    (tracked : trackToken brackets ⟨token, start.after (Token.spell front)⟩ = .ok behind) :
    Leaves start (front ++ [token]) behind := by
  cases bracket : token.bracket? with
  | none =>
      rw [trackToken_of_none bracket] at tracked
      cases tracked
      apply leaves.append
      rw [bracketsOf, List.filterMap_cons_none bracket]
      exact .nil
  | some c =>
      rcases Token.opens_or_closes bracket with opens | ⟨_, opener, pair⟩
      · rw [trackToken_opener opens] at tracked
        cases tracked
        exact .opened leaves opens .nil
      · rw [trackToken_of_some bracket] at tracked
        cases leaves with
        | none ofFront =>
            rw [trackBracket_unexpected pair] at tracked
            cases tracked
        | @opened outer inner first innermost brackets leaves opens ofInner =>
            by_cases same : innermost = opener
            · subst same
              rw [trackBracket_closer pair] at tracked
              cases tracked
              -- The closed pair belongs to what stands behind the next bracket outwards.
              rw [List.append_assoc]
              apply leaves.append
              rw [List.cons_append, bracketsOf_cons opens.1, bracketsOf_append,
                bracketsOf_cons bracket]
              exact .wrap pair ofInner
            · rw [trackBracket_mismatched pair same] at tracked
              cases tracked

theorem Leaves.run (leaves : Leaves start front brackets)
    (tracked : trackPlaced brackets (start.after (Token.spell front)) tokens = .ok behind) :
    Leaves start (front ++ tokens) behind := by
  induction tokens generalizing front brackets with
  | nil =>
      cases tracked
      simpa using leaves
  | cons token tokens inductionHypothesis =>
      rw [trackPlaced_cons, Declaration.bind_eq_ok_iff] at tracked
      rcases tracked with ⟨between, first, others⟩
      rw [List.append_cons]
      apply inductionHypothesis (leaves.step first)
      simpa using others

theorem Leaves.tracked (leaves : Leaves start tokens brackets) :
    trackPlaced [] start tokens = .ok brackets := by
  induction leaves with
  | none balanced => exact balanced.tracked rfl _ _
  | opened leaves opens balanced inductionHypothesis =>
      simp only [trackPlaced_append, trackPlaced_cons, inductionHypothesis, trackToken_opener opens,
        balanced.tracked rfl, bind, Except.bind]

/-- The parser takes those brackets to be open that the tokens leave open. -/
theorem trackPlaced_eq_ok_iff :
    trackPlaced [] start tokens = .ok brackets ↔ Leaves start tokens brackets := by
  constructor
  · intro tracked
    exact (@Leaves.none start [] .nil).run tracked
  · exact Leaves.tracked

theorem leaves_nil_iff : Leaves start tokens [] ↔ Balanced (bracketsOf tokens) := by
  constructor
  · rintro ⟨⟩
    assumption
  · exact .none

end

end Deflow
