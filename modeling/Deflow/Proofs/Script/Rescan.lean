import Deflow.Proofs.Script.Edited
import Deflow.Proofs.Script.Tiling

/-!
# Reading edited tokens again

Tokens that were read and then edited are read again as what the edit has left,
with adjacent white space put together.  The proof follows the derivation of the
first reading: each rule is applied again in front of the changed text.
-/

namespace Deflow.Script

/-! ## Ends of stretches -/

/-- The token with which script ends. -/
def Until.last? : Until → Option Token
  | .endOfInput => none
  | .closingBrace => some (Token.punct '\x7d')

/-- The token with which the reading of a mode ends, if it always is the same:
script between braces ends with the closing brace, markup with an angle
bracket. -/
def Mode.last? : Mode → Option Token
  | .script stop _ => stop.last?
  | .tag _ | .children _ | .element => some (Token.punct '>')
  | _ => none

theorem Reads.last_suffix {mode : Mode} {text rest : Text} {tokens : List Token}
    (reads : Reads mode text tokens rest) : ∀ last ∈ mode.last?, [last] <:+ tokens := by
  induction reads with
  | scriptEnd | templateEnd | templateEscape | templateScript | templateChar =>
      simp [Mode.last?, Until.last?]
  | scriptClose | tagClose => simp [Mode.last?, Until.last?]
  | scriptTemplate _ _ _ inductionHypothesis | scriptRegex _ _ _ _ inductionHypothesis
  | scriptToken _ _ _ _ inductionHypothesis | tagPart _ _ _ _ _ _ inductionHypothesis
  | childrenText _ _ _ _ inductionHypothesis | childrenClose _ _ inductionHypothesis =>
      intro last isLast
      exact (inductionHypothesis last isLast).trans (List.suffix_cons ..)
  | scriptMarkup _ _ _ _ _ inductionHypothesis | tagScript _ _ _ inductionHypothesis
  | childrenScript _ _ _ inductionHypothesis | childrenElement _ _ _ inductionHypothesis =>
      intro last isLast
      exact (inductionHypothesis last isLast).trans
        ((List.suffix_append ..).trans (List.suffix_cons ..))
  | elementEmpty _ _ _ inductionHypothesis => exact inductionHypothesis
  | elementWhole _ _ _ _ _ inductionHypothesis =>
      intro last isLast
      exact (inductionHypothesis last isLast).trans (List.suffix_append ..)

/-! ## White space in script -/

/-- A lexeme that is no white space does not begin with any. -/
theorem IsLexeme.head_filled {token : Token} (lexeme : IsLexeme token)
    (filled : token.kind ≠ .whitespace) (rest : Text) :
    (token.text ++ rest).head?.any isSpace = false := by
  cases lexeme with
  | whitespace nonempty blank => contradiction
  | lineComment oneLine => exact (by decide : isSpace '/' = false)
  | blockComment closed => exact (by decide : isSpace '/' = false)
  | identifier start inside => exact (not_other_of_isIdentStart start).1
  | string isQuote closed =>
      rcases isQuote with rfl | rfl
      · exact (by decide : isSpace '"' = false)
      · exact (by decide : isSpace '\'' = false)
  | @number text start whole =>
      cases text with
      | nil => simp [startsNumber] at start
      | cons c text =>
          simp only [startsNumber, Bool.or_eq_true, Bool.and_eq_true, beq_iff_eq] at start
          rcases start with digit | ⟨rfl, _⟩
          · exact (not_other_of_isDigit digit).1
          · exact (by decide : isSpace '.' = false)
  | punctuation sign => exact (not_other_of_isPunctuation sign).1

/-- White space does not change the context. -/
theorem Context.push_trivia (context : Context) {token : Token} (trivia : token.isTrivia = true) :
    context.push token = context := by
  obtain ⟨kind, text⟩ := token
  cases kind <;> simp [Token.isTrivia] at trivia <;>
    simp [Context.push, Token.isPunct, expressionMayFollow]

/-- White space stands alone. -/
theorem standsAlone_of_kind {stop : Until} {context : Context} {token : Token} {rest : Text}
    (kind : token.kind ≠ .punctuation) : StandsAlone stop context token rest := by
  constructor
  all_goals
    intro isSign
    simp [Token.isPunct, kind] at isSign

/-- Script that does not begin with a token of white space does not begin with
white space. -/
theorem Reads.head_filled {stop : Until} {context : Context} {text rest : Text}
    {tokens : List Token} (reads : Reads (.script stop context) text tokens rest)
    (filled : ∀ token ∈ tokens.head?, token.kind ≠ .whitespace) :
    text.head?.any isSpace = false := by
  cases reads with
  | scriptEnd => rfl
  | scriptClose => exact (by decide : isSpace '\x7d' = false)
  | scriptTemplate => exact (by decide : isSpace '\x60' = false)
  | scriptRegex => exact (by decide : isSpace '/' = false)
  | scriptMarkup => exact (by decide : isSpace '<' = false)
  | scriptToken spelled plain alone more =>
      subst spelled
      exact (plainToken_append_eq_ok_iff.mp plain).1.head_filled (filled _ rfl) _

/-- White space in front of script is read as one token with white space that
follows. -/
theorem Reads.script_space {stop : Until} {context : Context} {text rest : Text}
    {tokens : List Token} (reads : Reads (.script stop context) text tokens rest) {space : Text}
    (nonempty : space ≠ []) (blank : ∀ c ∈ space, isSpace c = true) :
    Reads (.script stop context) (space ++ text) (consSpace space tokens) rest := by
  -- A token of white space that ends before the text behind it can be put in front.
  have put {space text : Text} {tokens : List Token} (nonempty : space ≠ [])
      (blank : ∀ c ∈ space, isSpace c = true) (ends : text.head?.any isSpace = false)
      (reads : Reads (.script stop context) text tokens rest) :
      Reads (.script stop context) (space ++ text) (⟨.whitespace, space⟩ :: tokens) rest := by
    refine .scriptToken rfl ?_ (standsAlone_of_kind (by simp)) ?_
    · exact plainToken_append_eq_ok_iff.mpr
        ⟨.whitespace nonempty blank, by simp [Token.endsBefore, ends]⟩
    · rw [Context.push_trivia context rfl]
      exact reads
  unfold consSpace
  split
  · rename_i white more
    cases reads with
    | @scriptToken _ _ _ behind _ _ _ spelled plain alone more =>
        subst spelled
        obtain ⟨lexeme, ends⟩ := plainToken_append_eq_ok_iff.mp plain
        cases lexeme with
        | whitespace _ alsoBlank =>
            rw [Context.push_trivia context rfl] at more
            rw [← List.append_assoc]
            refine put (by simp [nonempty]) ?_ (by simpa [Token.endsBefore] using ends) more
            intro c member
            rcases List.mem_append.mp member with inSpace | inWhite
            · exact blank c inSpace
            · exact alsoBlank c inWhite
  · rename_i notWhite
    refine put nonempty blank (reads.head_filled ?_) reads
    intro token isHead isWhite
    obtain ⟨more, rfl⟩ := List.head?_eq_some_iff.mp isHead
    obtain ⟨kind, text⟩ := token
    subst isWhite
    exact notWhite _ _ rfl

/-! ## White space in tags -/

/-- A state without the tokens that led to it. -/
def TagState.bare (state : TagState) : TagState :=
  { state with read := [] }

/-- What a tag is does not depend on the tokens before. -/
theorem TagState.bare_add (state : TagState) (item : TagItem) :
    (state.add item).bare = (state.bare.add item).bare := by
  cases item with
  | script tokens => rfl
  | part part token =>
      obtain ⟨name, behindName, naming, closing, selfClosing, read⟩ := state
      cases part with
      | name | punctuation => cases naming <;> rfl
      | slash => cases name <;> cases closing <;> rfl
      | _ => rfl

theorem TagState.bare_foldl {first second : TagState} (same : first.bare = second.bare)
    (items : List TagItem) :
    (items.foldl TagState.add first).bare = (items.foldl TagState.add second).bare := by
  induction items generalizing first second with
  | nil => exact same
  | cons item items inductionHypothesis =>
      refine inductionHypothesis ?_
      rw [TagState.bare_add, same, ← TagState.bare_add]

/-- A tag that does not begin with a token of white space does not begin with
white space. -/
theorem Reads.tag_head_filled {items : List TagItem} {text rest : Text} {tokens : List Token}
    (reads : Reads (.tag items) text tokens rest)
    (filled : ∀ token ∈ tokens.head?, token.kind ≠ .whitespace) :
    text.head?.any isTagSpace = false := by
  cases reads with
  | tagClose => exact (by decide : isTagSpace '>' = false)
  | tagScript => exact (by decide : isTagSpace '\x7b' = false)
  | @tagPart _ _ _ _ _ token _ spelled found kind _ _ _ =>
      subst spelled
      have shape := (tagPart?_append_eq_some_iff.mp found).1
      have notWhite := filled token rfl
      revert shape kind notWhite
      generalize token.text = text
      intro kind shape notWhite
      cases shape with
      | whitespace => exact absurd kind notWhite
      | lineComment => exact (by decide : isTagSpace '/' = false)
      | blockComment => exact (by decide : isTagSpace '/' = false)
      | string isQuote =>
          rcases isQuote with rfl | rfl
          · exact (by decide : isTagSpace '"' = false)
          · exact (by decide : isTagSpace '\'' = false)
      | name start => exact (not_other_of_isTagNameStart start).1
      | openBrace => exact (by decide : isTagSpace '\x7b' = false)
      | slash => exact (by decide : isTagSpace '/' = false)
      | close => exact (by decide : isTagSpace '>' = false)
      | punctuation sign =>
          rcases sign with rfl | rfl | rfl
          · exact (by decide : isTagSpace '=' = false)
          · exact (by decide : isTagSpace '.' = false)
          · exact (by decide : isTagSpace ':' = false)

/-- White space in front of a tag is read as one part with white space that
follows. -/
theorem Reads.tag_space {items : List TagItem} {text rest : Text} {tokens : List Token}
    (reads : Reads (.tag items) text tokens rest) {space : Text} (nonempty : space ≠ [])
    (blank : ∀ c ∈ space, isTagSpace c = true) :
    ∃ more, Reads (.tag more) (space ++ text) (consSpace space tokens) rest ∧
      ∀ state : TagState, (more.foldl TagState.add state).bare =
        (items.foldl TagState.add (state.push .whitespace ⟨.whitespace, space⟩)).bare := by
  -- A part of white space that ends before the text behind it can be put in front.
  have put {space text : Text} {items : List TagItem} {tokens : List Token} (nonempty : space ≠ [])
      (blank : ∀ c ∈ space, isTagSpace c = true) (ends : text.head?.any isTagSpace = false)
      (reads : Reads (.tag items) text tokens rest) :
      Reads (.tag (.part .whitespace ⟨.whitespace, space⟩ :: items)) (space ++ text)
        (⟨.whitespace, space⟩ :: tokens) rest := by
    refine .tagPart rfl ?_ rfl (by simp) (by simp) reads
    exact tagPart?_append_eq_some_iff.mpr
      ⟨.whitespace nonempty blank, by simp [TagPart.endsBefore, ends]⟩
  unfold consSpace
  split
  · rename_i white tokens
    cases reads with
    | @tagPart items part _ behind _ _ _ spelled found kind notClose notBrace more =>
        subst spelled
        obtain ⟨shape, ends⟩ := tagPart?_append_eq_some_iff.mp found
        cases part with
        | whitespace =>
            cases shape with
            | whitespace _ alsoBlank =>
                refine ⟨.part .whitespace ⟨.whitespace, space ++ white⟩ :: items, ?_, ?_⟩
                · rw [← List.append_assoc]
                  refine put (by simp [nonempty]) ?_ (by simpa [TagPart.endsBefore] using ends) more
                  intro c member
                  rcases List.mem_append.mp member with inSpace | inWhite
                  · exact blank c inSpace
                  · exact alsoBlank c inWhite
                · intro state
                  refine TagState.bare_foldl ?_ items
                  simp [TagState.add, TagState.push, TagState.pass, TagState.bare]
        | _ => simp [TagPart.kind] at kind
  · rename_i notWhite
    refine ⟨_, put nonempty blank (reads.tag_head_filled ?_) reads, fun state => rfl⟩
    intro token isHead isWhite
    obtain ⟨more, rfl⟩ := List.head?_eq_some_iff.mp isHead
    obtain ⟨kind, text⟩ := token
    subst isWhite
    exact notWhite _ _ rfl

/-! ## Tags with edited parts -/

/-- Two states that lead to the same kind of tag with the same name. -/
structure Agrees (state changed : TagState) : Prop where
  name : changed.name = state.name
  closing : changed.closing = state.closing
  selfClosing : changed.selfClosing = state.selfClosing

theorem Agrees.of_bare {state changed other : TagState} (agrees : Agrees state changed)
    (same : other.bare = changed.bare) : Agrees state other := by
  obtain ⟨_, _, _, _, _, _⟩ := changed
  obtain ⟨_, _, _, _, _, _⟩ := other
  simp only [TagState.bare, TagState.mk.injEq] at same
  obtain ⟨rfl, rfl, rfl, rfl, rfl, _⟩ := same
  exact ⟨agrees.name, agrees.closing, agrees.selfClosing⟩

/-- Pieces that lead to the same kind of tag with the same name make such
tags. -/
theorem Agrees.ofItems {items changedItems : List TagItem}
    (agrees : Agrees (items.foldl TagState.add {}) (changedItems.foldl TagState.add {})) :
    (Tag.ofItems changedItems).name = (Tag.ofItems items).name ∧
      (Tag.ofItems changedItems).closing = (Tag.ofItems items).closing ∧
      (Tag.ofItems changedItems).selfClosing = (Tag.ofItems items).selfClosing :=
  ⟨congrArg (·.getD []) agrees.name, agrees.closing, agrees.selfClosing⟩

/-- A state and the one behind an edited tag so far.  They agree, and they would
take the next part of a name alike unless none is to come. -/
structure Matches (inTag : Bool) (edited : List Token) (state changed : TagState) : Prop
    extends Agrees state changed where
  settled : inTag = false → state.naming = state.name.isNone
  synced : (changed.naming = state.naming ∧ (state.naming = true → state.name.isSome = true →
    changed.behindName = state.behindName)) ∨ continuesName edited = false

theorem Matches.start (edited : List Token) : Matches false edited {} {} :=
  ⟨⟨rfl, rfl, rfl⟩, fun _ => rfl, .inl ⟨rfl, fun _ _ => rfl⟩⟩

/-- A comment that is left out. -/
theorem Matches.drop {inTag : Bool} {edited : List Token} {state changed : TagState}
    (before : Matches inTag edited state changed) {part : TagPart}
    (comment : part = .lineComment ∨ part = .blockComment)
    (name : inTag = true → continuesName edited = false) (token : Token) :
    Matches inTag edited (state.push part token) changed := by
  have isPass : state.push part token = state.pass token := by
    rcases comment with rfl | rfl <;> rfl
  rw [isPass]
  refine ⟨⟨before.name, before.closing, before.selfClosing⟩, before.settled, ?_⟩
  cases inTag with
  | true => exact .inr (name rfl)
  | false =>
      rcases before.synced with ⟨naming, _⟩ | ends
      · refine .inl ⟨naming, fun isNaming named => ?_⟩
        have unnamed : state.name.isNone = true := (before.settled rfl).symm.trans isNaming
        have named : state.name.isSome = true := named
        cases isName : state.name <;> simp [isName] at unnamed named
      · exact .inr ends

/-- White space that vanishes. -/
theorem Matches.vanish {inTag : Bool} {edited : List Token} {state changed : TagState}
    (before : Matches inTag edited state changed)
    (name : inTag = true → continuesName edited = false) (token : Token) :
    Matches false edited (state.push .whitespace token) changed := by
  refine ⟨⟨before.name, before.closing, before.selfClosing⟩, fun _ => rfl, ?_⟩
  cases inTag with
  | true => exact .inr (name rfl)
  | false =>
      rcases before.synced with ⟨naming, _⟩ | ends
      · refine .inl ⟨naming.trans (before.settled rfl), fun isNaming named => ?_⟩
        have unnamed : state.name.isNone = true := isNaming
        have named : state.name.isSome = true := named
        cases isName : state.name <;> simp [isName] at unnamed named
      · exact .inr ends

/-- White space that stays, in whatever length. -/
theorem Matches.space {inTag : Bool} {edited behind : List Token} {state changed : TagState}
    (before : Matches inTag edited state changed) (token space : Token) :
    Matches false behind (state.push .whitespace token) (changed.push .whitespace space) := by
  refine ⟨⟨before.name, before.closing, before.selfClosing⟩, fun _ => rfl, .inl ⟨?_, ?_⟩⟩
  · exact congrArg Option.isNone before.name
  · intro isNaming named
    have unnamed : state.name.isNone = true := isNaming
    have named : state.name.isSome = true := named
    cases isName : state.name <;> simp [isName] at unnamed named

/-- Script between braces. -/
theorem Matches.script {inTag : Bool} {edited behind : List Token} {state changed : TagState}
    (before : Matches inTag edited state changed) (tokens changedTokens : List Token) :
    Matches true behind (state.pushScript tokens) (changed.pushScript changedTokens) :=
  ⟨⟨before.name, before.closing, before.selfClosing⟩, fun isFalse => by simp at isFalse,
    .inl ⟨rfl, fun isNaming => by simp [TagState.pushScript] at isNaming⟩⟩

/-- What the parts of a tag are as tokens. -/
theorem IsTagPart.isNameSign {part : TagPart} {token : Token} (shape : IsTagPart part token.text)
    (kind : token.kind = part.kind) (isSign : part = .name ∨ part = .punctuation) :
    token.isNameSign = true := by
  obtain ⟨tokenKind, text⟩ := token
  obtain rfl : tokenKind = part.kind := kind
  have shape : IsTagPart part text := shape
  cases shape with
  | name start inside => rfl
  | punctuation sign => rcases sign with rfl | rfl | rfl <;> rfl
  | _ => simp at isSign

theorem IsTagPart.isSlash {token : Token} (shape : IsTagPart .slash token.text)
    (kind : token.kind = .punctuation) : token.isPunct '/' = true := by
  obtain ⟨tokenKind, text⟩ := token
  obtain rfl : tokenKind = .punctuation := kind
  have shape : IsTagPart .slash text := shape
  cases shape
  rfl

/-- A part of a tag other than white space, brackets and braces could stand in a
tag. -/
theorem IsTagPart.standsInTag {part : TagPart} {token : Token} (shape : IsTagPart part token.text)
    (kind : token.kind = part.kind) (notSpace : part ≠ .whitespace) (notClose : part ≠ .close)
    (notBrace : part ≠ .openBrace) : token.standsInTag = true := by
  unfold Token.standsInTag
  cases part with
  | whitespace | close | openBrace => contradiction
  | name => simp [shape.isNameSign kind (.inl rfl)]
  | punctuation => simp [shape.isNameSign kind (.inr rfl)]
  | slash => simp [shape.isSlash kind]
  | lineComment | blockComment => simp [Token.isComment, kind, TagPart.kind]
  | string => simp [kind, TagPart.kind]

/-- A comment or a slash in front of a name does not hide it. -/
theorem continuesName_cons_skip {token : Token}
    (skip : (token.isComment || token.isPunct '/') = true) (tokens : List Token) :
    continuesName (token :: tokens) = continuesName tokens := by
  simp only [continuesName, List.dropWhile_cons, skip, if_true]

/-- A part of a name continues one. -/
theorem continuesName_cons_sign {token : Token} (sign : token.isNameSign = true)
    (tokens : List Token) : continuesName (token :: tokens) = true := by
  have noSkip : (token.isComment || token.isPunct '/') = false := by
    simp only [Token.isNameSign, Bool.or_eq_true, beq_iff_eq, Token.isPunct_iff] at sign
    rcases sign with ((isName | rfl) | rfl) | rfl
    · simp [Token.isComment, Token.isPunct, isName]
    all_goals rfl
  simp [continuesName, noSkip, sign]

/-- A part of a tag that is kept. -/
theorem Matches.keep {inTag : Bool} {edited : List Token} {state changed : TagState}
    {part : TagPart} {token : Token} (before : Matches inTag (token :: edited) state changed)
    (shape : IsTagPart part token.text) (kind : token.kind = part.kind)
    (notSpace : part ≠ .whitespace) (notClose : part ≠ .close) (notBrace : part ≠ .openBrace) :
    Matches true edited (state.push part token) (changed.push part token) := by
  obtain ⟨name, behindName, naming, closing, selfClosing, read⟩ := state
  obtain ⟨changedName, changedBehind, changedNaming, changedClosing, changedSelf, changedRead⟩ :=
    changed
  obtain ⟨⟨sameName, sameClosing, sameSelf⟩, settled, synced⟩ := before
  simp only at sameName sameClosing sameSelf synced
  subst sameName sameClosing sameSelf
  cases part with
  | whitespace | close | openBrace => contradiction
  | lineComment | blockComment =>
      have skip : (token.isComment || token.isPunct '/') = true := by
        simp [Token.isComment, kind, TagPart.kind]
      rw [continuesName_cons_skip skip] at synced
      refine ⟨⟨rfl, rfl, rfl⟩, fun isFalse => by simp at isFalse, ?_⟩
      rcases synced with ⟨sameNaming, sameBehind⟩ | ends
      · exact .inl ⟨sameNaming, fun isNaming named => congrArg (· ++ token.text)
          (sameBehind isNaming named)⟩
      · exact .inr ends
  | string =>
      exact ⟨⟨rfl, rfl, rfl⟩, fun isFalse => by simp at isFalse,
        .inl ⟨rfl, fun isNaming => by simp [TagState.push] at isNaming⟩⟩
  | name | punctuation =>
      rw [continuesName_cons_sign (shape.isNameSign kind (by simp))] at synced
      obtain ⟨rfl, sameBehind⟩ := synced.resolve_right (by simp)
      cases changedNaming with
      | false =>
          exact ⟨⟨rfl, rfl, rfl⟩, fun isFalse => by simp at isFalse,
            .inl ⟨rfl, fun isNaming => by simp [TagState.push, TagState.pass] at isNaming⟩⟩
      | true =>
          refine ⟨⟨?_, rfl, rfl⟩, fun isFalse => by simp at isFalse, .inl ⟨rfl, fun _ _ => rfl⟩⟩
          cases changedName with
          | none => rfl
          | some name =>
              simp [TagState.push, TagState.extendName, sameBehind rfl rfl]
  | slash =>
      rw [continuesName_cons_skip (by simp [shape.isSlash kind])] at synced
      -- Only the slash of a closing tag leaves the rest of the name open.
      by_cases opens : (changedName.isNone && !changedClosing) = true
      · simp only [TagState.push, opens, if_true]
        refine ⟨⟨rfl, rfl, rfl⟩, fun isFalse => by simp at isFalse, ?_⟩
        rcases synced with ⟨sameNaming, sameBehind⟩ | ends
        · exact .inl ⟨sameNaming, fun isNaming named => congrArg (· ++ token.text)
            (sameBehind isNaming named)⟩
        · exact .inr ends
      · simp only [TagState.push, opens]
        exact ⟨⟨rfl, rfl, rfl⟩, fun isFalse => by simp at isFalse,
          .inl ⟨rfl, fun isNaming => by simp at isNaming⟩⟩

/-! ## Reading again -/

@[simp]
theorem Token.text_punct (c : Char) : (Token.punct c).text = [c] :=
  rfl

/-- What reading again means in each mode.  `rest` stood behind the tokens, and
`changed` stands behind what an edit has left of them. -/
def Rescans (tokens : List Token) (rest : Text) : Mode → Prop
  | .script stop context => ∀ {inTag edited changed}, Edited rest changed inTag tokens edited →
      (stop = .endOfInput → changed = []) →
      Reads (.script stop context) (Token.spell edited ++ changed) (joinSpaces edited) changed
  | .template => ∀ {changed}, SignsStay (Token.spell tokens) rest changed →
      Reads .template (Token.spell tokens ++ changed) tokens changed
  | .tag items => ∀ {inTag edited changed}, Edited rest changed inTag tokens edited →
      ∃ changedItems, Reads (.tag changedItems) (Token.spell edited ++ changed) (joinSpaces edited)
          changed ∧
        ∀ {state changedState}, Matches inTag edited state changedState →
          Agrees (items.foldl TagState.add state) (changedItems.foldl TagState.add changedState)
  | .children name => ∀ {inTag edited changed}, Edited rest changed inTag tokens edited →
      Reads (.children name) (Token.spell edited ++ changed) (joinSpaces edited) changed
  | .element => ∀ {edited changed}, Edited rest changed false tokens edited →
      Reads .element (Token.spell edited ++ changed) (joinSpaces edited) changed

/-- A token that stood alone still does. -/
theorem StandsAlone.of_stays {stop : Until} {context : Context} {token : Token}
    {rest changed : Text} (alone : StandsAlone stop context token rest)
    (stays : Stays token rest changed) :
    StandsAlone stop context token changed := by
  refine ⟨fun isSlash expected => ?_, fun isAngle expected opens => ?_, alone.goesOn⟩
  · obtain rfl := Token.isPunct_iff.mp isSlash
    have none := alone.noRegex isSlash expected
    have stay := (stays.signs (.inl rfl)).regex [] List.suffix_rfl
    simpa [none] using stay
  · obtain rfl := Token.isPunct_iff.mp isAngle
    have stay := (stays.signs (.inl rfl)).element [] List.suffix_rfl
    simp only [List.nil_append, opensElement, opens, Bool.true_and, Bool.and_eq_true] at stay
    by_contra isElement
    obtain ⟨alsoOpens, alsoElement⟩ := stay (Option.isSome_iff_ne_none.mpr isElement)
    simp [alone.noElement isAngle expected alsoOpens] at alsoElement

/-- A token of script. -/
theorem rescans_scriptToken {stop : Until} {context : Context} {text rest : Text} {token : Token}
    {tokens : List Token} (spelled : text = Token.spell tokens ++ rest)
    (plain : plainToken (token.text ++ text) = .ok token)
    (alone : StandsAlone stop context token text)
    (more : Rescans tokens rest (.script stop (context.push token))) :
    Rescans (token :: tokens) rest (.script stop context) := by
  intro inTag edited changed edits whole
  obtain ⟨lexeme, ends⟩ := plainToken_append_eq_ok_iff.mp plain
  subst spelled
  cases edits with
  | @keep _ _ _ edited filled stays edits =>
      rw [joinSpaces_cons filled, Token.spell_cons, List.append_assoc]
      refine .scriptToken rfl ?_ (alone.of_stays stays) (more edits whole)
      exact plainToken_append_eq_ok_iff.mpr ⟨lexeme, stays.endsBefore ends⟩
  | drop comment name edits =>
      rw [Context.push_trivia context (by
        obtain ⟨kind, text⟩ := token
        cases kind <;> simp_all [Token.isComment, Token.isTrivia])] at more
      exact more edits whole
  | @space _ text space _ edited nonempty part edits =>
      rw [Context.push_trivia context rfl] at more
      have blank : ∀ c ∈ text, isSpace c = true := by
        cases lexeme with
        | whitespace _ blank => exact blank
      rw [Token.spell_cons, List.append_assoc]
      exact (more edits whole).script_space nonempty fun c member => blank c (part c member)
  | vanish name edits =>
      rw [Context.push_trivia context rfl] at more
      exact more edits whole

/-- A part of a tag ends where its token does. -/
theorem IsTagPart.endsBefore {part : TagPart} {token : Token} {text : Text}
    (shape : IsTagPart part token.text) (kind : token.kind = part.kind)
    (notSpace : part ≠ .whitespace) (ends : token.endsBefore text = true) :
    part.endsBefore text = true := by
  cases part with
  | whitespace => contradiction
  | lineComment | name =>
      simpa [Token.endsBefore, TagPart.endsBefore, kind, TagPart.kind] using ends
  | slash =>
      obtain rfl := Token.isPunct_iff.mp (shape.isSlash kind)
      exact ends
  | _ => rfl

theorem TagPart.endsBefore_congr (part : TagPart) {first second : Text}
    (same : first.head? = second.head?) : part.endsBefore first = part.endsBefore second := by
  unfold TagPart.endsBefore
  rw [same]

/-- A part of a tag. -/
theorem rescans_tagPart {items : List TagItem} {part : TagPart} {text rest : Text} {token : Token}
    {tokens : List Token} (spelled : text = Token.spell tokens ++ rest)
    (found : tagPart? (token.text ++ text) = some (part, token.text.length))
    (kind : token.kind = part.kind) (notClose : part ≠ .close) (notBrace : part ≠ .openBrace)
    (more : Rescans tokens rest (.tag items)) :
    Rescans (token :: tokens) rest (.tag (.part part token :: items)) := by
  intro inTag edited changed edits
  obtain ⟨shape, ends⟩ := tagPart?_append_eq_some_iff.mp found
  subst spelled
  cases edits with
  | @keep _ _ _ edited filled stays edits =>
      have notSpace : part ≠ .whitespace := by
        rintro rfl
        exact filled kind
      rw [shape.standsInTag kind notSpace notClose notBrace] at edits
      obtain ⟨changedItems, again, agrees⟩ := more edits
      rw [joinSpaces_cons filled, Token.spell_cons, List.append_assoc]
      refine ⟨.part part token :: changedItems, .tagPart rfl ?_ kind notClose notBrace again, ?_⟩
      · refine tagPart?_append_eq_some_iff.mpr ⟨shape, ?_⟩
        rcases stays.ends with same | ends'
        · rw [part.endsBefore_congr same, ends]
        · exact shape.endsBefore kind notSpace ends'
      · intro state changedState before
        exact agrees (before.keep shape kind notSpace notClose notBrace)
  | drop comment name edits =>
      have isComment : part = .lineComment ∨ part = .blockComment := by
        cases part <;> simp_all [Token.isComment, TagPart.kind]
      obtain ⟨changedItems, again, agrees⟩ := more edits
      exact ⟨changedItems, again, fun before => agrees (before.drop isComment name token)⟩
  | @space _ text space _ edited nonempty part edits =>
      obtain ⟨changedItems, again, agrees⟩ := more edits
      cases shape with
      | whitespace _ blank =>
          obtain ⟨spacedItems, spaced, same⟩ :=
            again.tag_space nonempty fun c member => blank c (part c member)
          rw [Token.spell_cons, List.append_assoc]
          refine ⟨spacedItems, spaced, fun {state changedState} before => ?_⟩
          exact (agrees (before.space _ _)).of_bare (same changedState)
      | _ => simp [TagPart.kind] at kind
  | vanish name edits =>
      obtain ⟨changedItems, again, agrees⟩ := more edits
      cases shape with
      | whitespace _ blank =>
          exact ⟨changedItems, again, fun before => agrees (before.vanish name _)⟩
      | _ => simp [TagPart.kind] at kind

/-- White space opens no element. -/
theorem opensMarkup_of_isTagSpace {c : Char} (space : isTagSpace c = true) (text : Text) :
    opensMarkup (c :: text) = false := by
  by_cases ascii : c.toNat < 128
  · have others :
        ∀ n < 128, (!isTagSpace (Char.ofNat n) || !opensMarkup [Char.ofNat n]) = true := by
      decide +kernel
    have atC := of_ascii (fun c => !isTagSpace c || !opensMarkup [c]) others ascii
    simpa [space, opensMarkup] using atC
  · simp only [isTagSpace, Bool.or_eq_true, Bool.and_eq_true, decide_eq_true_eq,
      beq_iff_eq] at space
    rcases space with ((⟨_, small⟩ | rfl) | rfl) | rfl
    · omega
    · exact absurd (by decide) ascii
    · exact (by decide +kernel : opensMarkup ['\u00A0'] = false)
    · exact (by decide +kernel : opensMarkup ['\uFEFF'] = false)

/-- The first token of a tag that opens an element in script is neither white
space nor a comment. -/
theorem Reads.exists_head {items : List TagItem} {text rest : Text} {tokens : List Token}
    (reads : Reads (.tag items) text tokens rest) (opens : opensMarkup text = true) :
    ∃ token behind, tokens = token :: behind ∧ token.isTrivia = false := by
  cases reads with
  | tagClose => exact ⟨_, _, rfl, rfl⟩
  | tagScript inner more => exact ⟨_, _, rfl, rfl⟩
  | @tagPart _ part _ _ _ token _ spelled found kind _ _ _ =>
      subst spelled
      have shape := (tagPart?_append_eq_some_iff.mp found).1
      refine ⟨_, _, rfl, ?_⟩
      obtain ⟨tokenKind, text⟩ := token
      obtain rfl : tokenKind = part.kind := kind
      have shape : IsTagPart part text := shape
      cases shape with
      | whitespace nonempty blank =>
          obtain ⟨c, text, rfl⟩ := List.exists_cons_of_ne_nil nonempty
          simp [opensMarkup_of_isTagSpace (blank c (by simp))] at opens
      | lineComment => exact absurd opens (by simp [opensMarkup]; decide +kernel)
      | blockComment => exact absurd opens (by simp [opensMarkup]; decide +kernel)
      | _ => rfl

/-- An element that opens in script opens again. -/
theorem Reads.opensMarkup_of_edited {text rest changed : Text} {tokens edited : List Token}
    (reads : Reads .element text tokens rest) (opens : opensMarkup text = true) {inTag : Bool}
    (edits : Edited rest changed inTag tokens edited) :
    opensMarkup (Token.spell edited ++ changed) = true := by
  have head : ∃ token behind, tokens = token :: behind ∧ token.isTrivia = false := by
    cases reads with
    | elementEmpty tag opening empty => exact tag.exists_head opens
    | elementWhole tag opening whole children =>
        obtain ⟨token, behind, rfl, solid⟩ := tag.exists_head opens
        exact ⟨token, _, rfl, solid⟩
  obtain ⟨token, behind, rfl, solid⟩ := head
  obtain ⟨after, rfl, _, _⟩ := edits.exists_cons solid
  obtain ⟨c, text', isText⟩ := List.exists_cons_of_ne_nil (reads.text_ne_nil token (by simp))
  rw [reads.spelled] at opens
  simpa [isText, opensMarkup] using opens

/-- A regular expression that stays ends where it ended. -/
theorem regex_of_stays {body rest changed : Text}
    (slash : plainToken ('/' :: (body ++ rest)) = .ok (Token.punct '/'))
    (length : regexLength? (body ++ rest) = some body.length)
    (stays : Stays ⟨.regex, '/' :: body⟩ rest changed) :
    plainToken ('/' :: (body ++ changed)) = .ok (Token.punct '/') ∧
      regexLength? (body ++ changed) = some body.length := by
  rcases regexLength?_append_eq_iff.mp length with ⟨wholeBody, ends⟩
  have endsAgain := stays.endsBefore (by simpa [Token.endsBefore] using ends)
  constructor
  · cases body with
    | nil => exact absurd wholeBody (by decide)
    | cons c body =>
        rcases (@plainToken_append_eq_ok_iff (Token.punct '/') _).mp slash with ⟨lexeme, slashEnds⟩
        exact (@plainToken_append_eq_ok_iff (Token.punct '/') _).mpr ⟨lexeme, slashEnds⟩
  · exact regexLength?_append_eq_iff.mpr ⟨wholeBody, by simpa [Token.endsBefore] using endsAgain⟩

/-- What an edit leaves of tokens that were read is read as that again, with
adjacent white space put together. -/
theorem Reads.rescans {mode : Mode} {text rest : Text} {tokens : List Token}
    (reads : Reads mode text tokens rest) : Rescans tokens rest mode := by
  induction reads with
  | scriptEnd =>
      intro inTag edited changed edits whole
      cases edits
      rw [whole rfl]
      exact .scriptEnd
  | scriptClose level =>
      intro inTag edited changed edits _
      obtain ⟨behind, rfl, _, edits⟩ := edits.exists_cons rfl
      cases edits
      exact .scriptClose level
  | scriptTemplate template more rescanTemplate rescanMore =>
      intro inTag edited changed edits whole
      obtain ⟨behind, rfl, stays, edits⟩ := edits.exists_cons rfl
      rw [more.spelled] at rescanTemplate
      have signs := (stays.signs (.inr rfl)).of_suffix (List.suffix_cons ..)
      have again := rescanTemplate (by simpa using signs)
      rw [joinSpaces_cons (by simp)]
      simpa using Reads.scriptTemplate (by simpa using again) (rescanMore edits whole)
  | scriptRegex expected slash length more rescanMore =>
      intro inTag edited changed edits whole
      obtain ⟨behind, rfl, stays, edits⟩ := edits.exists_cons rfl
      rw [more.spelled] at slash length
      obtain ⟨slashAgain, lengthAgain⟩ := regex_of_stays slash length stays
      rw [joinSpaces_cons (by simp), Token.spell_cons, List.append_assoc]
      exact .scriptRegex expected slashAgain lengthAgain (rescanMore edits whole)
  | scriptMarkup expected opens markup more rescanElement rescanMore =>
      intro inTag edited changed edits whole
      obtain ⟨behind, rfl, _, edits⟩ := edits.exists_cons rfl
      obtain ⟨inner, behind, rfl, joined, inElement, edits⟩ :=
        edits.exists_stretch (markup.last_suffix _ rfl) rfl rfl
      rw [more.spelled] at rescanElement markup
      rw [joinSpaces_cons (by simp [Token.punct]), joined]
      have opensAgain := markup.opensMarkup_of_edited opens inElement
      simpa using Reads.scriptMarkup expected opensAgain (rescanElement inElement)
        (rescanMore edits whole)
  | scriptToken spelled plain alone more rescanMore =>
      subst spelled
      exact rescans_scriptToken more.spelled plain alone rescanMore
  | templateEnd =>
      intro changed _
      exact .templateEnd
  | @templateEscape c _ body _ more rescanMore =>
      intro changed signs
      have again := rescanMore (signs.of_suffix ⟨['\\', c], by simp⟩)
      simpa using Reads.templateEscape (by simpa using again)
  | @templateScript _ _ body rest tokens script more rescanScript rescanMore =>
      intro changed signs
      have signs : SignsStay (Token.spell tokens ++ body) rest changed :=
        signs.of_suffix ⟨['$', '\x7b'], by simp⟩
      have inBody : SignsStay (Token.spell [⟨.template, body⟩]) rest changed := by
        simpa using signs.of_suffix (List.suffix_append ..)
      have nonempty : body ≠ [] := more.text_ne_nil ⟨.template, body⟩ (by simp)
      have again := rescanMore inBody
      rw [more.spelled] at rescanScript
      -- Script inside a template is left as it is.
      have unchanged := @edited_self _ _ _ nonempty false _ script.text_ne_nil signs
      have scriptAgain := rescanScript (by simpa using unchanged) (by simp)
      simpa using Reads.templateScript scriptAgain (by simpa using again)
  | @templateChar c text body _ notEnd plain noScript more rescanMore =>
      intro changed signs
      have again := rescanMore (signs.of_suffix ⟨[c], by simp⟩)
      have nonempty : body ≠ [] := more.text_ne_nil ⟨.template, body⟩ (by simp)
      obtain ⟨d, body, rfl⟩ := List.exists_cons_of_ne_nil nonempty
      have same : text.head? = (d :: (body ++ changed)).head? := by simp [more.spelled]
      rw [same] at noScript
      have again : Reads .template (d :: (body ++ changed)) [⟨.template, d :: body⟩] changed := by
        simpa using again
      simpa using Reads.templateChar notEnd plain noScript again
  | tagClose =>
      intro inTag edited changed edits
      obtain ⟨behind, rfl, _, edits⟩ := edits.exists_cons rfl
      cases edits
      exact ⟨[], .tagClose, fun before => before.toAgrees⟩
  | tagPart spelled found kind notClose notBrace more rescanMore =>
      subst spelled
      exact rescans_tagPart more.spelled found kind notClose notBrace rescanMore
  | tagScript inner more rescanScript rescanMore =>
      intro inTag edited changed edits
      obtain ⟨behind, rfl, _, edits⟩ := edits.exists_cons rfl
      obtain ⟨script, behind, rfl, joined, inScript, edits⟩ :=
        edits.exists_stretch (inner.last_suffix _ rfl) rfl rfl
      rw [more.spelled] at rescanScript
      obtain ⟨changedItems, again, agrees⟩ := rescanMore edits
      have scriptAgain := rescanScript inScript (by simp)
      rw [joinSpaces_cons (by simp [Token.punct]), joined]
      refine ⟨.script (joinSpaces script) :: changedItems, ?_, fun before => ?_⟩
      · simpa using Reads.tagScript scriptAgain again
      · exact agrees (before.script _ _)
  | childrenText nonempty inside ends more rescanMore =>
      intro inTag edited changed edits
      obtain ⟨behind, rfl, stays, edits⟩ := edits.exists_cons rfl
      rw [more.spelled] at ends
      have endsAgain := stays.endsBefore (by simpa [Token.endsBefore] using ends)
      rw [joinSpaces_cons (by simp), Token.spell_cons, List.append_assoc]
      refine .childrenText nonempty inside ?_ (rescanMore edits)
      simpa [Token.endsBefore] using endsAgain
  | childrenScript inner more rescanScript rescanMore =>
      intro inTag edited changed edits
      obtain ⟨behind, rfl, _, edits⟩ := edits.exists_cons rfl
      obtain ⟨script, behind, rfl, joined, inScript, edits⟩ :=
        edits.exists_stretch (inner.last_suffix _ rfl) rfl rfl
      rw [more.spelled] at rescanScript
      rw [joinSpaces_cons (by simp [Token.punct]), joined]
      simpa using Reads.childrenScript (rescanScript inScript (by simp)) (rescanMore edits)
  | childrenElement markup more rescanElement rescanMore =>
      intro inTag edited changed edits
      obtain ⟨behind, rfl, _, edits⟩ := edits.exists_cons rfl
      obtain ⟨element, behind, rfl, joined, inElement, edits⟩ :=
        edits.exists_stretch (markup.last_suffix _ rfl) rfl rfl
      rw [more.spelled] at rescanElement
      rw [joinSpaces_cons (by simp [Token.punct]), joined]
      simpa using Reads.childrenElement (rescanElement inElement) (rescanMore edits)
  | childrenClose tag closing rescanTag =>
      intro inTag edited changed edits
      obtain ⟨behind, rfl, _, edits⟩ := edits.exists_cons rfl
      obtain ⟨changedItems, again, agrees⟩ := rescanTag edits
      obtain ⟨sameName, sameClosing, _⟩ := (agrees (.start behind)).ofItems
      rw [joinSpaces_cons (by simp [Token.punct]), ← sameName]
      exact .childrenClose again (sameClosing.trans closing)
  | elementEmpty tag opening empty rescanTag =>
      intro edited changed edits
      obtain ⟨changedItems, again, agrees⟩ := rescanTag edits
      obtain ⟨_, sameClosing, sameEmpty⟩ := (agrees (.start edited)).ofItems
      exact .elementEmpty again (sameClosing.trans opening) (sameEmpty.trans empty)
  | elementWhole tag opening whole children rescanTag rescanChildren =>
      intro edited changed edits
      obtain ⟨front, behind, rfl, joined, inTag, edits⟩ :=
        edits.exists_stretch (tag.last_suffix _ rfl) rfl rfl
      rw [children.spelled] at rescanTag
      obtain ⟨changedItems, again, agrees⟩ := rescanTag inTag
      obtain ⟨sameName, sameClosing, sameEmpty⟩ := (agrees (.start front)).ofItems
      rw [← sameName] at rescanChildren
      rw [joined, Token.spell_append, List.append_assoc]
      exact .elementWhole again (sameClosing.trans opening) (sameEmpty.trans whole)
        (rescanChildren edits)

/-! ## Whole scripts -/

/-- The tokens that mean something. -/
def meaningful (tokens : List Token) : List Token :=
  tokens.filter fun token => !token.isTrivia

/-- White space is put together without touching anything else. -/
theorem meaningful_joinSpaces (tokens : List Token) :
    meaningful (joinSpaces tokens) = meaningful tokens := by
  have inFront (space : Text) (tokens : List Token) :
      meaningful (consSpace space tokens) = meaningful tokens := by
    unfold consSpace
    split <;> rfl
  fun_induction joinSpaces tokens with
  | case1 => rfl
  | case2 text tokens inductionHypothesis => rw [inFront, inductionHypothesis]; rfl
  | case3 token tokens _ inductionHypothesis =>
      simp only [meaningful, List.filter_cons] at inductionHypothesis ⊢
      rw [inductionHypothesis]

/-- What an edit leaves of a whole script is read as that again, unless it comes
to begin with an interpreter line. -/
theorem Scans.rescan {source : Text} {tokens edited : List Token} (scans : Scans source tokens)
    (edits : Edited [] [] false tokens edited)
    (start : ['#', '!'] <+: Token.spell edited → ['#', '!'] <+: source) :
    Scans (Token.spell edited) (joinSpaces edited) := by
  cases scans with
  | script noLine reads =>
      have again := reads.rescans edits fun _ => rfl
      exact .script (fun isLine => noLine (start isLine)) (by simpa using again)
  | hashbang oneLine ends reads =>
      obtain ⟨behind, rfl, stays, edits⟩ := edits.exists_cons rfl
      rw [reads.spelled] at ends
      have endsAgain := stays.endsBefore ends
      rw [joinSpaces_cons (by simp), Token.spell_cons]
      have again := reads.rescans edits fun _ => rfl
      exact .hashbang oneLine (by simpa [Token.endsBefore] using endsAgain) (by simpa using again)

end Deflow.Script
