import Deflow.Proofs.Script.Rescan

/-!
# Tokens that stand by themselves

Most tokens of script are read as they are wherever they stand.  Only slashes and
angle brackets also look at what stands in front of them, and templates at what is
inside.  Tokens without these can be written anywhere in a script, and the rest of
the script is read as before, unless it begins with a slash or an angle bracket
itself.
-/

namespace Deflow.Script

/-! ## Signs -/

/-- Whether what a token reads as depends on whether an expression may begin
there. -/
def Token.isSign (token : Token) : Bool :=
  token.isPunct '/' || token.isPunct '<' || token.kind == .regex

/-- Whether a token is read by itself: it neither looks at what stands in front of it
nor holds script. -/
def Token.isPlain (token : Token) : Bool :=
  !token.isSign && token.kind != .template

theorem Token.isPlain_iff {token : Token} :
    token.isPlain = true ↔ token.isSign = false ∧ token.kind ≠ .template := by
  simp [Token.isPlain]

/-- Only signs look at what stands in front of them. -/
theorem standsAlone_of_isSign {context : Context} {token : Token} (noSign : token.isSign = false)
    (rest : Text) : StandsAlone .endOfInput context token rest := by
  simp only [Token.isSign, Bool.or_eq_false_iff] at noSign
  constructor
  · intro isSlash
    simp [noSign] at isSlash
  · intro isAngle
    simp [noSign] at isAngle
  · exact fun _ _ => rfl

/-! ## Tokens in front of a text -/

/-- Tokens in front of `rest` are read as they are wherever they stand. -/
def Freestanding (rest : Text) : List Token → Prop
  | [] => True
  | token :: tokens =>
    (IsLexeme token ∧ token.isSign = false ∧
        token.endsBefore (Token.spell tokens ++ rest) = true) ∧
      Freestanding rest tokens

theorem freestanding_append {rest : Text} {first second : List Token} :
    Freestanding rest (first ++ second) ↔
      Freestanding (Token.spell second ++ rest) first ∧ Freestanding rest second := by
  induction first with
  | nil => simp [Freestanding]
  | cons token first inductionHypothesis =>
      simp only [List.cons_append, Freestanding, inductionHypothesis, Token.spell_append,
        List.append_assoc, and_assoc]

theorem Freestanding.lexeme {rest : Text} {tokens : List Token} (free : Freestanding rest tokens) :
    ∀ token ∈ tokens, IsLexeme token := by
  induction tokens with
  | nil => simp
  | cons token tokens inductionHypothesis =>
      exact List.forall_mem_cons.mpr ⟨free.1.1, inductionHypothesis free.2⟩

/-- In front of a token that ends before anything, tokens do not see what stands behind
it. -/
theorem Freestanding.of_last {rest changed : Text} {front : List Token} {last : Token}
    (free : Freestanding rest (front ++ [last])) (ends : last.endsBefore changed = true) :
    Freestanding changed (front ++ [last]) := by
  induction front with
  | nil => exact ⟨⟨free.1.1, free.1.2.1, ends⟩, trivial⟩
  | cons token front inductionHypothesis =>
      rw [List.cons_append] at free ⊢
      rcases free with ⟨⟨lexeme, noSign, tokenEnds⟩, others⟩
      refine ⟨⟨lexeme, noSign, ?_⟩, inductionHypothesis others⟩
      have nonempty : Token.spell (front ++ [last]) ≠ [] := by
        have lastLexeme := others.lexeme last (by simp)
        simp [lastLexeme.text_ne_nil]
      rw [← tokenEnds]
      apply token.endsBefore_congr
      rw [List.head?_append_of_ne_nil _ nonempty, List.head?_append_of_ne_nil _ nonempty]

/-- The context behind tokens. -/
def Context.pushAll (context : Context) (tokens : List Token) : Context :=
  tokens.foldl Context.push context

/-- Tokens that stand by themselves are read in front of whatever is read behind
them. -/
theorem Freestanding.reads {context : Context} {rest : Text} {tokens more : List Token}
    (free : Freestanding rest tokens)
    (behind : Reads (.script .endOfInput (context.pushAll tokens)) rest more []) :
    Reads (.script .endOfInput context) (Token.spell tokens ++ rest) (tokens ++ more) [] := by
  induction tokens generalizing context with
  | nil => exact behind
  | cons token tokens inductionHypothesis =>
      rcases free with ⟨⟨lexeme, noSign, ends⟩, others⟩
      rw [Token.spell_cons, List.append_assoc]
      apply Reads.scriptToken rfl
      · exact plainToken_append_eq_ok_iff.mpr ⟨lexeme, ends⟩
      · exact standsAlone_of_isSign noSign _
      · exact inductionHypothesis others behind

/-- Plain tokens of script stand by themselves. -/
theorem Reads.freestanding {context : Context} {text : Text} {tokens more : List Token}
    (reads : Reads (.script .endOfInput context) text (tokens ++ more) [])
    (plain : ∀ token ∈ tokens, token.isPlain = true) :
    Freestanding (Token.spell more) tokens ∧
      Reads (.script .endOfInput (context.pushAll tokens)) (Token.spell more) more [] := by
  induction tokens generalizing context text with
  | nil =>
      have spelled := reads.spelled
      rw [List.append_nil] at spelled
      subst spelled
      exact ⟨trivial, reads⟩
  | cons token tokens inductionHypothesis =>
      rcases List.forall_mem_cons.mp plain with ⟨first, others⟩
      rcases Token.isPlain_iff.mp first with ⟨noSign, noTemplate⟩
      rw [List.cons_append] at reads
      generalize isBehind : tokens ++ more = all at reads
      cases reads with
      | scriptTemplate => exact absurd rfl noTemplate
      | scriptRegex | scriptMarkup => cases noSign
      | scriptToken spelled plain alone behind =>
          subst spelled isBehind
          rcases plainToken_append_eq_ok_iff.mp plain with ⟨lexeme, ends⟩
          rw [behind.spelled, List.append_nil, Token.spell_append] at ends
          rcases inductionHypothesis behind others with ⟨free, after⟩
          exact ⟨⟨⟨lexeme, noSign, ends⟩, free⟩, after⟩

/-- Where script goes on behind tokens without signs.  The tokens are lexemes, templates
apart. -/
theorem Reads.exists_behind {context : Context} {text : Text} {tokens more : List Token}
    (reads : Reads (.script .endOfInput context) text (tokens ++ more) [])
    (noSign : ∀ token ∈ tokens, token.isSign = false) :
    (∀ token ∈ tokens, token.kind ≠ .template → IsLexeme token) ∧
      ∃ behind, Reads (.script .endOfInput behind) (Token.spell more) more [] := by
  induction tokens generalizing context text with
  | nil =>
      have spelled := reads.spelled
      rw [List.append_nil] at spelled
      subst spelled
      exact ⟨by simp, context, reads⟩
  | cons token tokens inductionHypothesis =>
      rcases List.forall_mem_cons.mp noSign with ⟨first, others⟩
      rw [List.cons_append] at reads
      generalize isBehind : tokens ++ more = all at reads
      cases reads with
      | scriptRegex | scriptMarkup => cases first
      | scriptTemplate template behind =>
          subst isBehind
          rcases inductionHypothesis behind others with ⟨lexemes, after⟩
          exact ⟨List.forall_mem_cons.mpr ⟨by simp, lexemes⟩, after⟩
      | scriptToken spelled plain alone behind =>
          subst spelled isBehind
          rcases inductionHypothesis behind others with ⟨lexemes, after⟩
          have lexeme := (plainToken_append_eq_ok_iff.mp plain).1
          exact ⟨List.forall_mem_cons.mpr ⟨fun _ => lexeme, lexemes⟩, after⟩

/-! ## Contexts -/

/-- Behind a token that means something the context does not tell what stood in
front of it, but for the number of open braces. -/
theorem expressionStart_push {first second : Context} {token : Token}
    (same : first.expressionStart = second.expressionStart ∨ token.isTrivia = false) :
    (first.push token).expressionStart = (second.push token).expressionStart := by
  rcases token with ⟨kind, text⟩
  rcases same with same | meaning
  · simp only [Context.push, same]
  · cases kind <;> first | rfl | cases meaning

/-- What script to the end of the input reads as depends on whether an expression may
begin in front of it only if the first token that means something is a sign. -/
theorem Reads.of_context {first second : Context} {text : Text} {tokens : List Token}
    (reads : Reads (.script .endOfInput first) text tokens [])
    (same : first.expressionStart = second.expressionStart ∨
      ∀ token ∈ (meaningful tokens).head?, token.isSign = false) :
    Reads (.script .endOfInput second) text tokens [] := by
  generalize isScript : Mode.script .endOfInput first = mode at reads
  generalize isRest : ([] : Text) = rest at reads
  induction reads generalizing first second with
  | scriptEnd => exact .scriptEnd
  | scriptTemplate template more _ inductionHypothesis =>
      cases isScript
      subst isRest
      exact .scriptTemplate template
        (inductionHypothesis (.inl (expressionStart_push (.inr rfl))) rfl rfl)
  | scriptRegex expected slash length more inductionHypothesis =>
      cases isScript
      subst isRest
      rcases same with same | noSign
      · exact .scriptRegex (same.symm.trans expected) slash length
          (inductionHypothesis (.inl (expressionStart_push (.inr rfl))) rfl rfl)
      · cases noSign _ rfl
  | @scriptMarkup _ context _ _ _ _ _ expected opens markup more _ inductionHypothesis =>
      cases isScript
      subst isRest
      rcases same with same | noSign
      · have sameBehind : context.pushMarkup.expressionStart = second.pushMarkup.expressionStart :=
          rfl
        exact .scriptMarkup (same.symm.trans expected) opens markup
          (inductionHypothesis (.inl sameBehind) rfl rfl)
      · cases noSign _ rfl
  | @scriptToken _ _ _ _ _ token tokens spelled plain alone more inductionHypothesis =>
      cases isScript
      subst isRest
      refine .scriptToken spelled plain ?_ (inductionHypothesis ?_ rfl rfl)
      · rcases same with same | noSign
        · refine ⟨fun isSlash expected => ?_, fun isAngle expected => ?_, fun _ _ => rfl⟩
          · exact alone.noRegex isSlash (same.trans expected)
          · exact alone.noElement isAngle (same.trans expected)
        · by_cases trivia : token.isTrivia = true
          · apply standsAlone_of_kind
            rcases token with ⟨kind, text⟩
            rintro rfl
            cases trivia
          · apply standsAlone_of_isSign
            apply noSign
            rw [meaningful, List.filter_cons_of_pos (by simpa using trivia)]
            rfl
      · by_cases trivia : token.isTrivia = true
        · rcases same with same | noSign
          · exact .inl (expressionStart_push (.inl same))
          · refine .inr fun other isHead => noSign other ?_
            rwa [meaningful, List.filter_cons_of_neg (by simp [trivia])]
        · exact .inl (expressionStart_push (.inr (by simpa using trivia)))
  | _ => cases isScript

/-! ## Tokens that stay -/

/-- Every token reads the same when the text behind all of them is changed. -/
def AllStay (rest changed : Text) : List Token → Prop
  | [] => True
  | token :: tokens =>
    Stays token (Token.spell tokens ++ rest) (Token.spell tokens ++ changed) ∧
      AllStay rest changed tokens

instance decidableAllStay (rest changed : Text) : ∀ tokens, Decidable (AllStay rest changed tokens)
  | [] => .isTrue trivial
  | _ :: tokens =>
    haveI := decidableAllStay rest changed tokens
    inferInstanceAs (Decidable (_ ∧ _))

theorem allStay_append {rest changed : Text} {first second : List Token} :
    AllStay rest changed (first ++ second) ↔
      AllStay (Token.spell second ++ rest) (Token.spell second ++ changed) first ∧
        AllStay rest changed second := by
  induction first with
  | nil => simp [AllStay]
  | cons token first inductionHypothesis =>
      simp only [List.cons_append, AllStay, inductionHypothesis, Token.spell_append,
        List.append_assoc, and_assoc]

/-- Tokens without slashes and angle brackets stay, if the last of them ends before the
changed text. -/
theorem allStay_of_last {rest changed : Text} {front : List Token} {last : Token}
    (noSign : ∀ c ∈ Token.spell (front ++ [last]), c ≠ '/' ∧ c ≠ '<') (filled : last.text ≠ [])
    (ends : last.endsBefore changed = true) : AllStay rest changed (front ++ [last]) := by
  have signsStay {text : Text} (rest changed : Text) (noSign : ∀ c ∈ text, c ≠ '/' ∧ c ≠ '<') :
      SignsStay text rest changed := by
    constructor
    · exact fun inner isSuffix => absurd rfl (noSign '/' (isSuffix.subset (.head _))).1
    · exact fun inner isSuffix => absurd rfl (noSign '<' (isSuffix.subset (.head _))).2
  induction front with
  | nil => exact ⟨⟨.inr ends, fun _ => signsStay _ _ (by simpa using noSign)⟩, trivial⟩
  | cons token front inductionHypothesis =>
      rw [List.cons_append] at noSign ⊢
      rw [Token.spell_cons] at noSign
      rcases List.forall_mem_append.mp noSign with ⟨ofToken, others⟩
      have nonempty : Token.spell (front ++ [last]) ≠ [] := by simp [filled]
      refine ⟨⟨.inl ?_, fun _ => signsStay _ _ ofToken⟩, inductionHypothesis others⟩
      rw [List.head?_append_of_ne_nil _ nonempty, List.head?_append_of_ne_nil _ nonempty]

/-- Leaving tokens as they are is an edit if they stay. -/
theorem AllStay.edited {rest changed : Text} {tokens : List Token}
    (stay : AllStay rest changed tokens) (filled : ∀ token ∈ tokens, token.text ≠ [])
    (inTag : Bool) : Edited rest changed inTag tokens tokens := by
  induction tokens generalizing inTag with
  | nil => exact .nil
  | cons token tokens inductionHypothesis =>
      rcases List.forall_mem_cons.mp filled with ⟨first, others⟩
      by_cases white : token.kind = .whitespace
      · rcases token with ⟨kind, text⟩
        subst white
        exact .space first (fun c member => member) (inductionHypothesis stay.2 others _)
      · exact .keep white stay.1 (inductionHypothesis stay.2 others _)

/-- An element whose tokens stay is read again. -/
theorem Reads.element_of_allStay {text rest changed : Text} {tokens : List Token}
    (reads : Reads .element text tokens rest) (stay : AllStay rest changed tokens) :
    Reads .element (Token.spell tokens ++ changed) tokens changed := by
  -- White space is put together already, since reading the same text gives the same tokens.
  have joined : joinSpaces tokens = tokens := by
    have unchanged : ∀ token ∈ tokens, token.text ≠ [] := reads.text_ne_nil
    have same : AllStay rest rest tokens := by
      clear stay unchanged reads
      induction tokens with
      | nil => trivial
      | cons token tokens inductionHypothesis =>
          exact ⟨⟨.inl rfl, fun _ => ⟨fun _ _ => id, fun _ _ => id⟩⟩, inductionHypothesis⟩
    have again := reads.rescans (same.edited unchanged false)
    rw [← reads.spelled] at again
    have first := readElement_eq_some_iff.mpr ⟨_, _, reads, rfl⟩
    have second := readElement_eq_some_iff.mpr ⟨_, _, again, rfl⟩
    exact (List.cons.inj (Option.some.inj (second.symm.trans first))).2
  have again := reads.rescans (stay.edited reads.text_ne_nil false)
  rwa [joined] at again

/-- The first token of script that stays can be read in front of whatever is read behind
it, unless an element begins with it. -/
theorem Reads.keep_first {context : Context} {text changed : Text} {token : Token}
    {tokens : List Token} (reads : Reads (.script .endOfInput context) text (token :: tokens) [])
    (stays : Stays token (Token.spell tokens) changed) :
    (∃ behind, Reads (.script .endOfInput behind) (Token.spell tokens) tokens [] ∧
      ∀ new, Reads (.script .endOfInput behind) changed new [] →
        Reads (.script .endOfInput context) (token.text ++ changed) (token :: new) []) ∨
      token = Token.punct '<' ∧ context.expressionStart = true ∧
        ∃ element more, tokens = element ++ more ∧ opensMarkup (Token.spell tokens) = true ∧
          Reads .element (Token.spell tokens) element (Token.spell more) ∧
          Reads (.script .endOfInput context.pushMarkup) (Token.spell more) more [] := by
  have spelled {context : Context} {text : Text} {tokens : List Token}
      (reads : Reads (.script .endOfInput context) text tokens []) : text = Token.spell tokens := by
    simpa using reads.spelled
  cases reads with
  | @scriptTemplate _ _ text body behind _ _ template more =>
      left
      have isBehind := spelled more
      subst isBehind
      refine ⟨_, more, fun new again => ?_⟩
      have signs := (stays.signs (.inr rfl)).of_suffix (List.suffix_cons ..)
      have templateAgain := template.rescans (by simpa using signs)
      exact .scriptTemplate (by simpa using templateAgain) again
  | scriptRegex expected slash length more =>
      left
      have isBehind := spelled more
      subst isBehind
      rcases regex_of_stays slash length stays with ⟨slashAgain, lengthAgain⟩
      exact ⟨_, more, fun new again => .scriptRegex expected slashAgain lengthAgain again⟩
  | @scriptMarkup _ _ text behind _ element more expected opens markup rest =>
      right
      have isBehind := spelled rest
      subst isBehind
      have isText := markup.spelled
      rw [← Token.spell_append] at isText
      subst isText
      exact ⟨rfl, expected, element, more, rfl, opens, markup, rest⟩
  | scriptToken isSource plain alone more =>
      left
      have isBehind := spelled more
      subst isSource isBehind
      rcases plainToken_append_eq_ok_iff.mp plain with ⟨lexeme, ends⟩
      refine ⟨_, more, fun new again => .scriptToken rfl ?_ (alone.of_stays stays) again⟩
      exact plainToken_append_eq_ok_iff.mpr ⟨lexeme, stays.endsBefore ends⟩

end Deflow.Script
