import Deflow.Proofs.Script.Reading

/-!
# The readers follow the rules

The readers of script, templates, tags and children give just what the rules for
reading derive.  Both directions are needed: what was read can be taken apart by
the rules, and what the rules derive is read.
-/

namespace Deflow.Script

/-! ## Passing over what was read -/

/-- Script that is passed over is not looked at. -/
theorem readScript_skip (stop : Until) (state : ScriptState) (skip : Nat) (text : Text) :
    readScript stop state skip text = readScript stop state 0 (text.drop skip) := by
  induction text generalizing skip with
  | nil => cases skip <;> simp [readScript]
  | cons c text inductionHypothesis =>
      cases skip with
      | zero => rfl
      | succ skip => rw [readScript.eq_3, inductionHypothesis, List.drop_succ_cons]

/-- A template that is passed over is not looked at. -/
theorem readTemplate_skip (read : Text) (skip : Nat) (text : Text) :
    readTemplate read skip text = readTemplate read 0 (text.drop skip) := by
  induction text generalizing skip with
  | nil => cases skip <;> simp [readTemplate]
  | cons c text inductionHypothesis =>
      cases skip with
      | zero => rfl
      | succ skip => rw [readTemplate.eq_2, inductionHypothesis, List.drop_succ_cons]

/-- A tag that is passed over is not looked at. -/
theorem readTag_skip (state : TagState) (skip : Nat) (text : Text) :
    readTag state skip text = readTag state 0 (text.drop skip) := by
  induction text generalizing skip with
  | nil => cases skip <;> simp [readTag]
  | cons c text inductionHypothesis =>
      cases skip with
      | zero => rfl
      | succ skip => rw [readTag.eq_2, inductionHypothesis, List.drop_succ_cons]

/-- Children that are passed over are not looked at. -/
theorem readChildren_skip (name : Text) (read : List Token) (skip : Nat) (text : Text) :
    readChildren name read skip text = readChildren name read 0 (text.drop skip) := by
  induction text generalizing skip with
  | nil => cases skip <;> simp [readChildren]
  | cons c text inductionHypothesis =>
      cases skip with
      | zero => rfl
      | succ skip => rw [readChildren.eq_2, inductionHypothesis, List.drop_succ_cons]

/-- Passing over the tokens that were read leads to the rest. -/
theorem Reads.drop_size {mode : Mode} {text rest : Text} {tokens : List Token}
    (reads : Reads mode text tokens rest) : text.drop (Token.size tokens) = rest := by
  rw [Token.size_eq_length, reads.spelled, List.drop_left]

/-- What is left is no longer than the text. -/
theorem Reads.length_le {mode : Mode} {text rest : Text} {tokens : List Token}
    (reads : Reads mode text tokens rest) : rest.length ≤ text.length := by
  rw [reads.spelled, List.length_append]
  omega

/-- The tokens of a tag are those of its pieces and the closing bracket. -/
theorem Reads.tokens_of_tag {items : List TagItem} {text rest : Text} {tokens : List Token}
    (reads : Reads (.tag items) text tokens rest) :
    tokens = items.flatMap TagItem.tokens ++ [Token.punct '>'] := by
  generalize isTag : Mode.tag items = mode at reads
  induction reads generalizing items with
  | tagClose =>
      cases isTag
      rfl
  | tagPart spelled found kind notClose notBrace more inductionHypothesis =>
      cases isTag
      rw [inductionHypothesis rfl]
      rfl
  | tagScript inner more _ inductionHypothesis =>
      cases isTag
      rw [inductionHypothesis rfl]
      simp [TagItem.tokens]
  | _ => contradiction

/-- A tag as the readers hold it has the tokens that were read from it. -/
theorem Reads.tokens_ofItems {items : List TagItem} {text rest : Text} {tokens : List Token}
    (reads : Reads (.tag items) text tokens rest) :
    (Tag.ofItems items).tokens = Token.punct '<' :: tokens := by
  rw [Tag.tokens_ofItems, reads.tokens_of_tag]

/-- Passing over a tag, its opening bracket apart, leads to the rest. -/
theorem Reads.drop_tag {items : List TagItem} {text rest : Text} {tokens : List Token}
    (reads : Reads (.tag items) text tokens rest) :
    text.drop (Token.size (Tag.ofItems items).tokens - 1) = rest := by
  have size : Token.size (Tag.ofItems items).tokens - 1 = Token.size tokens := by
    rw [reads.tokens_ofItems, Token.size_eq_length, Token.size_eq_length, Token.spell_cons]
    simp [Token.punct]
  rw [size, reads.drop_size]

/-! ## What is read can be derived -/

/-- On texts shorter than a bound, what the readers give can be derived. -/
structure ReadersFollow (bound : Nat) : Prop where
  script {stop : Until} {state : ScriptState} {text : Text} {all : List Token}
    (short : text.length < bound) (read : readScript stop state 0 text = .ok all) :
    ∃ tokens rest, Reads (.script stop state.context) text tokens rest ∧
      all = state.read.reverse ++ tokens
  template {before text all : Text} (short : text.length < bound)
    (read : readTemplate before 0 text = .ok all) :
    ∃ body rest, Reads .template text [⟨.template, body⟩] rest ∧ all = before.reverse ++ body
  tag {state : TagState} {text : Text} {tag : Tag} (short : text.length < bound)
    (read : readTag state 0 text = some tag) :
    ∃ items tokens rest, Reads (.tag items) text tokens rest ∧
      tag = (items.foldl TagState.add state).finish
  children {name text : Text} {before all : List Token} (short : text.length < bound)
    (read : readChildren name before 0 text = some all) :
    ∃ tokens rest, Reads (.children name) text tokens rest ∧ all = before.reverse ++ tokens

/-- An element is a tag, with children unless it closes itself. -/
theorem ReadersFollow.element {bound : Nat} (follow : ReadersFollow bound) {text : Text}
    {all : List Token} (short : text.length < bound) (read : readElement text = some all) :
    ∃ tokens rest, Reads .element text tokens rest ∧ all = Token.punct '<' :: tokens := by
  obtain ⟨tag, tagRead, read⟩ := Option.bind_eq_some_iff.mp read
  obtain ⟨items, tokens, behind, reads, isTag⟩ := follow.tag short tagRead
  rw [show (items.foldl TagState.add {}).finish = Tag.ofItems items from rfl] at isTag
  subst isTag
  cases closing : (Tag.ofItems items).closing with
  | true => simp [closing] at read
  | false =>
      cases selfClosing : (Tag.ofItems items).selfClosing with
      | true =>
          have isAll : (Tag.ofItems items).tokens = all := by
            simpa [closing, selfClosing] using read
          exact ⟨tokens, behind, .elementEmpty reads closing selfClosing,
            isAll ▸ reads.tokens_ofItems⟩
      | false =>
          simp only [closing, selfClosing, Bool.false_eq_true, if_false] at read
          rw [readChildren_skip, reads.drop_tag] at read
          obtain ⟨inner, rest, children, rfl⟩ :=
            follow.children (Nat.lt_of_le_of_lt reads.length_le short) read
          refine ⟨tokens ++ inner, rest, .elementWhole reads closing selfClosing children, ?_⟩
          rw [List.reverse_reverse, reads.tokens_ofItems, List.cons_append]

/-- What script reads at a token that is no template. -/
theorem readScript_plain {stop : Until} {state : ScriptState} {c : Char} {text : Text}
    {token : Token} (isPlain : c ≠ '\x60') (plain : plainToken (c :: text) = .ok token) :
    readScript stop state 0 (c :: text) =
      if token.isPunct '/' && state.expressionStart then
        match regexLength? text with
        | some size => readScript stop (state.push ⟨.regex, c :: text.take size⟩) size text
        | none => readScript stop (state.push token) 0 text
      else if token.isPunct '<' && state.expressionStart && opensMarkup text then
        match readElement text with
        | some tokens => readScript stop (state.pushMarkup tokens) (Token.size tokens - 1) text
        | none => readScript stop (state.push token) 0 text
      else if token.isPunct '\x7d' && state.depth == 0 && stop == .closingBrace then
        .ok (token :: state.read).reverse
      else
        readScript stop (state.push token) (token.text.length - 1) text := by
  rw [readScript.eq_4, if_neg isPlain, plain]
  rfl

/-- The tail of what was cut off begins where the token ends. -/
theorem drop_length_sub_one {c : Char} {rest text behind : Text} (nonempty : text ≠ [])
    (spelled : c :: rest = text ++ behind) : rest.drop (text.length - 1) = behind := by
  cases text with
  | nil => contradiction
  | cons d text =>
      rw [List.cons_append, List.cons.injEq] at spelled
      rw [spelled.2, List.length_cons, Nat.add_sub_cancel, List.drop_left]

/-- One step in script at a token that depends on nothing before it. -/
theorem ReadersFollow.plain_step {bound : Nat} (follow : ReadersFollow bound) {stop : Until}
    {state : ScriptState} {c : Char} {text : Text} {token : Token} {all : List Token}
    (short : text.length < bound) (isPlain : c ≠ '\x60')
    (plain : plainToken (c :: text) = .ok token)
    (read : readScript stop state 0 (c :: text) = .ok all) :
    ∃ tokens rest, Reads (.script stop state.context) (c :: text) tokens rest ∧
      all = state.read.reverse ++ tokens := by
  obtain ⟨behind, spelled⟩ := exists_of_plainToken plain
  have nonempty : token.text ≠ [] := by
    rw [spelled] at plain
    exact (plainToken_append_eq_ok_iff.mp plain).1.text_ne_nil
  have dropped : text.drop (token.text.length - 1) = behind := drop_length_sub_one nonempty spelled
  have shorter : behind.length < bound := by
    rw [← dropped, List.length_drop]
    omega
  -- A token that stands alone is followed by more script.
  have goOn (alone : StandsAlone stop state.context token behind)
      (read : readScript stop (state.push token) 0 behind = .ok all) :
      ∃ tokens rest, Reads (.script stop state.context) (c :: text) tokens rest ∧
        all = state.read.reverse ++ tokens := by
    obtain ⟨tokens, rest, more, rfl⟩ := follow.script shorter read
    exact ⟨token :: tokens, rest, .scriptToken spelled plain alone more, by simp⟩
  rw [readScript_plain isPlain plain] at read
  split at read
  · rename_i slash
    obtain ⟨isSlash, expected⟩ := Bool.and_eq_true_iff.mp slash
    obtain rfl := Token.isPunct_iff.mp isSlash
    obtain ⟨rfl, rfl⟩ := List.cons.inj spelled
    cases length : regexLength? text with
    | none =>
        rw [length] at read
        refine goOn ⟨fun _ _ => length, ?_, ?_⟩ read
        all_goals
          intro other
          exact absurd other (by decide)
    | some size =>
        obtain ⟨body, rest, rfl, rfl⟩ : ∃ body rest, text = body ++ rest ∧ size = body.length :=
          ⟨text.take size, text.drop size, by simp, by
            rw [List.length_take, Nat.min_eq_left (regexLength?_le length)]⟩
        simp only [length] at read
        rw [List.take_left, readScript_skip, List.drop_left] at read
        obtain ⟨tokens, rest, more, rfl⟩ :=
          follow.script (Nat.lt_of_le_of_lt (by simp) short) read
        exact ⟨_, rest, .scriptRegex expected plain length more, by simp⟩
  · rename_i noRegex
    split at read
    · rename_i angle
      obtain ⟨isAngle, opens⟩ := Bool.and_eq_true_iff.mp angle
      obtain ⟨isAngle, expected⟩ := Bool.and_eq_true_iff.mp isAngle
      obtain rfl := Token.isPunct_iff.mp isAngle
      obtain ⟨rfl, rfl⟩ := List.cons.inj spelled
      cases element : readElement text with
      | none =>
          rw [element] at read
          refine goOn ⟨?_, fun _ _ _ => element, ?_⟩ read
          all_goals
            intro other
            exact absurd other (by decide)
      | some tokens =>
          obtain ⟨markup, rest, reads, rfl⟩ := follow.element short element
          rw [element] at read
          have size : Token.size (Token.punct '<' :: markup) - 1 = Token.size markup := by
            simp [Token.size_eq_length, Token.punct]
          simp only at read
          rw [readScript_skip, size, reads.drop_size] at read
          obtain ⟨tokens, rest, more, rfl⟩ :=
            follow.script (Nat.lt_of_le_of_lt reads.length_le short) read
          exact ⟨_, rest, .scriptMarkup expected opens reads more, by simp⟩
    · rename_i noElement
      split at read
      · rename_i close
        obtain ⟨isBrace, stops⟩ := Bool.and_eq_true_iff.mp close
        obtain ⟨isBrace, level⟩ := Bool.and_eq_true_iff.mp isBrace
        obtain rfl := Token.isPunct_iff.mp isBrace
        obtain ⟨rfl, rfl⟩ := List.cons.inj spelled
        obtain rfl : stop = .closingBrace := by simpa using stops
        exact ⟨[Token.punct '\x7d'], text, .scriptClose (by simpa using level),
          by simpa using (Except.ok.inj read).symm⟩
      · rename_i noClose
        rw [readScript_skip, dropped] at read
        refine goOn ⟨?_, ?_, ?_⟩ read
        · intro isSlash expected
          exact absurd (Bool.and_eq_true_iff.mpr ⟨isSlash, expected⟩) noRegex
        · intro isAngle expected opens
          obtain rfl := Token.isPunct_iff.mp isAngle
          obtain ⟨rfl, rfl⟩ := List.cons.inj spelled
          exact absurd (by simpa [isAngle, opens] using expected) noElement
        · intro isBrace level
          cases stop with
          | endOfInput => rfl
          | closingBrace => exact absurd (by simpa [isBrace] using level) noClose

/-- One step in script. -/
theorem ReadersFollow.script_step {bound : Nat} (follow : ReadersFollow bound) {stop : Until}
    {state : ScriptState} {text : Text} {all : List Token} (short : text.length < bound + 1)
    (read : readScript stop state 0 text = .ok all) :
    ∃ tokens rest, Reads (.script stop state.context) text tokens rest ∧
      all = state.read.reverse ++ tokens := by
  cases text with
  | nil =>
      cases stop with
      | endOfInput =>
          rw [readScript.eq_1] at read
          exact ⟨[], [], .scriptEnd, by simpa using (Except.ok.inj read).symm⟩
      | closingBrace =>
          rw [readScript.eq_2] at read
          contradiction
  | cons c text =>
      have shorter : text.length < bound := by simpa using short
      by_cases isTemplate : c = '\x60'
      · subst isTemplate
        rw [readScript.eq_4, if_pos rfl] at read
        cases template : readTemplate ['\x60'] 0 text with
        | error fault => simp [template] at read
        | ok whole =>
            obtain ⟨body, behind, reads, rfl⟩ := follow.template shorter template
            simp only [template, List.reverse_singleton, List.singleton_append] at read
            have spelled : '\x60' :: text = ('\x60' :: body) ++ behind := by
              simpa using reads.spelled
            rw [readScript_skip, drop_length_sub_one (List.cons_ne_nil _ _) spelled] at read
            obtain ⟨tokens, rest, more, rfl⟩ :=
              follow.script (Nat.lt_of_le_of_lt reads.length_le shorter) read
            exact ⟨_, rest, .scriptTemplate reads more, by simp⟩
      · cases plain : plainToken (c :: text) with
        | error fault => simp [readScript.eq_4, isTemplate, plain] at read
        | ok token =>
            exact follow.plain_step shorter isTemplate plain read

/-- What a template reads at a substitution that ends. -/
theorem readTemplate_script {read text : Text} {tokens : List Token}
    (script : readScript .closingBrace {} 0 text = .ok tokens) :
    readTemplate read 0 ('$' :: '\x7b' :: text) =
      readTemplate ((Token.spell tokens).reverse ++ '\x7b' :: '$' :: read) (Token.size tokens)
        text := by
  simp [readTemplate, script]

/-- What a template reads at a character that stands for itself. -/
theorem readTemplate_char {c : Char} {read text : Text} (notEnd : c ≠ '\x60') (plain : c ≠ '\\')
    (noScript : c = '$' → text.head? ≠ some '\x7b') :
    readTemplate read 0 (c :: text) = readTemplate (c :: read) 0 text := by
  cases text with
  | nil => simp [readTemplate, notEnd, plain]
  | cons d text =>
      by_cases dollar : c = '$'
      · subst dollar
        have notBrace : d ≠ '\x7b' := by simpa using noScript
        simp [readTemplate.eq_4, notBrace]
      · simp [readTemplate.eq_4, notEnd, plain, dollar]

/-- One step in a template. -/
theorem ReadersFollow.template_step {bound : Nat} (follow : ReadersFollow bound)
    {before text all : Text} (short : text.length < bound + 1)
    (read : readTemplate before 0 text = .ok all) :
    ∃ body rest, Reads .template text [⟨.template, body⟩] rest ∧ all = before.reverse ++ body := by
  cases text with
  | nil => simp [readTemplate] at read
  | cons c text =>
      have shorter : text.length < bound := by simpa using short
      by_cases isEnd : c = '\x60'
      · subst isEnd
        have isAll : all = ('\x60' :: before).reverse := by
          cases text <;> simpa [readTemplate, eq_comm] using read
        exact ⟨['\x60'], text, .templateEnd, by simpa using isAll⟩
      by_cases escape : c = '\\'
      · subst escape
        cases text with
        | nil => simp [readTemplate] at read
        | cons d text =>
            have read : readTemplate (d :: '\\' :: before) 0 text = .ok all := by
              simpa [readTemplate.eq_4] using read
            obtain ⟨body, rest, more, rfl⟩ :=
              follow.template (Nat.lt_trans (Nat.lt_succ_self _) shorter) read
            exact ⟨'\\' :: d :: body, rest, .templateEscape more, by simp⟩
      by_cases script : c = '$' ∧ text.head? = some '\x7b'
      · obtain ⟨rfl, isBrace⟩ := script
        obtain ⟨text, rfl⟩ : ∃ behind, text = '\x7b' :: behind :=
          List.head?_eq_some_iff.mp isBrace
        have shortest : text.length < bound := Nat.lt_trans (Nat.lt_succ_self _) shorter
        cases inner : readScript .closingBrace {} 0 text with
        | error failure =>
            cases failure with
            | mk fault rest => cases fault <;> simp [readTemplate, inner] at read
        | ok tokens =>
            obtain ⟨tokens, behind, reads, rfl⟩ := follow.script shortest inner
            rw [readTemplate_script inner, readTemplate_skip] at read
            simp only [reads.drop_size] at read
            obtain ⟨body, rest, more, rfl⟩ :=
              follow.template (Nat.lt_of_le_of_lt reads.length_le shortest) read
            exact ⟨_, rest, .templateScript reads more, by simp⟩
      · have noScript : c = '$' → text.head? ≠ some '\x7b' := fun dollar brace =>
          script ⟨dollar, brace⟩
        rw [readTemplate_char isEnd escape noScript] at read
        obtain ⟨body, rest, more, rfl⟩ := follow.template shorter read
        exact ⟨c :: body, rest, .templateChar isEnd escape noScript more, by simp⟩

/-- What a tag reads at a part that is neither a brace nor its end. -/
theorem readTag_part {state : TagState} {part : TagPart} {token : Token} {text : Text}
    (found : tagPart? (token.text ++ text) = some (part, token.text.length))
    (kind : token.kind = part.kind) (notClose : part ≠ .close) (notBrace : part ≠ .openBrace) :
    readTag state 0 (token.text ++ text) = readTag (state.push part token) 0 text := by
  have nonempty := (tagPart?_append_eq_some_iff.mp found).1.ne_nil
  have isToken : cut part.kind token.text.length (token.text ++ text) = token := by
    rw [cut_append rfl, ← kind]
  obtain ⟨c, more, isText⟩ := List.exists_cons_of_ne_nil nonempty
  have spelled : c :: (more ++ text) = token.text ++ text := by rw [isText, List.cons_append]
  rw [← spelled] at found isToken ⊢
  rw [readTag.eq_3, found]
  cases part with
  | close => contradiction
  | openBrace => contradiction
  | _ => simp only [isToken, readTag_skip _ (token.text.length - 1),
      drop_length_sub_one nonempty spelled]

/-- One step in a tag. -/
theorem ReadersFollow.tag_step {bound : Nat} (follow : ReadersFollow bound) {state : TagState}
    {text : Text} {tag : Tag} (short : text.length < bound + 1)
    (read : readTag state 0 text = some tag) :
    ∃ items tokens rest, Reads (.tag items) text tokens rest ∧
      tag = (items.foldl TagState.add state).finish := by
  cases text with
  | nil => simp [readTag] at read
  | cons c text =>
      have shorter : text.length < bound := by simpa using short
      cases found : tagPart? (c :: text) with
      | none => simp [readTag.eq_3, found] at read
      | some pair =>
          obtain ⟨part, size⟩ := pair
          obtain ⟨front, behind, spelled, rfl⟩ := exists_of_tagPart? found
          have shape := (tagPart?_append_eq_some_iff.mp (spelled ▸ found)).1
          have shortest : behind.length < bound := by
            rw [← drop_length_sub_one shape.ne_nil spelled, List.length_drop]
            omega
          cases part with
          | close =>
              cases shape
              obtain ⟨rfl, rfl⟩ := List.cons.inj spelled
              rw [readTag.eq_3, found] at read
              exact ⟨[], _, text, .tagClose, (Option.some.inj read).symm⟩
          | openBrace =>
              cases shape
              obtain ⟨rfl, rfl⟩ := List.cons.inj spelled
              rw [readTag.eq_3, found] at read
              cases inner : readScript .closingBrace {} 0 text with
              | error failure => simp [inner] at read
              | ok script =>
                  obtain ⟨script, behind, reads, rfl⟩ := follow.script shorter inner
                  simp only [inner] at read
                  rw [readTag_skip] at read
                  simp only [reads.drop_size] at read
                  obtain ⟨items, tokens, rest, more, rfl⟩ :=
                    follow.tag (Nat.lt_of_le_of_lt reads.length_le shorter) read
                  exact ⟨.script script :: items, _, rest, .tagScript reads more, rfl⟩
          | _ =>
              rw [spelled, @readTag_part _ _ ⟨_, front⟩ _ (spelled ▸ found) rfl (by simp) (by simp)]
                at read
              obtain ⟨items, tokens, rest, more, rfl⟩ := follow.tag shortest read
              exact ⟨.part _ ⟨_, front⟩ :: items, _, rest,
                .tagPart spelled found rfl (by simp) (by simp) more, rfl⟩

/-- One step among children at a tag: it closes the parent, or an element begins. -/
theorem ReadersFollow.children_tag {bound : Nat} (follow : ReadersFollow bound)
    {name text : Text} {before all : List Token} (short : text.length < bound)
    (read :
      (match readTag {} 0 text with
      | none => none
      | some tag =>
        let taken := Token.size tag.tokens - 1
        let read := tag.tokens.reverse ++ before
        if tag.closing then
          if tag.name = name then some read.reverse else none
        else if tag.selfClosing then
          readChildren name read taken text
        else
          match readChildren tag.name [] taken text with
          | none => none
          | some tokens =>
            readChildren name (tokens.reverse ++ read) (taken + Token.size tokens) text) =
        some all) :
    ∃ tokens rest, Reads (.children name) ('<' :: text) tokens rest ∧
      all = before.reverse ++ tokens := by
  cases tagRead : readTag {} 0 text with
  | none => simp [tagRead] at read
  | some tag =>
      obtain ⟨items, tagTokens, behind, reads, isTag⟩ := follow.tag short tagRead
      rw [show (items.foldl TagState.add {}).finish = Tag.ofItems items from rfl] at isTag
      subst isTag
      have shorter : behind.length < bound := Nat.lt_of_le_of_lt reads.length_le short
      simp only [tagRead] at read
      cases closing : (Tag.ofItems items).closing with
      | true =>
          simp only [closing, if_true] at read
          split at read
          · rename_i sameName
            subst sameName
            refine ⟨_, behind, .childrenClose reads closing, ?_⟩
            rw [reads.tokens_ofItems] at read
            simpa using (Option.some.inj read).symm
          · contradiction
      | false =>
          simp only [closing, Bool.false_eq_true, if_false] at read
          cases selfClosing : (Tag.ofItems items).selfClosing with
          | true =>
              simp only [selfClosing, if_true] at read
              rw [readChildren_skip, reads.drop_tag] at read
              obtain ⟨tokens, rest, more, rfl⟩ := follow.children shorter read
              refine ⟨_, rest,
                .childrenElement (.elementEmpty reads closing selfClosing) more, ?_⟩
              simp [reads.tokens_ofItems]
          | false =>
              simp only [selfClosing, Bool.false_eq_true, if_false] at read
              rw [readChildren_skip, reads.drop_tag] at read
              cases innerRead : readChildren (Tag.ofItems items).name [] 0 behind with
              | none => simp [innerRead] at read
              | some inner =>
                  obtain ⟨inner, innerEnd, children, rfl⟩ := follow.children shorter innerRead
                  simp only [innerRead] at read
                  rw [readChildren_skip, ← List.drop_drop, reads.drop_tag,
                    children.drop_size] at read
                  obtain ⟨tokens, rest, more, rfl⟩ :=
                    follow.children (Nat.lt_of_le_of_lt children.length_le shorter) read
                  refine ⟨_, rest, .childrenElement
                    (.elementWhole reads closing selfClosing children) more, ?_⟩
                  simp [reads.tokens_ofItems]

/-- One step among children. -/
theorem ReadersFollow.children_step {bound : Nat} (follow : ReadersFollow bound)
    {name text : Text} {before all : List Token} (short : text.length < bound + 1)
    (read : readChildren name before 0 text = some all) :
    ∃ tokens rest, Reads (.children name) text tokens rest ∧ all = before.reverse ++ tokens := by
  cases text with
  | nil => simp [readChildren] at read
  | cons c text =>
      have shorter : text.length < bound := by simpa using short
      rw [readChildren.eq_3] at read
      by_cases isBrace : c = '\x7b'
      · subst isBrace
        cases inner : readScript .closingBrace {} 0 text with
        | error failure => simp [inner] at read
        | ok script =>
            obtain ⟨script, behind, reads, rfl⟩ := follow.script shorter inner
            simp only [if_true, inner] at read
            rw [readChildren_skip] at read
            simp only [reads.drop_size] at read
            obtain ⟨tokens, rest, more, rfl⟩ :=
              follow.children (Nat.lt_of_le_of_lt reads.length_le shorter) read
            exact ⟨_, rest, .childrenScript reads more, by simp⟩
      by_cases isAngle : c = '<'
      · subst isAngle
        rw [if_neg isBrace, if_pos rfl] at read
        exact follow.children_tag shorter read
      · simp only [isBrace, isAngle, if_false] at read
        have inClass : (c != '<' && c != '\x7b') = true := by simp [isBrace, isAngle]
        obtain ⟨run, behind, rfl, inside, ends⟩ :=
          exists_run (fun c => c != '<' && c != '\x7b') text
        have whole : runLength (fun c => c != '<' && c != '\x7b') (c :: (run ++ behind)) =
            (c :: run).length := by
          rw [← List.cons_append]
          exact runLength_append_eq_iff.mpr ⟨List.forall_mem_cons.mpr ⟨inClass, inside⟩, ends⟩
        rw [whole, ← List.cons_append, cut_append rfl, readChildren_skip,
          drop_length_sub_one (List.cons_ne_nil c run) (List.cons_append ..).symm] at read
        obtain ⟨tokens, rest, more, rfl⟩ := follow.children (by simp at shorter; omega) read
        exact ⟨_, rest,
          .childrenText (List.cons_ne_nil c run) (List.forall_mem_cons.mpr ⟨inClass, inside⟩) ends
            more,
          by simp⟩

/-- On all texts, what the readers give can be derived. -/
theorem readersFollow (bound : Nat) : ReadersFollow bound := by
  induction bound with
  | zero =>
      constructor
      all_goals
        intros
        omega
  | succ bound follow =>
      exact ⟨follow.script_step, follow.template_step, follow.tag_step, follow.children_step⟩

/-! ## What can be derived is read -/

/-- What the reader of a tag, and that of children unless the tag closes itself,
give for the tokens of an element. -/
def GivenElement (text : Text) (tokens : List Token) : Prop :=
  ∃ tag, readTag {} 0 text = some tag ∧ tag.closing = false ∧
    ((tag.selfClosing = true ∧ tag.tokens = Token.punct '<' :: tokens) ∨
      (tag.selfClosing = false ∧ ∃ front inner, tag.tokens = Token.punct '<' :: front ∧
        tokens = front ++ inner ∧
        ∀ before, readChildren tag.name before (Token.size tag.tokens - 1) text =
          some (before.reverse ++ inner)))

/-- An element is read where its tag and children are. -/
theorem GivenElement.readElement_eq {text : Text} {tokens : List Token}
    (given : GivenElement text tokens) : readElement text = some (Token.punct '<' :: tokens) := by
  obtain ⟨tag, tagRead, opening, ⟨empty, isTag⟩ | ⟨whole, front, inner, isTag, rfl, children⟩⟩ :=
    given
  · simp [readElement, tagRead, opening, empty, isTag]
  · simp only [readElement, tagRead, Option.bind_some, opening, whole, Bool.false_eq_true, if_false]
    rw [children, isTag]
    simp

/-- Children go on behind an element. -/
theorem GivenElement.readChildren_eq {name text : Text} {before tokens : List Token}
    (given : GivenElement text tokens) :
    readChildren name before 0 ('<' :: text) =
      readChildren name ((Token.punct '<' :: tokens).reverse ++ before) (Token.size tokens)
        text := by
  obtain ⟨tag, tagRead, opening, ⟨empty, isTag⟩ | ⟨whole, front, inner, isTag, rfl, children⟩⟩ :=
    given
  · have size : Token.size tag.tokens - 1 = Token.size tokens := by
      simp [isTag, Token.size_eq_length, Token.punct]
    rw [readChildren.eq_3, if_neg (by decide), if_pos rfl, tagRead]
    simp only [opening, empty, Bool.false_eq_true, if_false, if_true]
    rw [size, isTag]
  · have size : Token.size tag.tokens - 1 + Token.size inner = Token.size (front ++ inner) := by
      simp [isTag, Token.size_eq_length, Token.punct]
    rw [readChildren.eq_3, if_neg (by decide), if_pos rfl, tagRead]
    simp only [opening, whole, Bool.false_eq_true, if_false, children]
    rw [List.reverse_nil, List.nil_append, size, isTag]
    simp

/-- What the reader of a mode gives for a derived reading. -/
def Given (mode : Mode) (text : Text) (tokens : List Token) : Prop :=
  match mode with
  | .script stop context => ∀ state : ScriptState, state.context = context →
      readScript stop state 0 text = .ok (state.read.reverse ++ tokens)
  | .template => ∀ before, readTemplate before 0 text = .ok (before.reverse ++ Token.spell tokens)
  | .tag items => ∀ state, readTag state 0 text = some (items.foldl TagState.add state).finish
  | .children name => ∀ before, readChildren name before 0 text = some (before.reverse ++ tokens)
  | .element => GivenElement text tokens

/-- A template is no lexeme. -/
theorem ne_backtick_of_plainToken {c : Char} {text : Text} {token : Token}
    (plain : plainToken (c :: text) = .ok token) : c ≠ '\x60' := by
  rintro rfl
  rw [plainToken_cons fun same => absurd same (by decide)] at plain
  simp [show isSpace '\x60' = false by decide, show isIdentStart '\x60' = false by decide,
    show isPunctuation '\x60' = false by decide] at plain

/-- A character that begins nothing longer is read as it stands. -/
theorem plainToken_punct {c : Char} (text : Text) (sign : isPunctuation c = true)
    (notSlash : c ≠ '/') (notDot : c ≠ '.') : plainToken (c :: text) = .ok (Token.punct c) := by
  have ends : (Token.punct c).endsBefore text = true := by
    simp [Token.punct, Token.endsBefore, notSlash, notDot]
  exact plainToken_append_eq_ok_iff.mpr ⟨.punctuation sign, ends⟩

/-- Where a token stands alone, script goes on behind it. -/
theorem readScript_alone {stop : Until} {state : ScriptState} {text : Text} {token : Token}
    (plain : plainToken (token.text ++ text) = .ok token)
    (alone : StandsAlone stop state.context token text) :
    readScript stop state 0 (token.text ++ text) = readScript stop (state.push token) 0 text := by
  have nonempty := (plainToken_append_eq_ok_iff.mp plain).1.text_ne_nil
  obtain ⟨c, more, isText⟩ := List.exists_cons_of_ne_nil nonempty
  -- A sign is one character long, so that what stands behind it is the whole rest.
  have behindSign {sign : Char} (isSign : token.isPunct sign = true) : more = [] := by
    rw [Token.isPunct_iff.mp isSign] at isText
    exact (List.cons.inj isText).2.symm
  have skipped : readScript stop (state.push token) (token.text.length - 1) (more ++ text) =
      readScript stop (state.push token) 0 text := by
    rw [readScript_skip, drop_length_sub_one (c := c) nonempty (by rw [isText, List.cons_append])]
  rw [isText, List.cons_append] at plain ⊢
  rw [readScript_plain (ne_backtick_of_plainToken plain) plain]
  split
  · rename_i slash
    obtain ⟨isSlash, expected⟩ := Bool.and_eq_true_iff.mp slash
    rw [behindSign isSlash, List.nil_append, alone.noRegex isSlash expected]
  · split
    · rename_i angle
      obtain ⟨isAngle, opens⟩ := Bool.and_eq_true_iff.mp angle
      obtain ⟨isAngle, expected⟩ := Bool.and_eq_true_iff.mp isAngle
      rw [behindSign isAngle, List.nil_append] at opens ⊢
      rw [alone.noElement isAngle expected opens]
    · split
      · rename_i close
        obtain ⟨isBrace, stops⟩ := Bool.and_eq_true_iff.mp close
        obtain ⟨isBrace, level⟩ := Bool.and_eq_true_iff.mp isBrace
        have ends := alone.goesOn isBrace (by simpa using level)
        simp [ends] at stops
      · exact skipped

/-- The readers give what the rules derive. -/
theorem Reads.given {mode : Mode} {text rest : Text} {tokens : List Token}
    (reads : Reads mode text tokens rest) : Given mode text tokens := by
  induction reads with
  | scriptEnd =>
      rintro state rfl
      rw [readScript.eq_1, List.append_nil]
  | @scriptClose context rest level =>
      rintro state rfl
      have plain := plainToken_punct rest (by decide : isPunctuation '\x7d' = true) (by decide)
        (by decide)
      have level : state.depth = 0 := level
      rw [readScript_plain (by decide) plain]
      simp [Token.isPunct, Token.punct, level]
  | scriptTemplate template more templateHypothesis moreHypothesis =>
      rintro state rfl
      rw [readScript.eq_4, if_pos rfl, templateHypothesis]
      simp only [Token.spell_cons, Token.spell_nil, List.append_nil, List.reverse_singleton,
        List.singleton_append]
      rw [readScript_skip, drop_length_sub_one (c := '\x60') (List.cons_ne_nil _ _)
        (by simpa using template.spelled), moreHypothesis _ (state.context_push _)]
      simp
  | scriptRegex expected slash length more moreHypothesis =>
      rintro state rfl
      have expected : state.expressionStart = true := expected
      rw [readScript_plain (by decide) slash,
        if_pos (by simp [Token.isPunct, Token.punct, expected]), length]
      simp only
      rw [List.take_left, readScript_skip, List.drop_left, moreHypothesis _ (state.context_push _)]
      simp
  | @scriptMarkup stop context text behind rest element tokens expected opens markup more
      markupHypothesis moreHypothesis =>
      rintro state rfl
      have plain := plainToken_punct text (by decide : isPunctuation '<' = true) (by decide)
        (by decide)
      have size : Token.size (Token.punct '<' :: element) - 1 = Token.size element := by
        simp [Token.size_eq_length, Token.punct]
      rw [readScript_plain (by decide) plain, if_neg (by simp [Token.isPunct, Token.punct]),
        if_pos (by simpa [Token.isPunct, Token.punct, opens] using expected),
        GivenElement.readElement_eq markupHypothesis]
      simp only
      rw [size, readScript_skip, markup.drop_size, moreHypothesis _ (state.context_pushMarkup _)]
      simp
  | scriptToken spelled plain alone more moreHypothesis =>
      rintro state rfl
      subst spelled
      rw [readScript_alone plain alone, moreHypothesis _ (state.context_push _)]
      simp
  | @templateEnd text =>
      intro before
      cases text <;> simp [readTemplate]
  | templateEscape more moreHypothesis =>
      intro before
      rw [readTemplate.eq_4, if_neg (by decide), if_pos rfl, moreHypothesis]
      simp
  | templateScript script more scriptHypothesis moreHypothesis =>
      intro before
      have scriptRead := scriptHypothesis {} rfl
      rw [readTemplate_script scriptRead, readTemplate_skip]
      simp only [List.reverse_nil, List.nil_append]
      rw [script.drop_size, moreHypothesis]
      simp
  | templateChar notEnd plain noScript more moreHypothesis =>
      intro before
      rw [readTemplate_char notEnd plain noScript, moreHypothesis]
      simp
  | tagClose =>
      intro state
      rfl
  | tagPart spelled found kind notClose notBrace more moreHypothesis =>
      intro state
      subst spelled
      rw [readTag_part found kind notClose notBrace, moreHypothesis]
      rfl
  | tagScript inner more innerHypothesis moreHypothesis =>
      intro state
      have script := innerHypothesis {} rfl
      rw [readTag.eq_3]
      simp only [tagPart?, script, List.reverse_nil, List.nil_append]
      rw [readTag_skip, inner.drop_size, moreHypothesis]
      rfl
  | @childrenText name run behind rest tokens nonempty inside ends more moreHypothesis =>
      intro before
      obtain ⟨c, more, rfl⟩ := List.exists_cons_of_ne_nil nonempty
      have notSign : c ≠ '<' ∧ c ≠ '\x7b' := by simpa using inside c (List.mem_cons_self ..)
      have whole : runLength (fun c => c != '<' && c != '\x7b') (c :: (more ++ behind)) =
          (c :: more).length := by
        rw [← List.cons_append]
        exact runLength_append_eq_iff.mpr ⟨inside, ends⟩
      rw [List.cons_append, readChildren.eq_3, if_neg notSign.2, if_neg notSign.1]
      simp only [whole]
      rw [← List.cons_append, cut_append rfl, readChildren_skip,
        drop_length_sub_one nonempty (List.cons_append ..).symm, moreHypothesis]
      simp
  | childrenScript inner more innerHypothesis moreHypothesis =>
      intro before
      have script := innerHypothesis {} rfl
      rw [readChildren.eq_3, if_pos rfl, script]
      simp only [List.reverse_nil, List.nil_append]
      rw [readChildren_skip, inner.drop_size, moreHypothesis]
      simp
  | childrenElement markup more markupHypothesis moreHypothesis =>
      intro before
      rw [GivenElement.readChildren_eq markupHypothesis, readChildren_skip, markup.drop_size,
        moreHypothesis]
      simp
  | @childrenClose items text rest tokens tag closing tagHypothesis =>
      intro before
      have read : readTag {} 0 text = some (Tag.ofItems items) := tagHypothesis {}
      rw [readChildren.eq_3, if_neg (by decide), if_pos rfl, read]
      simp [closing, tag.tokens_ofItems]
  | @elementEmpty items text rest tokens tag opening empty tagHypothesis =>
      exact ⟨Tag.ofItems items, tagHypothesis {}, opening, .inl ⟨empty, tag.tokens_ofItems⟩⟩
  | @elementWhole items text behind rest tokens inner tag opening whole children tagHypothesis
      childrenHypothesis =>
      refine ⟨Tag.ofItems items, tagHypothesis {}, opening,
        .inr ⟨whole, tokens, inner, tag.tokens_ofItems, rfl, ?_⟩⟩
      intro before
      rw [readChildren_skip, tag.drop_tag, childrenHypothesis]

/-! ## Both directions -/

/-- Script is read as the rules say. -/
theorem readScript_eq_ok_iff {stop : Until} {state : ScriptState} {text : Text}
    {all : List Token} :
    readScript stop state 0 text = .ok all ↔
      ∃ tokens rest, Reads (.script stop state.context) text tokens rest ∧
        all = state.read.reverse ++ tokens := by
  constructor
  · exact (readersFollow (text.length + 1)).script (Nat.lt_succ_self _)
  · rintro ⟨tokens, rest, reads, rfl⟩
    exact reads.given state rfl

/-- An element is read as the rules say. -/
theorem readElement_eq_some_iff {text : Text} {all : List Token} :
    readElement text = some all ↔
      ∃ tokens rest, Reads .element text tokens rest ∧ all = Token.punct '<' :: tokens := by
  constructor
  · exact (readersFollow (text.length + 1)).element (Nat.lt_succ_self _)
  · rintro ⟨tokens, rest, reads, rfl⟩
    exact GivenElement.readElement_eq reads.given

end Deflow.Script
