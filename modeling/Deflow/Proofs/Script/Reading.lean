import Deflow.Proofs.Script.TagPart

/-!
# What it means to read a script

The four readers go through a text with counters and stacks.  This file says the
same without them, as one relation with a rule for every step: `Reads mode text
tokens rest` means that in the given mode the front of `text` is read as
`tokens` and `rest` is left.  From the rules it is immediate that tokens and rest
together spell the text.
-/

namespace Deflow.Script

/-- A token is a given punctuation character if it is the token of it. -/
theorem Token.isPunct_iff {token : Token} {c : Char} :
    token.isPunct c = true ↔ token = Token.punct c := by
  cases token
  simp [Token.isPunct, Token.punct]

/-! ## Context -/

/-- What the reading of script depends on besides the text ahead. -/
structure Context where
  /-- How many braces are open. -/
  depth : Nat := 0
  /-- Whether an expression may begin here. -/
  expressionStart : Bool := true

/-- The context in which a state stands. -/
def ScriptState.context (state : ScriptState) : Context where
  depth := state.depth
  expressionStart := state.expressionStart

/-- The context behind one more token. -/
def Context.push (context : Context) (token : Token) : Context where
  depth :=
    if token.isPunct '\x7b' then context.depth + 1
    else if token.isPunct '\x7d' then context.depth - 1
    else context.depth
  expressionStart := expressionMayFollow context.expressionStart token

/-- The context behind a markup element. -/
def Context.pushMarkup (context : Context) : Context :=
  { context with expressionStart := false }

@[simp]
theorem ScriptState.depth_context (state : ScriptState) : state.context.depth = state.depth :=
  rfl

@[simp]
theorem ScriptState.expressionStart_context (state : ScriptState) :
    state.context.expressionStart = state.expressionStart :=
  rfl

@[simp]
theorem ScriptState.context_push (state : ScriptState) (token : Token) :
    (state.push token).context = state.context.push token :=
  rfl

@[simp]
theorem ScriptState.context_pushMarkup (state : ScriptState) (tokens : List Token) :
    (state.pushMarkup tokens).context = state.context.pushMarkup :=
  rfl

@[simp]
theorem ScriptState.read_push (state : ScriptState) (token : Token) :
    (state.push token).read = token :: state.read :=
  rfl

@[simp]
theorem ScriptState.read_pushMarkup (state : ScriptState) (tokens : List Token) :
    (state.pushMarkup tokens).read = tokens.reverse ++ state.read :=
  rfl

/-! ## Tags -/

/-- A piece of a markup tag: a part of its own, or script between braces. -/
inductive TagItem where
  | part (part : TagPart) (token : Token)
  | script (tokens : List Token)

/-- The tokens of a piece of a tag. -/
def TagItem.tokens : TagItem → List Token
  | .part _ token => [token]
  | .script tokens => Token.punct '\x7b' :: tokens

/-- The state behind one more piece of a tag. -/
def TagState.add (state : TagState) : TagItem → TagState
  | .part part token => state.push part token
  | .script tokens => state.pushScript tokens

/-- The tag that is made of some pieces. -/
def Tag.ofItems (items : List TagItem) : Tag :=
  (items.foldl TagState.add {}).finish

@[simp]
theorem TagState.read_add (state : TagState) (item : TagItem) :
    (state.add item).read = item.tokens.reverse ++ state.read := by
  cases item with
  | part part token =>
      cases part <;> simp [TagState.add, TagState.push, TagState.pass, TagState.extendName,
        TagItem.tokens] <;> split <;> rfl
  | script tokens => simp [TagState.add, TagState.pushScript, TagItem.tokens]

/-- The tokens of a tag are those of its pieces, between angle brackets. -/
theorem TagState.finish_tokens (state : TagState) (items : List TagItem) :
    (items.foldl TagState.add state).finish.tokens =
      state.read.reverse ++ items.flatMap TagItem.tokens ++ [Token.punct '>'] := by
  induction items generalizing state with
  | nil => simp [TagState.finish]
  | cons item items inductionHypothesis =>
      rw [List.foldl_cons, inductionHypothesis, TagState.read_add]
      simp

theorem Tag.tokens_ofItems (items : List TagItem) :
    (Tag.ofItems items).tokens =
      Token.punct '<' :: (items.flatMap TagItem.tokens ++ [Token.punct '>']) := by
  simp [Tag.ofItems, TagState.finish_tokens]

/-! ## The rules -/

/-- What is being read. -/
inductive Mode where
  | script (stop : Until) (context : Context)
  /-- A template behind its opening quote. -/
  | template
  /-- A tag of the given pieces, behind its opening angle bracket. -/
  | tag (items : List TagItem)
  /-- The children of an element and the tag that closes it. -/
  | children (name : Text)
  /-- A markup element behind its opening angle bracket. -/
  | element

/-- A token stands by itself in script: it begins no regular expression and no
element, and does not close the script. -/
structure StandsAlone (stop : Until) (context : Context) (token : Token) (rest : Text) : Prop where
  noRegex : token.isPunct '/' = true → context.expressionStart = true → regexLength? rest = none
  noElement : token.isPunct '<' = true → context.expressionStart = true →
    opensMarkup rest = true → readElement rest = none
  goesOn : token.isPunct '\x7d' = true → context.depth = 0 → stop = .endOfInput

/-- In a mode, the front of a text is read as some tokens, and a rest is left. -/
inductive Reads : Mode → Text → List Token → Text → Prop
  | scriptEnd {context : Context} : Reads (.script .endOfInput context) [] [] []
  | scriptClose {context : Context} {rest : Text} (level : context.depth = 0) :
      Reads (.script .closingBrace context) ('\x7d' :: rest) [Token.punct '\x7d'] rest
  | scriptTemplate {stop : Until} {context : Context} {text body behind rest : Text}
      {tokens : List Token} (template : Reads .template text [⟨.template, body⟩] behind)
      (more : Reads (.script stop (context.push ⟨.template, '\x60' :: body⟩)) behind tokens rest) :
      Reads (.script stop context) ('\x60' :: text) (⟨.template, '\x60' :: body⟩ :: tokens) rest
  | scriptRegex {stop : Until} {context : Context} {body behind rest : Text} {tokens : List Token}
      (expected : context.expressionStart = true)
      (slash : plainToken ('/' :: (body ++ behind)) = .ok (Token.punct '/'))
      (length : regexLength? (body ++ behind) = some body.length)
      (more : Reads (.script stop (context.push ⟨.regex, '/' :: body⟩)) behind tokens rest) :
      Reads (.script stop context) ('/' :: (body ++ behind)) (⟨.regex, '/' :: body⟩ :: tokens) rest
  | scriptMarkup {stop : Until} {context : Context} {text behind rest : Text}
      {element tokens : List Token} (expected : context.expressionStart = true)
      (opens : opensMarkup text = true) (markup : Reads .element text element behind)
      (more : Reads (.script stop context.pushMarkup) behind tokens rest) :
      Reads (.script stop context) ('<' :: text) (Token.punct '<' :: (element ++ tokens)) rest
  | scriptToken {stop : Until} {context : Context} {source text rest : Text} {token : Token}
      {tokens : List Token} (spelled : source = token.text ++ text)
      (plain : plainToken source = .ok token) (alone : StandsAlone stop context token text)
      (more : Reads (.script stop (context.push token)) text tokens rest) :
      Reads (.script stop context) source (token :: tokens) rest
  | templateEnd {rest : Text} : Reads .template ('\x60' :: rest) [⟨.template, ['\x60']⟩] rest
  | templateEscape {c : Char} {text body rest : Text}
      (more : Reads .template text [⟨.template, body⟩] rest) :
      Reads .template ('\\' :: c :: text) [⟨.template, '\\' :: c :: body⟩] rest
  | templateScript {text behind body rest : Text} {tokens : List Token}
      (script : Reads (.script .closingBrace {}) text tokens behind)
      (more : Reads .template behind [⟨.template, body⟩] rest) :
      Reads .template ('$' :: '\x7b' :: text)
        [⟨.template, '$' :: '\x7b' :: (Token.spell tokens ++ body)⟩] rest
  | templateChar {c : Char} {text body rest : Text} (notEnd : c ≠ '\x60') (plain : c ≠ '\\')
      (noScript : c = '$' → text.head? ≠ some '\x7b')
      (more : Reads .template text [⟨.template, body⟩] rest) :
      Reads .template (c :: text) [⟨.template, c :: body⟩] rest
  | tagClose {rest : Text} : Reads (.tag []) ('>' :: rest) [Token.punct '>'] rest
  | tagPart {items : List TagItem} {part : TagPart} {source text rest : Text} {token : Token}
      {tokens : List Token} (spelled : source = token.text ++ text)
      (found : tagPart? source = some (part, token.text.length)) (kind : token.kind = part.kind)
      (notClose : part ≠ .close) (notBrace : part ≠ .openBrace)
      (more : Reads (.tag items) text tokens rest) :
      Reads (.tag (.part part token :: items)) source (token :: tokens) rest
  | tagScript {items : List TagItem} {text behind rest : Text} {script tokens : List Token}
      (inner : Reads (.script .closingBrace {}) text script behind)
      (more : Reads (.tag items) behind tokens rest) :
      Reads (.tag (.script script :: items)) ('\x7b' :: text)
        (Token.punct '\x7b' :: (script ++ tokens)) rest
  | childrenText {name run behind rest : Text} {tokens : List Token} (nonempty : run ≠ [])
      (inside : ∀ c ∈ run, (c != '<' && c != '\x7b') = true)
      (ends : behind.head?.any (fun c => c != '<' && c != '\x7b') = false)
      (more : Reads (.children name) behind tokens rest) :
      Reads (.children name) (run ++ behind) (⟨.jsxText, run⟩ :: tokens) rest
  | childrenScript {name text behind rest : Text} {script tokens : List Token}
      (inner : Reads (.script .closingBrace {}) text script behind)
      (more : Reads (.children name) behind tokens rest) :
      Reads (.children name) ('\x7b' :: text) (Token.punct '\x7b' :: (script ++ tokens)) rest
  | childrenElement {name text behind rest : Text} {element tokens : List Token}
      (markup : Reads .element text element behind)
      (more : Reads (.children name) behind tokens rest) :
      Reads (.children name) ('<' :: text) (Token.punct '<' :: (element ++ tokens)) rest
  | childrenClose {items : List TagItem} {text rest : Text} {tokens : List Token}
      (tag : Reads (.tag items) text tokens rest) (closing : (Tag.ofItems items).closing = true) :
      Reads (.children (Tag.ofItems items).name) ('<' :: text) (Token.punct '<' :: tokens) rest
  | elementEmpty {items : List TagItem} {text rest : Text} {tokens : List Token}
      (tag : Reads (.tag items) text tokens rest) (opening : (Tag.ofItems items).closing = false)
      (empty : (Tag.ofItems items).selfClosing = true) :
      Reads .element text tokens rest
  | elementWhole {items : List TagItem} {text behind rest : Text} {tokens inner : List Token}
      (tag : Reads (.tag items) text tokens behind) (opening : (Tag.ofItems items).closing = false)
      (whole : (Tag.ofItems items).selfClosing = false)
      (children : Reads (.children (Tag.ofItems items).name) behind inner rest) :
      Reads .element text (tokens ++ inner) rest

/-! ## Spelling -/

/-- A text is what the tokens read from it spell, and the rest. -/
theorem Reads.spelled {mode : Mode} {text rest : Text} {tokens : List Token}
    (reads : Reads mode text tokens rest) : text = Token.spell tokens ++ rest := by
  induction reads with
  | scriptEnd => rfl
  | scriptClose level => rfl
  | scriptToken spelled plain alone more inductionHypothesis
  | tagPart spelled found kind notClose notBrace more inductionHypothesis =>
      rw [spelled, inductionHypothesis, Token.spell_cons, List.append_assoc]
  | scriptTemplate | scriptRegex | scriptMarkup | templateEscape | templateScript | templateChar
  | tagScript | childrenText | childrenScript | childrenElement | childrenClose | elementEmpty
  | elementWhole => simp_all [Token.punct]
  | templateEnd => rfl
  | tagClose => rfl

/-- No token is empty. -/
theorem Reads.text_ne_nil {mode : Mode} {text rest : Text} {tokens : List Token}
    (reads : Reads mode text tokens rest) : ∀ token ∈ tokens, token.text ≠ [] := by
  induction reads with
  | scriptToken spelled plain alone more inductionHypothesis =>
      subst spelled
      have lexeme := (plainToken_append_eq_ok_iff.mp plain).1
      exact List.forall_mem_cons.mpr ⟨lexeme.text_ne_nil, inductionHypothesis⟩
  | tagPart spelled found kind notClose notBrace more inductionHypothesis =>
      subst spelled
      have shape := (tagPart?_append_eq_some_iff.mp found).1
      exact List.forall_mem_cons.mpr ⟨shape.ne_nil, inductionHypothesis⟩
  | _ => simp_all [Token.punct, or_imp, forall_and]

/-- Words and comments are lexemes in all modes. -/
theorem Reads.isLexeme {mode : Mode} {text rest : Text} {tokens : List Token}
    (reads : Reads mode text tokens rest) :
    ∀ token ∈ tokens, token.kind = .identifier ∨ token.isComment = true → IsLexeme token := by
  induction reads with
  | scriptToken spelled plain alone more inductionHypothesis =>
      subst spelled
      have lexeme := (plainToken_append_eq_ok_iff.mp plain).1
      exact List.forall_mem_cons.mpr ⟨fun _ => lexeme, inductionHypothesis⟩
  | @tagPart items part source text rest token tokens spelled found kind notClose notBrace more
      inductionHypothesis =>
      subst spelled
      refine List.forall_mem_cons.mpr ⟨fun isWord => ?_, inductionHypothesis⟩
      have shape := (tagPart?_append_eq_some_iff.mp found).1
      rcases token with ⟨tokenKind, tokenText⟩
      replace shape : IsTagPart part tokenText := shape
      obtain rfl : tokenKind = part.kind := kind
      cases shape with
      | lineComment oneLine => exact .lineComment oneLine
      | blockComment closed => exact .blockComment closed
      | _ => simp [TagPart.kind, Token.isComment] at isWord
  | _ => simp_all [Token.punct, Token.isComment, or_imp, forall_and]

/-- Regular expressions begin with a slash, and templates outside templates with their
quote. -/
theorem Reads.head?_eq {mode : Mode} {text rest : Text} {tokens : List Token}
    (reads : Reads mode text tokens rest) :
    ∀ token ∈ tokens, (token.kind = .regex → token.text.head? = some '/') ∧
      (mode ≠ .template → token.kind = .template → token.text.head? = some '\x60') := by
  induction reads with
  | scriptToken spelled plain alone more inductionHypothesis =>
      subst spelled
      refine List.forall_mem_cons.mpr ⟨?_, by simpa using inductionHypothesis⟩
      cases (plainToken_append_eq_ok_iff.mp plain).1 <;> simp
  | @tagPart items part source text rest token tokens spelled found kind notClose notBrace more
      inductionHypothesis =>
      refine List.forall_mem_cons.mpr ⟨?_, by simpa using inductionHypothesis⟩
      cases part <;> simp [kind, TagPart.kind]
  | _ => simp_all [Token.punct, or_imp, forall_and]

end Deflow.Script
