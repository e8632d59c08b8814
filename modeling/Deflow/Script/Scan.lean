import Deflow.Script.Lexeme
import Deflow.Text.Alphabetic

/-!
# Cutting a script into tokens

Some tokens depend on what stands around them. A slash begins a regular
expression only where an expression may begin; an angle bracket opens markup
only there, and only if a whole element can be read from it; and a template
holds script of its own between `${` and the matching closing brace.

Script, templates, markup tags and markup children are therefore read by four
readers that call each other. All of them go through the text one character at
a time, and every call of one by another is made for the text behind the
present character. What the other reader has taken is then passed over, which
the argument `skip` counts: it is the number of characters at the front of the
text that belong to tokens already read.
-/

namespace Deflow.Script

/-! ## Context -/

/-- Where a stretch of script ends. -/
inductive Until where
  | endOfInput
  /-- At the brace that closes a substitution or a markup container. -/
  | closingBrace
deriving DecidableEq, Repr

/-- The words behind which an expression begins. -/
def operatorWords : List String :=
  ["return", "typeof", "instanceof", "in", "of", "new", "delete", "void", "throw", "case", "do",
   "else", "yield", "await", "extends"]

/-- Whether an expression may begin behind `token`, given whether one might
have begun before it. An angle bracket compares, so no regular expression
follows it. -/
def expressionMayFollow (before : Bool) (token : Token) : Bool :=
  match token.kind with
  | .whitespace | .lineComment | .blockComment => before
  | .identifier => operatorWords.any (token.isWord ·)
  | .punctuation => !([')', ']', '\x7d', '<'].any (token.isPunct ·))
  | _ => false

/-- Whether what follows an angle bracket can begin a markup element. -/
def opensMarkup : Text → Bool
  | [] => false
  | c :: _ => Text.isAlphabetic c || c == '_' || c == '$' || c == '>'

/-- What the reader of script knows about the text before it. -/
structure ScriptState where
  /-- How many braces are open. -/
  depth : Nat := 0
  /-- Whether an expression may begin here. -/
  expressionStart : Bool := true
  /-- The tokens read so far, the latest first. -/
  read : List Token := []

/-- The state behind one more token. -/
def ScriptState.push (state : ScriptState) (token : Token) : ScriptState where
  depth :=
    if token.isPunct '\x7b' then state.depth + 1
    else if token.isPunct '\x7d' then state.depth - 1
    else state.depth
  expressionStart := expressionMayFollow state.expressionStart token
  read := token :: state.read

/-- The state behind a markup element. -/
def ScriptState.pushMarkup (state : ScriptState) (tokens : List Token) : ScriptState :=
  { state with expressionStart := false, read := tokens.reverse ++ state.read }

/-- A fault and the text in front of which it was met. -/
structure Failure where
  fault : ScanFault
  rest : Text
deriving DecidableEq, Repr

/-! ## Markup tags -/

/-- A part of a markup tag. -/
inductive TagPart where
  | whitespace
  | lineComment
  | blockComment
  | string
  | name
  | openBrace
  | slash
  | close
  /-- An equals sign, a dot or a colon. -/
  | punctuation
deriving DecidableEq, Repr

/-- The kind of token that a part of a tag becomes. -/
def TagPart.kind : TagPart → TokenKind
  | .whitespace => .whitespace
  | .lineComment => .lineComment
  | .blockComment => .blockComment
  | .string => .string
  | .name => .jsxName
  | .openBrace | .slash | .close | .punctuation => .punctuation

/-- The part at the front of a tag and its length. A string runs to the same
quote, over line ends, and has no escapes. -/
def tagPart? (text : Text) : Option (TagPart × Nat) :=
  match text with
  | [] => none
  | '/' :: '/' :: rest => some (.lineComment, 2 + runLength (!isLineFeed ·) rest)
  | '/' :: '*' :: rest => (commentEnd? 2 rest).map (.blockComment, ·)
  | '/' :: _ => some (.slash, 1)
  | '>' :: _ => some (.close, 1)
  | '\x7b' :: _ => some (.openBrace, 1)
  | c :: rest =>
    if isTagSpace c then
      some (.whitespace, 1 + runLength isTagSpace rest)
    else if c = '"' || c = '\'' then
      let size := runLength (· != c) rest
      if size < rest.length then some (.string, size + 2) else none
    else if isTagNameStart c then
      some (.name, 1 + runLength isTagNamePart rest)
    else if c = '=' || c = '.' || c = ':' then
      some (.punctuation, 1)
    else
      none

/-- What the reader of a tag knows about the text behind the angle bracket. -/
structure TagState where
  /-- The name of the tag so far, comments between its parts included. -/
  name : Option Text := none
  /-- What has been read behind the name. -/
  behindName : Text := []
  /-- Whether a name or punctuation would still belong to the tag's name. -/
  naming : Bool := true
  closing : Bool := false
  selfClosing : Bool := false
  /-- The tokens read so far, the latest first. -/
  read : List Token := [Token.punct '<']

/-- The state behind a piece of the tag that does not belong to its name. -/
def TagState.pass (state : TagState) (token : Token) : TagState :=
  { state with behindName := state.behindName ++ token.text, read := token :: state.read }

/-- The state behind a piece that belongs to the tag's name. -/
def TagState.extendName (state : TagState) (token : Token) : TagState :=
  { state with
    name := some <|
      match state.name with
      | none => token.text
      | some name => name ++ state.behindName ++ token.text
    behindName := []
    read := token :: state.read }

/-- The state behind script between braces. -/
def TagState.pushScript (state : TagState) (tokens : List Token) : TagState :=
  { state with
    naming := false
    read := tokens.reverse ++ Token.punct '\x7b' :: state.read }

/-- The state behind a part of the tag other than a brace and the closing
angle bracket. A slash before any name marks a closing tag, any other slash an
element without children. -/
def TagState.push (state : TagState) (part : TagPart) (token : Token) : TagState :=
  match part with
  | .whitespace => { state.pass token with naming := state.name.isNone }
  | .string => { state.pass token with naming := false }
  | .name | .punctuation =>
    if state.naming then state.extendName token else state.pass token
  | .slash =>
    if state.name.isNone && !state.closing then
      { state.pass token with closing := true }
    else
      { state.pass token with selfClosing := true, naming := false }
  | _ => state.pass token

/-- A markup tag that has been read to its closing angle bracket. -/
structure Tag where
  /-- The name; a fragment has the empty one. -/
  name : Text
  closing : Bool
  selfClosing : Bool
  tokens : List Token
deriving DecidableEq, Repr

/-- The tag that ends where a state stands. -/
def TagState.finish (state : TagState) : Tag :=
  { name := state.name.getD []
    closing := state.closing
    selfClosing := state.selfClosing
    tokens := (Token.punct '>' :: state.read).reverse }

/-! ## The four readers -/

mutual

/-- Reads script up to its end and gives its tokens, the closing brace among
them. -/
def readScript (stop : Until) (state : ScriptState) (skip : Nat) (text : Text) :
    Except Failure (List Token) :=
  match text, skip with
  | [], _ =>
    match stop with
    | .endOfInput => .ok state.read.reverse
    | .closingBrace => .error ⟨.unexpectedEnd, []⟩
  | _ :: rest, skip + 1 => readScript stop state skip rest
  | c :: rest, 0 =>
    if c = '\x60' then
      match readTemplate [c] 0 rest with
      | .error fault => .error ⟨fault, c :: rest⟩
      | .ok template =>
        readScript stop (state.push ⟨.template, template⟩) (template.length - 1) rest
    else
      match plainToken (c :: rest) with
      | .error fault => .error ⟨fault, c :: rest⟩
      | .ok token =>
        if token.isPunct '/' && state.expressionStart then
          match regexLength? rest with
          | some size => readScript stop (state.push ⟨.regex, c :: rest.take size⟩) size rest
          | none => readScript stop (state.push token) 0 rest
        else if token.isPunct '<' && state.expressionStart && opensMarkup rest then
          match (readTag {} 0 rest).bind fun tag =>
              if tag.closing then none
              else if tag.selfClosing then some tag.tokens
              else readChildren tag.name tag.tokens.reverse (Token.size tag.tokens - 1) rest with
          | some tokens => readScript stop (state.pushMarkup tokens) (Token.size tokens - 1) rest
          | none => readScript stop (state.push token) 0 rest
        else if token.isPunct '\x7d' && state.depth == 0 && stop == .closingBrace then
          .ok (token :: state.read).reverse
        else
          readScript stop (state.push token) (token.text.length - 1) rest
termination_by structural text

/-- Reads a template behind the characters `read`, latest first, and gives the
whole of it. A substitution that never ends leaves the template without an
end. -/
def readTemplate (read : Text) (skip : Nat) (text : Text) : Except ScanFault Text :=
  match text, skip with
  | [], _ => .error .unterminatedTemplate
  | _ :: rest, skip + 1 => readTemplate read skip rest
  | c :: rest, 0 =>
    if c = '\x60' then
      .ok (c :: read).reverse
    else if c = '\\' then
      match rest with
      | [] => .error .unterminatedTemplate
      | d :: rest => readTemplate (d :: c :: read) 0 rest
    else if c = '$' then
      match rest with
      | '\x7b' :: rest =>
        match readScript .closingBrace {} 0 rest with
        | .error ⟨.unexpectedEnd, _⟩ => .error .unterminatedTemplate
        | .error ⟨fault, _⟩ => .error fault
        | .ok tokens =>
          let read := (Token.spell tokens).reverse ++ '\x7b' :: c :: read
          readTemplate read (Token.size tokens) rest
      | rest => readTemplate (c :: read) 0 rest
    else
      readTemplate (c :: read) 0 rest
termination_by structural text

/-- Reads a markup tag, behind its opening angle bracket, to its closing one. -/
def readTag (state : TagState) (skip : Nat) (text : Text) : Option Tag :=
  match text, skip with
  | [], _ => none
  | _ :: rest, skip + 1 => readTag state skip rest
  | c :: rest, 0 =>
    match tagPart? (c :: rest) with
    | none => none
    | some (part, size) =>
      match part with
      | .close => some state.finish
      | .openBrace =>
        match readScript .closingBrace {} 0 rest with
        | .error _ => none
        | .ok tokens => readTag (state.pushScript tokens) (Token.size tokens) rest
      | part => readTag (state.push part (cut part.kind size (c :: rest))) (size - 1) rest
termination_by structural text

/-- Reads markup children, behind the tokens `read`, latest first, through the
tag that closes the element `name`. -/
def readChildren (name : Text) (read : List Token) (skip : Nat) (text : Text) :
    Option (List Token) :=
  match text, skip with
  | [], _ => none
  | _ :: rest, skip + 1 => readChildren name read skip rest
  | c :: rest, 0 =>
    if c = '\x7b' then
      match readScript .closingBrace {} 0 rest with
      | .error _ => none
      | .ok tokens =>
        readChildren name (tokens.reverse ++ Token.punct c :: read) (Token.size tokens) rest
    else if c = '<' then
      match readTag {} 0 rest with
      | none => none
      | some tag =>
        let taken := Token.size tag.tokens - 1
        let read := tag.tokens.reverse ++ read
        if tag.closing then
          if tag.name = name then some read.reverse else none
        else if tag.selfClosing then
          readChildren name read taken rest
        else
          match readChildren tag.name [] taken rest with
          | none => none
          | some tokens =>
            readChildren name (tokens.reverse ++ read) (taken + Token.size tokens) rest
    else
      let size := runLength (fun c => c != '<' && c != '\x7b') (c :: rest)
      readChildren name (cut .jsxText size (c :: rest) :: read) (size - 1) rest
termination_by structural text

end

/-- Reads a markup element behind its angle bracket, if a whole one is there. -/
def readElement (text : Text) : Option (List Token) :=
  (readTag {} 0 text).bind fun tag =>
    if tag.closing then none
    else if tag.selfClosing then some tag.tokens
    else readChildren tag.name tag.tokens.reverse (Token.size tag.tokens - 1) text

/-! ## Whole scripts -/

/-- The tokens of a source text. Only its very beginning can hold an
interpreter line. -/
def tokenize (source : Text) : Except Failure (List Token) :=
  match source with
  | '#' :: '!' :: _ =>
    let token := cut .hashbang (runLength (!isLineFeed ·) source) source
    readScript .endOfInput { read := [token] } token.text.length source
  | _ => readScript .endOfInput {} 0 source

/-- The position in `source` at which its last part `rest` begins. -/
def positionOfRest (source rest : Text) : Position :=
  Position.start.after (source.take (source.length - rest.length))

end Deflow.Script
