import Deflow.Proofs.Document.Parts
import Deflow.Proofs.Document.Quotes

/-!
# Line ends in documents

If every line feed of a source text follows a carriage return, then so it does in
all texts that the nodes of its document are written with.  A declaration that is
written anew takes line ends from elsewhere, unless it fits on one line: from the
first text in the document that still stands as it was read and has a line end.
-/

namespace Deflow

open Script

/-! ## Texts -/

namespace Text

theorem crlf_flatMap {items : List α} {text : α → Text} (each : ∀ item ∈ items, (text item).Crlf) :
    Crlf (items.flatMap text) := by
  induction items with
  | nil => exact crlf_nil
  | cons item items inductionHypothesis =>
      rcases List.forall_mem_cons.mp each with ⟨first, others⟩
      exact first.append (inductionHypothesis others)

theorem crlf_joinWith {mark : Text} (ofMark : mark.Crlf) {pieces : List Text}
    (each : ∀ piece ∈ pieces, piece.Crlf) : (joinWith mark pieces).Crlf := by
  induction pieces with
  | nil => exact crlf_nil
  | cons piece pieces inductionHypothesis =>
      rcases List.forall_mem_cons.mp each with ⟨first, others⟩
      cases pieces with
      | nil => exact first
      | cons next pieces => exact (first.append ofMark).append (inductionHypothesis others)

theorem Crlf.of_isPrefix {first text : Text} (crlf : text.Crlf) (isFront : first <+: text) :
    first.Crlf := by
  rcases isFront with ⟨rest, rfl⟩
  exact crlf.left

theorem reverse_dropWhile_reverse_isPrefix (test : Char → Bool) (text : Text) :
    (text.reverse.dropWhile test).reverse <+: text := by
  rw [← List.reverse_suffix, List.reverse_reverse]
  exact List.dropWhile_suffix _

/-- In front of a line feed there is a carriage return. -/
theorem Crlf.getLast?_of_feed {text before rest : Text} (crlf : text.Crlf) (nonempty : before ≠ [])
    (inside : before ++ '\n' :: rest <:+: text) : before.getLast? = some '\r' := by
  rcases inside with ⟨front, behind, rfl⟩
  have chain := (List.isChain_append.mp (List.isChain_append.mp crlf.2).1).2.1
  have seam := (List.isChain_append.mp chain).2.2
  rw [List.getLast?_eq_some_getLast nonempty] at seam ⊢
  rw [seam _ rfl '\n' rfl rfl]

/-- Behind a character that is no carriage return, a text goes on without a line
feed. -/
theorem crlf_iff_isChain (text : Text) :
    text.Crlf ↔ (' ' :: text).IsChain fun c next => next = '\n' → c = '\r' := by
  rw [Crlf, List.isChain_cons]
  refine and_congr_left' ⟨fun noFeed next isHead isFeed => ?_, fun noFeed isFeed => ?_⟩
  · subst isFeed
    exact absurd isHead noFeed
  · exact absurd (noFeed '\n' isFeed rfl) (by decide)

/-- A backslash may be taken out in front of a quote. -/
theorem Crlf.unescapeQuote {quote : Char} (notFeed : quote ≠ '\n') {text : Text}
    (crlf : text.Crlf) : (unescapeQuote quote text).Crlf := by
  have behind (c : Char) (text : Text)
      (chain : (c :: text).IsChain fun c next => next = '\n' → c = '\r') :
      (c :: Deflow.unescapeQuote quote text).IsChain fun c next => next = '\n' → c = '\r' := by
    fun_induction Deflow.unescapeQuote quote text generalizing c with
    | case1 => exact chain
    | case2 text inductionHypothesis =>
        rw [List.isChain_cons_cons, List.isChain_cons_cons] at chain
        rw [List.isChain_cons_cons]
        exact ⟨fun isFeed => absurd isFeed notFeed, inductionHypothesis _ chain.2.2⟩
    | case3 next text _ inductionHypothesis =>
        rw [List.isChain_cons_cons, List.isChain_cons_cons] at chain ⊢
        exact ⟨chain.1, chain.2.1, inductionHypothesis _ chain.2.2⟩
    | case4 d text _ inductionHypothesis =>
        rw [List.isChain_cons_cons] at chain ⊢
        exact ⟨chain.1, inductionHypothesis _ chain.2⟩
  rw [crlf_iff_isChain] at crlf ⊢
  exact behind ' ' text crlf

/-- The first line feed of a text tells whether it has any. -/
theorem Crlf.firstBreak?_eq {text : Text} (crlf : text.Crlf) :
    firstBreak? text = if '\n' ∈ text then some true else none := by
  unfold firstBreak?
  simp only [List.contains_iff_mem]
  split
  · rename_i isFeed
    have split := List.takeWhile_append_dropWhile (p := (· != '\n')) (l := text)
    cases behind : text.dropWhile (· != '\n') with
    | nil =>
        have noFeed := List.dropWhile_eq_nil_iff.mp behind '\n' isFeed
        simp at noFeed
    | cons c rest =>
        have isFeed : c = '\n' := by
          have stops :=
            List.head_dropWhile_not (· != '\n') (by simp [behind] : text.dropWhile (· != '\n') ≠ [])
          simpa [behind] using stops
        subst isFeed
        rw [behind] at split
        have nonempty : text.takeWhile (· != '\n') ≠ [] := by
          intro empty
          rw [empty] at split
          exact crlf.1 (by rw [← split]; rfl)
        rw [crlf.getLast?_of_feed nonempty ⟨[], [], by simpa using split⟩]
        rfl
  · rfl

end Text

/-! ## Nodes -/

/-- Every line feed in the parts of a declaration follows a carriage return. -/
structure Parts.Crlf (parts : Parts) : Prop where
  identifiers : ∀ name ∈ parts.identifiers, name.Crlf
  names : ∀ name ∈ parts.names, name.Crlf
  source : ∀ literal ∈ parts.source, literal.quote ≠ '\n' ∧ literal.body.Crlf
  attributes : ∀ text ∈ parts.attributes, text.Crlf

/-- Every line feed of a comment follows a carriage return, and no line end begins
behind it. -/
structure Comment.Crlf (comment : Comment) : Prop where
  text : comment.text.Crlf
  ends : ∃ last, comment.text.getLast? = some last ∧ last ≠ '\r'

/-- Every line feed in the texts of a node follows a carriage return. -/
structure Node.Crlf (node : Node) : Prop where
  written : ∀ text ∈ node.written?, text.Crlf
  comments : ∀ comment ∈ node.comments, comment.Crlf
  parts : ∀ parts ∈ node.parts?, parts.Crlf

/-- The literal of a string. -/
theorem crlf_literalOf {token : Token} (crlf : token.Crlf) (isString : token.kind = .string) :
    (Declaration.literalOf token.text).quote ≠ '\n' ∧
      (Declaration.literalOf token.text).body.Crlf := by
  rcases crlf with ⟨ofText, _, ofString⟩
  have notReturn := ofString isString
  unfold Declaration.literalOf
  cases isText : token.text with
  | nil => exact ⟨by decide, Text.crlf_nil⟩
  | cons quote body =>
      rw [isText] at ofText notReturn
      have ofBody : Text.Crlf body := by
        refine @Text.Crlf.right [quote] body ofText fun isLast => ?_
        exact absurd isLast notReturn
      exact ⟨fun isFeed => ofText.1 (congrArg some isFeed),
        ofBody.of_isPrefix (List.dropLast_prefix _)⟩

theorem Parts.From.crlf {parts : Parts} {tokens : List Token} (isFrom : parts.From tokens)
    (each : ∀ token ∈ tokens, token.Crlf) : parts.Crlf := by
  constructor
  · intro name member
    exact (each _ (isFrom.identifiers name member)).text
  · intro name member
    rcases isFrom.names name member with ⟨token, isToken, _, rfl⟩
    exact (each token isToken).text
  · intro literal isSource
    rcases isFrom.source literal isSource with ⟨token, isToken, isString, rfl⟩
    exact crlf_literalOf (each token isToken) isString
  · intro text isText
    rcases isFrom.attributes text isText with ⟨inner, inside, ⟨rfl, _, _⟩⟩
    exact Text.crlf_flatMap fun token member => (each token (inside.subset member)).text

/-- The parts of every declaration are taken from some of the tokens. -/
theorem Outlined.parts_of_mem {openers : List Char} {nodes : List Node} {tokens : List Token}
    (outlined : Outlined openers nodes tokens) :
    ∀ node ∈ nodes, ∀ parts ∈ node.parts?, ∃ block, block <:+: tokens ∧ parts.From block := by
  intro node member parts isParts
  rcases outlined.declares_of_mem member (Option.isSome_of_mem isParts) with
    ⟨block, behind, rest, isSuffix, declares, -⟩
  rcases declares.parts_from with ⟨own, isOwn, isFrom⟩
  obtain rfl : own = parts := Option.some.inj (isOwn.symm.trans isParts)
  exact ⟨block, (List.prefix_append ..).isInfix.trans isSuffix.isInfix, isFrom⟩

/-- A comment among tokens. -/
theorem crlf_of_mem_commentsOf {tokens : List Token} {comment : Comment}
    (member : comment ∈ commentsOf tokens) (each : ∀ token ∈ tokens, token.Crlf)
    (filled : ∀ token ∈ tokens, token.text ≠ []) : comment.Crlf := by
  rcases List.mem_filterMap.mp member with ⟨token, isToken, isComment⟩
  rw [comment?_eq_some_iff] at isComment
  subst isComment
  have crlf := each _ isToken
  have isComment : Token.isComment ⟨comment.kind.token, comment.text⟩ = true := by
    cases comment.kind <;> rfl
  refine ⟨crlf.text, comment.text.getLast (filled _ isToken), List.getLast?_eq_some_getLast _, ?_⟩
  intro isReturn
  exact crlf.comment isComment ((List.getLast?_eq_some_getLast _).trans (congrArg some isReturn))

/-- If every line feed of a source text follows a carriage return, then so it does in
all texts of its document. -/
theorem crlf_of_parse {source : Text} {document : Document}
    (parsed : Document.parse source = .ok document) (crlf : source.Crlf) :
    ∀ node ∈ document.nodes, node.Crlf := by
  rcases standing_of_parse parsed with ⟨tokens, scanned, standing⟩
  have scans := tokenize_eq_ok_iff.mp scanned
  have each := scans.crlf crlf
  intro node member
  rcases standing.covers_of_mem node member with ⟨block, inside, covers⟩
  constructor
  · intro text isText
    rw [covers.written?_eq] at isText
    cases isText
    exact Text.crlf_flatMap fun token isToken => (each token (inside.subset isToken)).text
  · intro comment isComment
    rw [covers.comments_eq] at isComment
    exact crlf_of_mem_commentsOf isComment (fun token isToken => each token (inside.subset isToken))
      fun token isToken => scans.text_ne_nil token (inside.subset isToken)
  · intro parts isParts
    rcases (outlined_of_parse parsed scanned).parts_of_mem node member parts isParts with
      ⟨own, isOwn, isFrom⟩
    exact isFrom.crlf fun token isToken => each token (isOwn.subset isToken)

/-! ## Writing -/

theorem StringLiteral.crlf_render {literal : StringLiteral} {preferred : Char}
    (notFeed : preferred ≠ '\n') (ofQuote : literal.quote ≠ '\n') (ofBody : literal.body.Crlf) :
    (literal.render preferred).Crlf := by
  have quoted {quote : Char} {body : Text} (ofQuote : quote ≠ '\n') (ofBody : body.Crlf) :
      Text.Crlf ([quote] ++ body ++ [quote]) := by
    have ofSign : Text.Crlf [quote] := Text.crlf_of_notMem (by simpa using ofQuote.symm)
    exact (ofSign.append ofBody).append ofSign
  unfold StringLiteral.render
  split
  · exact quoted ofQuote ofBody
  · exact quoted notFeed (ofBody.unescapeQuote ofQuote)

theorem BindingKind.crlf_lead (kind : BindingKind) : kind.lead.Crlf := by
  cases kind <;> decide

theorem crlf_declarationHead_import (kind : BindingKind) :
    (declarationHead "import" kind).Crlf := by
  cases kind <;> decide

theorem crlf_declarationHead_export (kind : BindingKind) :
    (declarationHead "export" kind).Crlf := by
  cases kind <;> decide

theorem crlf_attributesTail {attributes : Option Text} (each : ∀ text ∈ attributes, text.Crlf) :
    (attributesTail attributes).Crlf := by
  cases attributes with
  | none => exact Text.crlf_nil
  | some text =>
      have blank : Text.Crlf [' '] := by decide
      exact blank.append (each text rfl)

theorem Specifier.crlf_render {items : List Specifier}
    (names : ∀ name ∈ Specifier.names items, name.Crlf) :
    ∀ text ∈ items.map Specifier.render, text.Crlf := by
  refine List.forall_mem_map.mpr fun item member => ?_
  have each : ∀ name ∈ item.name :: item.renamed.toList, name.Crlf :=
    fun name isName => names name (List.mem_flatMap.mpr ⟨item, member, isName⟩)
  unfold Specifier.render
  refine (item.kind.crlf_lead.append (each _ (.head _))).append ?_
  cases isRenamed : item.renamed with
  | none => exact Text.crlf_nil
  | some name =>
      have between : Text.Crlf " as ".toList := by decide
      exact between.append (each _ (by simp [isRenamed]))

theorem crlf_listLines (options : PrintOptions) {lineEnd : Text} (ofEnd : lineEnd.Crlf)
    {items : List Text} (each : ∀ item ∈ items, item.Crlf) :
    (listLines options lineEnd items).Crlf := by
  have ofIndent : options.indent.Crlf := by
    apply Text.crlf_of_notMem
    unfold PrintOptions.indent
    split <;> simp [List.mem_replicate]
  induction items with
  | nil => exact Text.crlf_nil
  | cons item items inductionHypothesis =>
      rcases List.forall_mem_cons.mp each with ⟨first, others⟩
      have ofComma (last : Bool) : Text.Crlf (if last then [] else [',']) := by
        cases last <;> decide
      exact (((ofIndent.append first).append (ofComma _)).append ofEnd).append
        (inductionHypothesis others)

theorem SpecifierList.crlf_render {list : SpecifierList} {options : PrintOptions}
    {lineEnd head tail : Text} (ofEnd : lineEnd.Crlf) (ofHead : head.Crlf) (ofTail : tail.Crlf)
    (names : ∀ name ∈ Specifier.names list.items, name.Crlf) :
    (list.render options lineEnd head tail).Crlf := by
  have items := Specifier.crlf_render names
  have comma : Text.Crlf ", ".toList := by decide
  unfold SpecifierList.render
  simp only
  split
  · have braces : Text.Crlf "\x7b\x7d".toList := by decide
    exact (ofHead.append braces).append ofTail
  · split
    · have opening : Text.Crlf "\x7b ".toList := by decide
      have closing : Text.Crlf " \x7d".toList := by decide
      have flat := (opening.append (Text.crlf_joinWith comma items)).append closing
      exact (ofHead.append flat).append ofTail
    · have opening : Text.Crlf ['\x7b'] := by decide
      have closing : Text.Crlf ['\x7d'] := by decide
      have lines := crlf_listLines options ofEnd items
      exact ((((ofHead.append opening).append ofEnd).append lines).append closing).append ofTail

theorem crlf_hoist {comments : List Comment} {lineEnd : Text} (ofEnd : lineEnd.Crlf)
    (each : ∀ comment ∈ comments, comment.Crlf) : (hoist comments lineEnd).Crlf :=
  Text.crlf_flatMap fun comment member => (each comment member).text.append ofEnd

theorem ImportDeclaration.crlf_render {declaration : ImportDeclaration} {options : PrintOptions}
    {lineEnd : Text} (notFeed : options.quote ≠ '\n') (ofEnd : lineEnd.Crlf)
    (comments : ∀ comment ∈ declaration.comments, comment.Crlf) (parts : declaration.parts.Crlf) :
    (declaration.render options lineEnd).Crlf := by
  have comma : Text.Crlf ", ".toList := by decide
  have blank : Text.Crlf [' '] := by decide
  have clauses : ∀ clause ∈ declaration.clauses, clause.Crlf := by
    intro clause member
    rcases List.mem_append.mp member with isDefault | isNamespace
    · exact parts.identifiers clause (List.mem_append_left _ isDefault)
    · rw [Option.mem_toList, Option.map_eq_some_iff] at isNamespace
      rcases isNamespace with ⟨name, isName, rfl⟩
      have star : Text.Crlf "* as ".toList := by decide
      exact star.append (parts.identifiers name (List.mem_append_right _ (by simp [isName])))
  have head := ((crlf_declarationHead_import declaration.kind).append blank).append
    (Text.crlf_joinWith comma clauses)
  have tail (binds : Bool) : Text.Crlf ((if binds then " from ".toList else [' ']) ++
      declaration.source.render options.quote ++ attributesTail declaration.attributes ++
      [';']) := by
    rcases parts.source _ rfl with ⟨ofQuote, ofBody⟩
    have semicolon : Text.Crlf [';'] := by decide
    have word : Text.Crlf (if binds then " from ".toList else [' ']) := by cases binds <;> decide
    exact ((word.append (StringLiteral.crlf_render notFeed ofQuote ofBody)).append
      (crlf_attributesTail parts.attributes)).append semicolon
  unfold ImportDeclaration.render
  refine (crlf_hoist ofEnd comments).append ?_
  have names := parts.names
  rw [ImportDeclaration.parts] at names
  cases isList : declaration.specifiers with
  | none => exact (head.of_isPrefix (Text.reverse_dropWhile_reverse_isPrefix ..)).append (tail _)
  | some list =>
      rw [isList] at names
      refine SpecifierList.crlf_render ofEnd (head.append ?_) (tail _) names
      split
      · exact Text.crlf_nil
      · exact comma

theorem ExportDeclaration.crlf_render {declaration : ExportDeclaration} {options : PrintOptions}
    {lineEnd : Text} (notFeed : options.quote ≠ '\n') (ofEnd : lineEnd.Crlf)
    (comments : ∀ comment ∈ declaration.comments, comment.Crlf) (parts : declaration.parts.Crlf) :
    (declaration.render options lineEnd).Crlf := by
  have blank : Text.Crlf [' '] := by decide
  have semicolon : Text.Crlf [';'] := by decide
  refine (crlf_hoist ofEnd comments).append (SpecifierList.crlf_render ofEnd
    ((crlf_declarationHead_export declaration.kind).append blank)
    (.append ?_ semicolon) parts.names)
  have source := parts.source
  rw [ExportDeclaration.parts] at source
  cases isSource : declaration.source with
  | none => exact Text.crlf_nil
  | some literal =>
      rcases source literal isSource with ⟨ofQuote, ofBody⟩
      have word : Text.Crlf " from ".toList := by decide
      exact (word.append (StringLiteral.crlf_render notFeed ofQuote ofBody)).append
        (crlf_attributesTail parts.attributes)

/-- A node is written with the line ends that its texts have and those it is given. -/
theorem Node.Crlf.render {node : Node} (crlf : node.Crlf) {options : PrintOptions} {lineEnd : Text}
    (notFeed : options.quote ≠ '\n') (ofEnd : lineEnd.Crlf) :
    (node.render options lineEnd).Crlf := by
  cases node with
  | trivia text | code text => exact crlf.written text rfl
  | comment own => exact crlf.written own.text rfl
  | importing declaration =>
      rw [Node.render]
      cases isWritten : declaration.written with
      | none =>
          exact ImportDeclaration.crlf_render notFeed ofEnd crlf.comments (crlf.parts _ rfl)
      | some text => exact crlf.written text isWritten
  | exporting declaration =>
      rw [Node.render]
      cases isWritten : declaration.written with
      | none =>
          exact ExportDeclaration.crlf_render notFeed ofEnd crlf.comments (crlf.parts _ rfl)
      | some text => exact crlf.written text isWritten

/-! ## Where line ends come from -/

/-- A node is written without line ends other than those in its texts. -/
def Node.KeepsToLine (options : PrintOptions) (node : Node) : Prop :=
  ∀ lineEnd, node.render options lineEnd = node.render options []

/-- The line end of a document with such texts is that of the texts, if one of them
has any. -/
theorem Document.lineEnd_of_crlf {document : Document}
    (each : ∀ node ∈ document.nodes, ∀ text ∈ node.written?, text.Crlf) :
    ((∃ node ∈ document.nodes, ∃ text ∈ node.written?, '\n' ∈ text) ∧
        document.lineEnd = ['\r', '\n']) ∨
      (¬∃ node ∈ document.nodes, ∃ text ∈ node.written?, '\n' ∈ text) ∧
        document.lineEnd = ['\n'] := by
  have atNode {node : Node} (member : node ∈ document.nodes) {found : Bool}
      (isFound : node.written?.bind firstBreak? = some found) :
      found = true ∧ ∃ text ∈ node.written?, '\n' ∈ text := by
    rcases Option.bind_eq_some_iff.mp isFound with ⟨text, isText, atBreak⟩
    rw [(each node member text isText).firstBreak?_eq] at atBreak
    split at atBreak
    · rename_i isFeed
      cases atBreak
      exact ⟨rfl, text, isText, isFeed⟩
    · cases atBreak
  unfold Document.lineEnd
  cases search : document.nodes.findSome? fun node => node.written?.bind firstBreak? with
  | some found =>
      rcases List.exists_of_findSome?_eq_some search with ⟨node, member, isFound⟩
      rcases atNode member isFound with ⟨rfl, withFeed⟩
      exact .inl ⟨⟨node, member, withFeed⟩, rfl⟩
  | none =>
      refine .inr ⟨?_, rfl⟩
      rintro ⟨node, member, text, isText, isFeed⟩
      have noneFound := List.findSome?_eq_none_iff.mp search node member
      rw [Option.mem_def.mp isText, Option.bind_some, (each node member text isText).firstBreak?_eq,
        if_pos isFeed] at noneFound
      cases noneFound

/-- A list that is written over several lines has a bare line feed, if that is the
line end it is given. -/
theorem SpecifierList.render_eq_of_crlf {list : SpecifierList} {options : PrintOptions}
    {head tail text : Text} (crlf : text.Crlf)
    (inside : list.render options ['\n'] head tail <:+: text) (lineEnd : Text) :
    list.render options lineEnd head tail = list.render options [] head tail := by
  unfold SpecifierList.render at inside ⊢
  simp only at inside ⊢
  split
  · rfl
  · rename_i nonempty
    rw [if_neg nonempty] at inside
    split
    · rfl
    · rename_i broken
      rw [if_neg broken] at inside
      have nonempty : head ++ ['\x7b'] ≠ [] := by simp
      have isReturn := crlf.getLast?_of_feed nonempty (by simpa using inside)
      simp at isReturn

/-- A hoisted comment is followed by a bare line feed, if that is the line end it is
given. -/
theorem comments_eq_nil_of_crlf {comments : List Comment}
    (each : ∀ comment ∈ comments, comment.Crlf) {text rest : Text} (crlf : text.Crlf)
    (inside : hoist comments ['\n'] ++ rest <:+: text) :
    comments = [] := by
  cases comments with
  | nil => rfl
  | cons comment comments =>
      rcases (each comment (.head _)).ends with ⟨last, isLast, notReturn⟩
      have nonempty : comment.text ≠ [] := by
        rintro empty
        simp [empty] at isLast
      have isReturn := crlf.getLast?_of_feed nonempty (by simpa [hoist] using inside)
      rw [isLast] at isReturn
      exact absurd (Option.some.inj isReturn) notReturn

/-- A node that is written with bare line feeds has no bare line feed only if it needs
none at all. -/
theorem Node.Crlf.keepsToLine {node : Node} (ofNode : node.Crlf) {options : PrintOptions}
    {text : Text} (crlf : text.Crlf) (inside : node.render options ['\n'] <:+: text) :
    node.KeepsToLine options := by
  intro lineEnd
  cases node with
  | trivia | code | comment => rfl
  | importing declaration =>
      simp only [Node.render] at inside ⊢
      cases isWritten : declaration.written with
      | some => rfl
      | none =>
          rw [isWritten] at inside
          simp only [Option.getD_none, ImportDeclaration.render] at inside ⊢
          have noComments := comments_eq_nil_of_crlf ofNode.comments crlf inside
          simp only [Node.comments] at noComments
          rw [noComments] at inside ⊢
          cases isList : declaration.specifiers with
          | none => rfl
          | some list =>
              rw [isList] at inside
              exact SpecifierList.render_eq_of_crlf crlf inside lineEnd
  | exporting declaration =>
      simp only [Node.render] at inside ⊢
      cases isWritten : declaration.written with
      | some => rfl
      | none =>
          rw [isWritten] at inside
          simp only [Option.getD_none, ExportDeclaration.render] at inside ⊢
          have noComments := comments_eq_nil_of_crlf ofNode.comments crlf inside
          simp only [Node.comments] at noComments
          rw [noComments] at inside ⊢
          exact SpecifierList.render_eq_of_crlf crlf inside lineEnd

end Deflow
