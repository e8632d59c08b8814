import Deflow.Proofs.Document.Hoisting
import Deflow.Proofs.Rule.Effect

/-!
# Declarations that the rules change

The rules strip pragmas from between the nodes of a document and change its
declarations.  Neither depends on the other, so that what is written comes about in two
steps: first the changed declarations are drawn anew among all other tokens, then the
pragmas are stripped from the tokens.
-/

namespace Deflow

open Script Spaced

/-! ## Nodes -/

/-- A node as the rules leave it. -/
def Node.normalize : Node → Node :=
  Node.mapDeclaration
    (fun declaration => (declaration.dropComments Comment.isPragma).setKind .value)
    fun declaration => (declaration.dropComments Comment.isPragma).toValues

/-- Whether a node is a declaration that the rules change. -/
def Node.isChanged (node : Node) : Bool :=
  node.normalize.written?.isNone

/-- The rules strip pragmas and change declarations. -/
theorem nodes_apply_standard {document : Document} (filled : Filled document.nodes) :
    (Pipeline.standard.apply document).1.nodes =
      (stripAll (Node.isDropped Comment.isPragma) document.nodes).map Node.normalize := by
  have filledStripped := Rule.stripPragmas.filled_apply filled
  have filledImports := Rule.normalizeImportKinds.filled_apply filledStripped
  simp only [Pipeline.apply, Pipeline.standard, Rule.all, Pipeline.applyRules]
  rw [Rule.nodes_apply _ filledImports, Rule.nodes_apply _ filledStripped,
    Rule.nodes_apply _ filled]
  simp only [Rule.tidy, id]
  rw [← (Node.keepsSpace_mapDeclaration ..).map_stripAll, List.map_map, List.map_map]
  refine List.map_congr_left fun node _ => ?_
  cases node <;> rfl

theorem ImportDeclaration.Normalized.eq_old {old new : ImportDeclaration}
    (normalized : old.Normalized new) (written : new.written.isSome = true) : new = old := by
  have isWritten := normalized.written
  split at isWritten
  · rename_i same
    rw [← isWritten] at same
    exact same
  · simp [isWritten] at written

theorem ExportDeclaration.Normalized.eq_old {old new : ExportDeclaration}
    (normalized : old.Normalized new) (written : new.written.isSome = true) : new = old := by
  have isWritten := normalized.written
  split at isWritten
  · rename_i same
    rw [← isWritten] at same
    exact same
  · simp [isWritten] at written

/-- What the rules do not change is as it was. -/
theorem Node.normalize_of_unchanged {node : Node} (wasWritten : node.written?.isSome = true)
    (unchanged : node.isChanged = false) : node.normalize = node := by
  rw [Node.isChanged, Option.isNone_eq_false_iff] at unchanged
  cases node with
  | importing declaration =>
      exact congrArg Node.importing ((ImportDeclaration.normalized wasWritten).eq_old unchanged)
  | exporting declaration =>
      exact congrArg Node.exporting ((ExportDeclaration.normalized wasWritten).eq_old unchanged)
  | _ => rfl

/-- What the rules do not change is written as it was. -/
theorem Node.renewed_of_unchanged {node : Node} (wasWritten : node.written?.isSome = true)
    (unchanged : node.isChanged = false) (options : PrintOptions) (lineEnd : Text) :
    node.normalize.renewed options lineEnd = [node] := by
  rw [Node.normalize_of_unchanged wasWritten unchanged]
  cases node with
  | importing | exporting => exact if_pos wasWritten
  | _ => rfl

/-- The rules leave the parts of a declaration. -/
theorem Node.parts?_normalize (node : Node) : node.normalize.parts? = node.parts? := by
  cases node with
  | importing declaration =>
      simp [Node.normalize, Node.mapDeclaration, Node.parts?, ImportDeclaration.setKind_eq,
        ImportDeclaration.dropComments_eq, ImportDeclaration.parts]
  | exporting declaration =>
      simp [Node.normalize, Node.mapDeclaration, Node.parts?, ExportDeclaration.toValues_eq,
        ExportDeclaration.dropComments_eq, ExportDeclaration.parts, Specifier.names,
        SpecifierList.toValues, List.flatMap_map, Specifier.toValue]
  | _ => rfl

/-- The rules drop pragmas from the comments of a declaration, but leave a comment that
is a node by itself. -/
theorem Node.interior_normalize (node : Node) :
    node.normalize.interior = node.interior.filter (!·.isPragma) := by
  cases node with
  | importing declaration =>
      simp [Node.normalize, Node.mapDeclaration, Node.interior, ImportDeclaration.setKind_eq,
        ImportDeclaration.dropComments_eq]
  | exporting declaration =>
      simp [Node.normalize, Node.mapDeclaration, Node.interior, ExportDeclaration.toValues_eq,
        ExportDeclaration.dropComments_eq]
  | _ => rfl

theorem Node.filter_comments_normalize (node : Node) :
    node.normalize.comments.filter (!·.isPragma) = node.comments.filter (!·.isPragma) := by
  cases node with
  | importing declaration =>
      simp [Node.normalize, Node.mapDeclaration, Node.comments, ImportDeclaration.setKind_eq,
        ImportDeclaration.dropComments_eq]
  | exporting declaration =>
      simp [Node.normalize, Node.mapDeclaration, Node.comments, ExportDeclaration.toValues_eq,
        ExportDeclaration.dropComments_eq]
  | _ => rfl

/-- A node is written as itself, or as its comments and another declaration. -/
theorem Node.renewed_cases (node : Node) (options : PrintOptions) (lineEnd : Text) :
    node.renewed options lineEnd = [node] ∨
      ∃ other, white? other = none ∧ other.interior = [] ∧ (∀ drop, other.isDropped drop = false) ∧
        node.renewed options lineEnd = hoistedNodes node.interior lineEnd ++ [other] := by
  cases node with
  | importing declaration =>
      simp only [Node.renewed]
      split
      · exact .inl rfl
      · exact .inr ⟨_, rfl, rfl, fun _ => rfl, rfl⟩
  | exporting declaration =>
      simp only [Node.renewed]
      split
      · exact .inl rfl
      · exact .inr ⟨_, rfl, rfl, fun _ => rfl, rfl⟩
  | _ => exact .inl rfl

theorem mem_hoistedNodes {comments : List Comment} {lineEnd : Text} {node : Node}
    (member : node ∈ hoistedNodes comments lineEnd) :
    (∃ comment ∈ comments, node = .comment comment) ∨ node = .trivia lineEnd := by
  rcases List.mem_flatMap.mp member with ⟨comment, isComment, isNode⟩
  simp only [List.mem_cons, List.not_mem_nil, or_false] at isNode
  exact isNode.imp_left fun same => ⟨comment, isComment, same⟩

/-- Pragmas are stripped alike before and after changed declarations are written out. -/
theorem unfolds_renewed {lineEnd : Text} (nonempty : lineEnd ≠ []) (options : PrintOptions) :
    Unfolds (Node.isDropped Comment.isPragma)
      fun node => node.normalize.renewed options lineEnd := by
  have keepsSpace : KeepsSpace (Node.isDropped Comment.isPragma) Node.normalize :=
    Node.keepsSpace_mapDeclaration ..
  constructor
  · exact fun text => rfl
  · intro node isDropped
    cases node with
    | comment own => exact ⟨_, rfl, isDropped, rfl⟩
    | _ => cases isDropped
  · intro node stays other member
    rcases node.normalize.renewed_cases options lineEnd with
      isSame | ⟨last, _, _, lastStays, isHoisted⟩
    · rw [isSame] at member
      rw [List.mem_singleton.mp member, keepsSpace.drops, stays]
    · rw [isHoisted, List.mem_append] at member
      rcases member with hoisted | isLast
      · rcases mem_hoistedNodes hoisted with ⟨comment, isComment, rfl⟩ | rfl
        · rw [Node.interior_normalize] at isComment
          simpa [Node.isDropped] using (List.mem_filter.mp isComment).2
        · rfl
      · rw [List.mem_singleton.mp isLast]
        exact lastStays _
  · intro node notWhite other member
    rcases node.normalize.renewed_cases options lineEnd with
      isSame | ⟨last, lastNotWhite, _, _, isHoisted⟩
    · rw [isSame] at member
      rw [List.mem_singleton.mp member, keepsSpace.space, notWhite]
      simp
    · rw [isHoisted, List.mem_append] at member
      rcases member with hoisted | isLast
      · rcases mem_hoistedNodes hoisted with ⟨comment, _, rfl⟩ | rfl
        · simp [white?]
        · simpa [white?] using nonempty
      · rw [List.mem_singleton.mp isLast, lastNotWhite]
        simp
  · intro node notWhite
    rcases node.normalize.renewed_cases options lineEnd with
      isSame | ⟨last, lastNotWhite, _, _, isHoisted⟩
    · rw [isSame]
      exact ⟨_, rfl, (keepsSpace.space node).trans notWhite⟩
    · rw [isHoisted]
      cases node.normalize.interior with
      | nil => exact ⟨last, rfl, lastNotWhite⟩
      | cons comment comments => exact ⟨.comment comment, rfl, rfl⟩
  · intro node notWhite
    rcases node.normalize.renewed_cases options lineEnd with
      isSame | ⟨last, lastNotWhite, _, _, isHoisted⟩
    · rw [isSame]
      exact ⟨_, rfl, (keepsSpace.space node).trans notWhite⟩
    · rw [isHoisted, List.getLast?_append_of_ne_nil _ (by simp)]
      exact ⟨last, rfl, lastNotWhite⟩

/-- A text is a line end. -/
theorem Document.isLineEnd_lineEnd (document : Document) : IsLineEnd document.lineEnd := by
  unfold Document.lineEnd
  split
  · exact .inr rfl
  · exact .inl rfl

/-- What nodes are written as when changed declarations are drawn anew. -/
def redrawnText (options : PrintOptions) (lineEnd : Text) (nodes : List Node) : Text :=
  nodes.flatMap fun node => node.normalize.render options lineEnd

theorem Standing.spell_eq_redrawnText {options : PrintOptions} {lineEnd : Text} {nodes : List Node}
    {drawn : List Token}
    (standing : Standing (nodes.flatMap fun node => node.normalize.renewed options lineEnd) drawn) :
    Token.spell drawn = redrawnText options lineEnd nodes := by
  rw [← standing.render_eq options lineEnd, List.flatMap_assoc]
  exact List.flatMap_congr fun node _ => node.normalize.render_renewed options lineEnd

/-- The standard pipeline writes the drawn tokens without pragmas. -/
theorem print_apply_standard {document : Document} {drawn : List Token} (options : PrintOptions)
    (filled : Filled document.nodes) (filledDrawn : Filled drawn)
    (standing : Standing (document.nodes.flatMap fun node =>
      node.normalize.renewed options (Pipeline.standard.apply document).1.lineEnd) drawn) :
    (Pipeline.standard.apply document).1.print options =
      Token.spell (stripAll Token.isPragma drawn) := by
  have isEnd := (Pipeline.standard.apply document).1.isLineEnd_lineEnd
  unfold Document.print
  generalize (Pipeline.standard.apply document).1.lineEnd = lineEnd at isEnd standing ⊢
  have nonempty : lineEnd ≠ [] := by
    rcases isEnd with rfl | rfl <;> simp
  have inside : ∀ node ∈ document.nodes.flatMap fun node => node.normalize.renewed options lineEnd,
      ∀ comment ∈ node.interior, comment.isPragma = false := by
    intro node member comment isInside
    rcases List.mem_flatMap.mp member with ⟨old, _, isNode⟩
    rcases old.normalize.renewed_cases options lineEnd with
      isSame | ⟨last, _, noComment, _, isHoisted⟩
    · rw [isSame, List.mem_singleton] at isNode
      rw [isNode, Node.interior_normalize] at isInside
      simpa using (List.mem_filter.mp isInside).2
    · rw [isHoisted, List.mem_append, List.mem_singleton] at isNode
      rcases isNode with hoisted | rfl
      · rcases mem_hoistedNodes hoisted with ⟨own, _, rfl⟩ | rfl <;> cases isInside
      · rw [noComment] at isInside
        cases isInside
  have stripped := standing.stripAll filledDrawn inside
  rw [← (unfolds_renewed nonempty options).flatMap_stripAll] at stripped
  rw [nodes_apply_standard filled, List.flatMap_map]
  exact stripped.spell_eq_redrawnText.symm

/-! ## Tokens -/

/-- Tokens up to a length of their text, and the tokens behind. -/
def cutAt : Nat → List Token → List Token × List Token
  | 0, tokens => ([], tokens)
  | _ + 1, [] => ([], [])
  | length + 1, token :: tokens =>
    let (front, behind) := cutAt (length + 1 - token.text.length) tokens
    (token :: front, behind)

theorem cutAt_spell {block : List Token} (filled : ∀ token ∈ block, token.text ≠ [])
    (tokens : List Token) :
    cutAt (Token.spell block).length (block ++ tokens) = (block, tokens) := by
  induction block with
  | nil => rw [Token.spell_nil, List.length_nil, cutAt, List.nil_append]
  | cons token block inductionHypothesis =>
      rcases List.forall_mem_cons.mp filled with ⟨first, others⟩
      have positive := List.length_pos_iff.mpr first
      obtain ⟨length, isLength⟩ : ∃ length, (Token.spell (token :: block)).length = length + 1 :=
        Nat.exists_eq_add_one.mpr (by simp; omega)
      have behind : length + 1 - token.text.length = (Token.spell block).length := by
        rw [← isLength, Token.spell_cons, List.length_append]
        omega
      rw [isLength, List.cons_append, cutAt, behind, inductionHypothesis others]

/-- The tokens that a node was read from, and the tokens behind them. -/
def Node.cut (node : Node) (tokens : List Token) : List Token × List Token :=
  cutAt (node.written?.getD []).length tokens

theorem Node.cut_eq {node : Node} {block : List Token}
    (written : node.written? = some (Token.spell block))
    (sound : ∀ token ∈ block, token.Sound) (tokens : List Token) :
    node.cut (block ++ tokens) = (block, tokens) := by
  rw [Node.cut, written]
  exact cutAt_spell (fun token member => (sound token member).filled) tokens

/-- A node stands for the tokens that it was read from. -/
theorem Standing.of_written {node : Node} {nodes : List Node} {block tokens : List Token}
    (standing : Standing (node :: nodes) (block ++ tokens))
    (written : node.written? = some (Token.spell block))
    (sound : ∀ token ∈ block ++ tokens, token.Sound) :
    node.Covers block ∧ Standing nodes tokens := by
  rcases standing_cons_iff.mp standing with ⟨otherBlock, others, same, covers, more⟩
  have cut := node.cut_eq written (List.forall_mem_append.mp sound).1 tokens
  rw [same] at cut sound
  rw [node.cut_eq covers.written?_eq (List.forall_mem_append.mp sound).1 others] at cut
  rcases Prod.mk.inj cut with ⟨rfl, rfl⟩
  exact ⟨covers, more⟩

/-- Where declarations are changed, nothing else is disturbed: each token around them
stays what it is in front of the changed text, and no sign comes to stand behind a
semicolon that was not there. -/
def Undisturbed (options : PrintOptions) (lineEnd : Text) : List Node → List Token → Prop
  | [], _ => True
  | node :: nodes, tokens =>
    (if node.isChanged then
        [.punct ';'] <:+ (node.cut tokens).1 ∨
          ∀ token ∈ (meaningful (node.cut tokens).2).head?, token.isSign = false
      else
        AllStay (Token.spell (node.cut tokens).2) (redrawnText options lineEnd nodes)
          (node.cut tokens).1) ∧
      Undisturbed options lineEnd nodes (node.cut tokens).2

instance decidableUndisturbed (options : PrintOptions) (lineEnd : Text) :
    ∀ nodes tokens, Decidable (Undisturbed options lineEnd nodes tokens)
  | [], _ => .isTrue trivial
  | node :: nodes, tokens =>
    haveI := decidableUndisturbed options lineEnd nodes (node.cut tokens).2
    inferInstanceAs (Decidable ((ite _ _ _) ∧ _))

theorem undisturbed_cons_iff {options : PrintOptions} {lineEnd : Text} {node : Node}
    {nodes : List Node} {block tokens : List Token}
    (written : node.written? = some (Token.spell block)) (sound : ∀ token ∈ block, token.Sound) :
    Undisturbed options lineEnd (node :: nodes) (block ++ tokens) ↔
      (if node.isChanged then
          [.punct ';'] <:+ block ∨ ∀ token ∈ (meaningful tokens).head?, token.isSign = false
        else AllStay (Token.spell tokens) (redrawnText options lineEnd nodes) block) ∧
        Undisturbed options lineEnd nodes tokens := by
  rw [Undisturbed, node.cut_eq written sound]

/-- Attributes do not open markup.  Those of a declaration that is changed hold neither
comments nor script. -/
def Node.PlainAttributes (node : Node) : Prop :=
  ∀ parts ∈ node.parts?, ∀ text ∈ parts.attributes,
    '<' ∉ text ∧ (node.isChanged = true → '/' ∉ text ∧ '\x60' ∉ text)

instance (node : Node) : Decidable node.PlainAttributes :=
  inferInstanceAs (Decidable (∀ parts ∈ node.parts?, ∀ text ∈ parts.attributes, _))

/-! ## Changed declarations among the tokens -/

/-- A declaration begins with its word. -/
theorem Node.Declares.starts {behind block : List Token} {node : Node}
    (declares : node.Declares behind block) : StartsDeclaration block := by
  cases declares with
  | importing => exact .inl ⟨_, rfl⟩
  | exporting => exact .inr ⟨_, rfl⟩

/-- Tokens that stay with the brackets among them. -/
theorem Redrawn.keepAll {openers behind : List Char} {block tokens drawn : List Token}
    (tracked : trackAll? openers block = some behind)
    (stay : AllStay (Token.spell tokens) (Token.spell drawn) block)
    (more : Redrawn behind tokens drawn) : Redrawn openers (block ++ tokens) (block ++ drawn) := by
  induction block generalizing openers with
  | nil =>
      cases tracked
      exact more
  | cons token block inductionHypothesis =>
      rw [trackAll?_cons, Option.bind_eq_some_iff] at tracked
      rcases tracked with ⟨next, isNext, tracked⟩
      rw [List.cons_append, List.cons_append]
      refine .keep isNext ?_ (inductionHypothesis tracked stay.2)
      rw [Token.spell_append, Token.spell_append]
      exact stay.1

/-- Where attributes hold neither signs nor script, all of a declaration is plain. -/
theorem Parts.From.isPlain {parts : Parts} {block : List Token} (taken : parts.From block)
    (sound : ∀ token ∈ block, token.Sound)
    (plain : ∀ text ∈ parts.attributes, '<' ∉ text ∧ '/' ∉ text ∧ '\x60' ∉ text) :
    ∀ token ∈ block, token.isPlain = true := by
  intro token member
  have noSign := taken.noSign sound (fun text isText =>
    ⟨(plain text isText).1, (plain text isText).2.1⟩) token member
  refine Token.isPlain_iff.mpr ⟨noSign, fun isTemplate => ?_⟩
  rcases taken.plain token member (by simp [Token.isPlain, isTemplate]) with ⟨text, isText, inside⟩
  have isQuote := (sound token member).template isTemplate
  exact (plain text isText).2.2 (inside.subset (List.mem_of_mem_head? isQuote))

/-- A declaration without angle brackets in its attributes holds none. -/
theorem Parts.From.noMarkup {parts : Parts} {block : List Token} (taken : parts.From block)
    (noAngle : ∀ text ∈ parts.attributes, '<' ∉ text) :
    ∀ token ∈ block, token.isPunct '<' = false := by
  intro token member
  by_contra isAngle
  obtain rfl := Token.isPunct_iff.mp (by simpa using isAngle)
  rcases taken.plain _ member rfl with ⟨text, isText, inside⟩
  exact noAngle text isText (inside.subset (.head _))

/-- Tokens are drawn, and nodes that are written as some others stand for them. -/
structure DrawnAs (options : PrintOptions) (lineEnd : Text) (openers : List Char)
    (nodes : List Node) (tokens drawn : List Token) : Prop where
  redrawn : Redrawn openers tokens drawn
  standing : Standing (nodes.flatMap fun node => node.normalize.renewed options lineEnd) drawn

/-- A node that is not changed, in front of others. -/
theorem DrawnAs.standing_cons {options : PrintOptions} {lineEnd : Text} {openers : List Char}
    {node : Node} {nodes : List Node} {block tokens drawn : List Token}
    (others : DrawnAs options lineEnd openers nodes tokens drawn) (covers : node.Covers block)
    (unchanged : node.isChanged = false) :
    Standing ((node :: nodes).flatMap fun node => node.normalize.renewed options lineEnd)
      (block ++ drawn) := by
  rw [List.flatMap_cons, Node.renewed_of_unchanged (by simp [covers.written?_eq]) unchanged]
  exact .cons covers others.standing

/-- A node that is no declaration, in front of others. -/
theorem DrawnAs.keep {options : PrintOptions} {lineEnd : Text} {openers behind : List Char}
    {node : Node} {nodes : List Node} {block tokens drawn : List Token}
    (others : DrawnAs options lineEnd behind nodes tokens drawn) (covers : node.Covers block)
    (unchanged : node.isChanged = false) (tracked : trackAll? openers block = some behind)
    (stay : AllStay (Token.spell tokens) (redrawnText options lineEnd nodes) block) :
    DrawnAs options lineEnd openers (node :: nodes) (block ++ tokens) (block ++ drawn) := by
  rw [← others.standing.spell_eq_redrawnText] at stay
  exact ⟨others.redrawn.keepAll tracked stay, others.standing_cons covers unchanged⟩

/-- The rules change no white space and no comment by itself. -/
theorem Node.Covers.isChanged_of_trivia {node : Node} {token : Token} (covers : node.Covers [token])
    (isTrivia : token.isTrivia = true) : node.isChanged = false := by
  cases covers with
  | trivia | comment | code => rfl
  | importing solid | exporting solid =>
      rcases solid.starts with ⟨first, more, same, meaning⟩
      rcases List.cons.inj same with ⟨rfl, _⟩
      simp [isTrivia] at meaning

/-- White space or a comment, in front of others. -/
theorem DrawnAs.keepTrivia {options : PrintOptions} {lineEnd : Text} {openers : List Char}
    {node : Node} {nodes : List Node} {token : Token} {tokens drawn : List Token}
    (others : DrawnAs options lineEnd openers nodes tokens drawn) (isTrivia : token.isTrivia = true)
    (covers : node.Covers [token])
    (stay : AllStay (Token.spell tokens) (redrawnText options lineEnd nodes) [token]) :
    DrawnAs options lineEnd openers (node :: nodes) (token :: tokens) (token :: drawn) := by
  have noBracket : trackAll? openers [token] = some openers := by
    have notPunctuation : token.kind ≠ .punctuation := by
      intro isPunctuation
      simp [Token.isTrivia, isPunctuation] at isTrivia
    rw [trackAll?_cons, Token.track?_of_kind notPunctuation]
    rfl
  exact others.keep covers (covers.isChanged_of_trivia isTrivia) noBracket stay

/-- The comments that the rules leave in a declaration are tokens of it. -/
theorem Node.Declares.interior_subset {behind block : List Token} {node : Node}
    (declares : node.Declares behind block) : node.normalize.interior ⊆ commentsOf block := by
  rw [Node.interior_normalize, ← declares.covers.comments_eq]
  cases declares with
  | importing => exact List.filter_subset_self _
  | exporting => exact List.filter_subset_self _

section

variable {options : PrintOptions} {lineEnd : Text} {node : Node} {nodes : List Node}
  {block tokens drawn : List Token}

/-- A declaration that is not changed, in front of others. -/
theorem DrawnAs.leave (others : DrawnAs options lineEnd [] nodes tokens drawn)
    (declares : node.Declares (meaningful tokens) block) (attributes : node.PlainAttributes)
    (unchanged : node.isChanged = false)
    (stay : AllStay (Token.spell tokens) (redrawnText options lineEnd nodes) block) :
    DrawnAs options lineEnd [] (node :: nodes) (block ++ tokens) (block ++ drawn) := by
  rcases declares.parts_from with ⟨parts, isParts, taken⟩
  have noMarkup := taken.noMarkup fun text isText => (attributes parts isParts text isText).1
  rw [← others.standing.spell_eq_redrawnText] at stay
  exact ⟨.leave declares.starts noMarkup stay others.redrawn,
    others.standing_cons declares.covers unchanged⟩

/-- A declaration that is drawn anew, in front of others. -/
theorem DrawnAs.redraw (others : DrawnAs options lineEnd [] nodes tokens drawn)
    (declares : node.Declares (meaningful tokens) block) (sound : ∀ token ∈ block, token.Sound)
    (attributes : node.PlainAttributes) (changed : node.isChanged = true)
    (undisturbed : [.punct ';'] <:+ block ∨
      ∀ token ∈ (meaningful tokens).head?, token.isSign = false)
    {new : List Token} (renews : Renews (node.normalize.renewed options lineEnd) block new) :
    DrawnAs options lineEnd [] (node :: nodes) (block ++ tokens) (new ++ drawn) := by
  rcases declares.parts_from with ⟨parts, isParts, taken⟩
  have plain : ∀ token ∈ block, token.isPlain = true :=
    taken.isPlain sound fun text isText =>
      ⟨(attributes parts isParts text isText).1, (attributes parts isParts text isText).2 changed⟩
  refine ⟨.redraw declares.starts plain (renews.free _ _) renews.head renews.ends undisturbed
    others.redrawn, ?_⟩
  rw [List.flatMap_cons]
  exact renews.standing.append others.standing

end

section

variable {options : PrintOptions} {lineEnd : Text} (isEnd : IsLineEnd lineEnd)
  (isQuote : options.quote = '"' ∨ options.quote = '\'')

include isEnd isQuote

/-- A declaration that the rules change is drawn in place of the tokens that it was read
from. -/
theorem Node.Declares.exists_renews {behind block : List Token} {node : Node}
    (declares : node.Declares behind block) (changed : node.isChanged = true)
    (sound : ∀ token ∈ block, token.Sound) {parts : Parts} (isParts : node.parts? = some parts)
    (taken : parts.From block) (noSlash : ∀ text ∈ parts.attributes, '/' ∉ text) :
    ∃ drawn, Renews (node.normalize.renewed options lineEnd) block drawn := by
  have lexemes : ∀ token ∈ block, token.kind = .identifier ∨ token.isComment = true →
      IsLexeme token :=
    fun token member => (sound token member).lexeme
  have comments := declares.interior_subset
  rw [← Node.parts?_normalize] at isParts
  have written := Option.isNone_iff_eq_none.mp changed
  cases declares with
  | importing =>
      cases isParts
      exact ImportDeclaration.exists_renews isEnd isQuote lexemes written taken noSlash comments
  | exporting =>
      cases isParts
      exact ExportDeclaration.exists_renews isEnd isQuote lexemes written taken noSlash comments

/-- A declaration in front of others. -/
theorem DrawnAs.exists_declaration {node : Node} {nodes : List Node}
    {block tokens drawn : List Token} (others : DrawnAs options lineEnd [] nodes tokens drawn)
    (declares : node.Declares (meaningful tokens) block) (sound : ∀ token ∈ block, token.Sound)
    (attributes : node.PlainAttributes)
    (undisturbed : if node.isChanged then
        [.punct ';'] <:+ block ∨ ∀ token ∈ (meaningful tokens).head?, token.isSign = false
      else AllStay (Token.spell tokens) (redrawnText options lineEnd nodes) block) :
    ∃ drawn, DrawnAs options lineEnd [] (node :: nodes) (block ++ tokens) drawn := by
  cases changed : node.isChanged with
  | false =>
      rw [changed, if_neg Bool.false_ne_true] at undisturbed
      exact ⟨_, others.leave declares attributes changed undisturbed⟩
  | true =>
      rw [changed, if_pos rfl] at undisturbed
      rcases declares.parts_from with ⟨parts, isParts, taken⟩
      rcases declares.exists_renews isEnd isQuote changed sound isParts taken
        (fun text isText => ((attributes parts isParts text isText).2 changed).1) with ⟨new, renews⟩
      exact ⟨_, others.redraw declares sound attributes changed undisturbed renews⟩

/-- Where nothing is disturbed, changed declarations are drawn anew among the tokens of a
document. -/
theorem Outlined.exists_drawnAs {openers : List Char} {nodes : List Node} {tokens : List Token}
    (outlined : Outlined openers nodes tokens) (standing : Standing nodes tokens)
    (sound : ∀ token ∈ tokens, token.Sound) (attributes : ∀ node ∈ nodes, node.PlainAttributes)
    (undisturbed : Undisturbed options lineEnd nodes tokens) :
    ∃ drawn, DrawnAs options lineEnd openers nodes tokens drawn := by
  induction outlined with
  | nil => exact ⟨[], .nil, .nil⟩
  | @trivia openers node nodes token tokens isTrivia covers more inductionHypothesis =>
      rw [← List.singleton_append (x := token)] at standing sound undisturbed ⊢
      rcases List.forall_mem_append.mp sound with ⟨ofToken, ofTokens⟩
      rcases (undisturbed_cons_iff covers.written?_eq ofToken).mp undisturbed with ⟨stay, behind⟩
      rw [covers.isChanged_of_trivia isTrivia, if_neg Bool.false_ne_true] at stay
      rcases inductionHypothesis (standing.of_written covers.written?_eq sound).2 ofTokens
        (List.forall_mem_cons.mp attributes).2 behind with ⟨drawn, others⟩
      exact ⟨_, others.keepTrivia isTrivia covers stay⟩
  | @code openers behind nodes block tokens tracked more inductionHypothesis =>
      rcases List.forall_mem_append.mp sound with ⟨ofBlock, ofTokens⟩
      rcases standing.of_written rfl sound with ⟨covers, standing⟩
      rcases (undisturbed_cons_iff covers.written?_eq ofBlock).mp undisturbed with ⟨stay, behind⟩
      rcases inductionHypothesis standing ofTokens (List.forall_mem_cons.mp attributes).2 behind
        with ⟨drawn, others⟩
      exact ⟨_, others.keep covers rfl tracked stay⟩
  | @declaration node nodes block tokens declares more inductionHypothesis =>
      rcases List.forall_mem_append.mp sound with ⟨ofBlock, ofTokens⟩
      have written := declares.covers.written?_eq
      rcases (undisturbed_cons_iff written ofBlock).mp undisturbed with ⟨undisturbed, behind⟩
      rcases List.forall_mem_cons.mp attributes with ⟨ofNode, ofNodes⟩
      rcases inductionHypothesis (standing.of_written written sound).2 ofTokens ofNodes behind
        with ⟨drawn, others⟩
      exact others.exists_declaration isEnd isQuote declares ofBlock ofNode undisturbed

end

end Deflow
