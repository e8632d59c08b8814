import Deflow.Proofs.Rule.Effect
import Deflow.Proofs.Script.Neighbours

/-!
# What removing comments leaves alone

Node by node, this file says what becomes of a document from which comments are
removed.  A comment that is dropped goes, a declaration loses the comments inside
it, and all other nodes but white space stay as they are.  White space may lose
characters at both ends, and all of them, but only at the very beginning and next
to a comment that goes.
-/

namespace Deflow

open Script Spaced

/-! ## The relation -/

/-- What is left of a node that is no white space. -/
def Node.without (drop : Comment → Bool) : Node → Option Node
  | .comment own => if drop own then none else some (.comment own)
  | .importing declaration => some <| .importing
    { declaration with
      comments := declaration.comments.filter (!drop ·)
      written := if declaration.comments.any drop then none else declaration.written }
  | .exporting declaration => some <| .exporting
    { declaration with
      comments := declaration.comments.filter (!drop ·)
      written := if declaration.comments.any drop then none else declaration.written }
  | node => some node

/-- Whether white space behind `previous` and in front of `nodes` begins the document or
stands next to a comment that goes. -/
def AtEdge (drop : Comment → Bool) (previous : Option Node) (nodes : List Node) : Prop :=
  previous.all (Node.isDropped drop) = true ∨ nodes.head?.any (Node.isDropped drop) = true

/-- What is left of nodes behind `previous`, node by node.  White space is left as a part
of itself, and whole unless it is at an edge. -/
inductive Cleared (drop : Comment → Bool) : Option Node → List Node → List Node → Prop
  | nil {previous : Option Node} : Cleared drop previous [] []
  | dropped {previous : Option Node} {own : Comment} {nodes left : List Node}
      (goes : drop own = true) (more : Cleared drop (some (.comment own)) nodes left) :
      Cleared drop previous (.comment own :: nodes) left
  | kept {previous : Option Node} {node rest : Node} {nodes left : List Node}
      (solid : node.isTrivia = false) (isRest : node.without drop = some rest)
      (more : Cleared drop (some node) nodes left) :
      Cleared drop previous (node :: nodes) (rest :: left)
  | trivia {previous : Option Node} {text part : Text} {nodes left : List Node}
      (isPart : part <:+: text) (whole : ¬AtEdge drop previous nodes → part = text)
      (more : Cleared drop (some (.trivia text)) nodes left) :
      Cleared drop previous (.trivia text :: nodes) (consWhite part left)

theorem Node.without_eq {drop : Comment → Bool} {node : Node} :
    node.without drop = if node.isDropped drop then none else some (node.dropInterior drop) := by
  cases node with
  | importing declaration =>
      simp [without, isDropped, dropInterior, ImportDeclaration.dropComments_eq]
  | exporting declaration =>
      simp [without, isDropped, dropInterior, ExportDeclaration.dropComments_eq]
  | _ => rfl

/-- What is left of a node is white space only if the node was. -/
theorem Node.isTrivia_of_without {drop : Comment → Bool} {node rest : Node}
    (isRest : node.without drop = some rest) : rest.isTrivia = node.isTrivia := by
  rw [without_eq] at isRest
  split at isRest
  · cases isRest
  · cases isRest
    cases node <;> rfl

/-- Of the nodes that are no white space, all are left that do not go, in order. -/
theorem Cleared.filter_eq {drop : Comment → Bool} {previous : Option Node} {nodes left : List Node}
    (cleared : Cleared drop previous nodes left) :
    left.filter (!·.isTrivia) = (nodes.filter (!·.isTrivia)).filterMap (Node.without drop) := by
  induction cleared with
  | nil => rfl
  | dropped goes more inductionHypothesis =>
      rw [inductionHypothesis, List.filter_cons_of_pos (by rfl), List.filterMap_cons_none]
      simp [Node.without, goes]
  | kept solid isRest more inductionHypothesis =>
      rw [List.filter_cons_of_pos (by simp [Node.isTrivia_of_without isRest, solid]),
        List.filter_cons_of_pos (by simp [solid]), List.filterMap_cons_some isRest,
        inductionHypothesis]
  | @trivia _ text part nodes left isPart whole more inductionHypothesis =>
      rw [List.filter_cons_of_neg (by simp [Node.isTrivia]), ← inductionHypothesis]
      unfold consWhite
      split
      · rfl
      · exact List.filter_cons_of_neg (by simp [white, Node.isTrivia])

/-! ## Trimming the first white space -/

/-- No white space stands in front of white space. -/
def Apart (nodes : List Node) : Prop :=
  nodes.IsChain fun first second => first.isTrivia = true → second.isTrivia = false

/-- White space that comes first may lose more, if nothing stands before it but the
beginning or a comment that goes. -/
theorem Cleared.trim {drop : Comment → Bool} {previous : Option Node} {nodes left : List Node}
    {text : Text} (cleared : Cleared drop previous nodes (.trivia text :: left))
    (apart : Apart nodes)
    (edge : previous.all (Node.isDropped drop) = true ∨ ∀ node ∈ nodes.head?, node.isTrivia = false)
    {part : Text} (isPart : part <:+: text) :
    Cleared drop previous nodes (consWhite part left) := by
  generalize isAll : Node.trivia text :: left = all at cleared
  induction cleared with
  | nil => cases isAll
  | dropped goes more inductionHypothesis =>
      exact .dropped goes (inductionHypothesis (List.isChain_cons.mp apart).2 (.inl goes) isAll)
  | kept solid isRest more =>
      cases isAll
      rw [← Node.isTrivia_of_without isRest] at solid
      cases solid
  | @trivia _ whole others nodes behind alsoPart unchanged more inductionHypothesis =>
      have atEdge := edge.resolve_right (by simp [Node.isTrivia])
      obtain ⟨next, alsoApart⟩ := List.isChain_cons.mp apart
      unfold consWhite at isAll
      split at isAll
      · -- All of this white space went, and the next node is none.
        rename_i empty
        have trimmed :=
          inductionHypothesis alsoApart (.inr fun node isNext => next node isNext rfl) isAll
        subst empty
        exact @Cleared.trivia drop _ whole [] nodes _ alsoPart unchanged trimmed
      · cases isAll
        exact .trivia (isPart.trans alsoPart) (fun inside => absurd (.inl atEdge) inside) more

/-- The node in front of what stands behind white space. -/
def behindWhite (previous : Option Node) (space : Text) : Option Node :=
  if space = [] then previous else some (.trivia space)

/-- White space in front of nodes, of which a part is left. -/
theorem Cleared.consWhite {drop : Comment → Bool} {previous : Option Node} {nodes left : List Node}
    {space part : Text} (isPart : part <:+: space)
    (whole : ¬AtEdge drop previous nodes → part = space)
    (more : Cleared drop (behindWhite previous space) nodes left) :
    Cleared drop previous (Deflow.consWhite space nodes) (Deflow.consWhite part left) := by
  by_cases empty : space = []
  · subst empty
    obtain rfl := List.infix_nil.mp isPart
    exact more
  · rw [behindWhite, if_neg empty] at more
    rw [Deflow.consWhite, if_neg empty]
    exact .trivia isPart whole more

/-! ## The pass -/

theorem dropLastLine_isPrefix (text : Text) : dropLastLine text <+: text := by
  have behind := List.reverse_prefix.mpr (List.dropWhile_suffix (· != '\n') (l := text.reverse))
  rwa [List.reverse_reverse] at behind

theorem dropLineEnd_isSuffix (text : Text) : dropLineEnd text <:+ text := by
  unfold dropLineEnd
  split
  · exact (List.suffix_cons ..).trans (List.suffix_cons ..)
  · exact List.suffix_cons ..
  · exact List.suffix_refl _

/-- A blank line in front goes behind a comment that goes. -/
theorem Cleared.dropBlankLine {drop : Comment → Bool} {previous : Option Node}
    {nodes left : List Node} (cleared : Cleared drop previous nodes left) (apart : Apart nodes)
    (edge : previous.all (Node.isDropped drop) = true) :
    Cleared drop previous nodes (Deflow.dropBlankLine left) := by
  cases left with
  | nil => exact cleared
  | cons first rest =>
      simp only [Deflow.dropBlankLine]
      split
      · exact cleared
      · rename_i text isWhite
        obtain rfl := white?_eq_some_iff.mp isWhite
        refine cleared.trim apart (.inl edge) ?_
        exact ((dropLineEnd_isSuffix _).trans (List.dropWhile_suffix _)).isInfix

/-- The pass clears nodes as the relation says. -/
theorem cleared_strip (drop : Comment → Bool) {nodes : List Node} (filled : Filled nodes)
    (apart : Apart nodes) (previous : Option Node) (atStart : Bool) (space : Text) :
    Cleared drop previous (consWhite space nodes)
      (strip (Node.isDropped drop) atStart space (nodes.map (Node.dropInterior drop))) := by
  induction nodes generalizing previous atStart space with
  | nil => exact .consWhite (List.infix_refl _) (fun _ => rfl) .nil
  | cons node nodes inductionHypothesis =>
      obtain ⟨ofNode, ofNodes⟩ := List.forall_mem_cons.mp filled
      have alsoApart := (List.isChain_cons.mp apart).2
      have behind := inductionHypothesis ofNodes alsoApart
      rw [List.map_cons, strip, Node.isDropped_dropInterior]
      split
      · rename_i goes
        have atEdge : AtEdge drop previous (node :: nodes) := .inr goes
        cases node with
        | comment own =>
            have cleared := behind (some (.comment own)) false []
            unfold closeUp
            split
            · exact .consWhite (dropLastLine_isPrefix space).isInfix (absurd atEdge)
                (.dropped goes (cleared.dropBlankLine alsoApart goes))
            · refine .consWhite ?_ (absurd atEdge) (.dropped goes cleared)
              split
              · exact List.infix_refl _
              · exact List.nil_infix
        | _ => cases goes
      · rename_i stays
        cases isTrivia : node.isTrivia with
        | true =>
            cases node with
            | trivia text =>
                have nonempty : text ≠ [] := by
                  rintro rfl
                  exact ofNode rfl
                have held := behind (behindWhite previous space) (atStart && space.isEmpty) text
                rw [Deflow.consWhite, if_neg nonempty] at held
                exact .consWhite (List.infix_refl _) (fun _ => rfl) held
            | _ => cases isTrivia
        | false =>
            have isRest : node.without drop = some (node.dropInterior drop) := by
              rw [Node.without_eq, if_neg stays]
            have notWhite : white? (node.dropInterior drop) = none := by
              cases node <;> first | rfl | cases isTrivia
            simp only [notWhite]
            exact .consWhite (List.infix_refl _) (fun _ => rfl)
              (.kept isTrivia isRest (behind (some node) false []))

/-- Also where the beginning is cleared. -/
theorem cleared_stripAll (drop : Comment → Bool) {nodes : List Node} (filled : Filled nodes)
    (apart : Apart nodes) :
    Cleared drop none nodes
      (stripAll (Node.isDropped drop) (nodes.map (Node.dropInterior drop))) := by
  have cleared := cleared_strip drop filled apart none true []
  rcases stripAll_cases (Node.isDropped drop) (nodes.map (Node.dropInterior drop)) with
    same | ⟨text, _, _, same⟩
  · rwa [same]
  · rw [same] at cleared
    exact cleared.trim apart (.inl rfl) List.nil_infix

/-! ## Documents that were read -/

/-- White space of a document stands apart as its tokens do. -/
theorem Standing.apart {nodes : List Node} {tokens : List Token} (standing : Standing nodes tokens)
    (adjoins : tokens.IsChain Token.Adjoins) : Apart nodes := by
  induction standing with
  | nil => exact .nil
  | @cons node nodes block tokens covers more inductionHypothesis =>
      obtain ⟨_, ofTokens, joint⟩ := List.isChain_append.mp adjoins
      refine List.isChain_cons.mpr
        ⟨fun second isSecond isTrivia => ?_, inductionHypothesis ofTokens⟩
      obtain ⟨others, rfl⟩ := List.head?_eq_some_iff.mp isSecond
      obtain ⟨token, behind, rfl, sameWhite, _⟩ := more.first
      cases covers with
      | trivia =>
          have notWhite := (joint _ rfl token rfl).spaces rfl
          rw [isTrivia_eq, sameWhite]
          obtain ⟨kind, text⟩ := token
          cases kind <;> first | rfl | exact absurd rfl notWhite
      | _ => cases isTrivia

/-- Removing comments from a document that was read counts the comments that are
dropped and leaves none of them.  All that is no white space stays in order, except for
those comments, and a declaration is written afresh exactly if it lost one.  White space
is left as a part of itself, and whole unless it comes first or a comment went next to
it. -/
theorem frame_of_removeComments {source : Text} {document : Document}
    (parsed : Document.parse source = .ok document) (drop : Comment → Bool) :
    document.countComments drop = document.comments.countP drop ∧
      (∀ comment ∈ (document.removeComments drop).comments, drop comment = false) ∧
      (document.removeComments drop).nodes.filter (!·.isTrivia) =
        (document.nodes.filter (!·.isTrivia)).filterMap (Node.without drop) ∧
      Cleared drop none document.nodes (document.removeComments drop).nodes := by
  obtain ⟨tokens, scanned, standing⟩ := standing_of_parse parsed
  have filled := standing.filled (filled_of_tokenize scanned)
  have apart := standing.apart (tokenize_eq_ok_iff.mp scanned).adjoins
  have cleared := cleared_stripAll drop filled apart
  rw [← nodes_removeComments filled] at cleared
  refine ⟨document.countComments_eq drop, ?_, cleared.filter_eq, cleared⟩
  rw [comments_removeComments drop filled]
  simp

/-- Pragmas on a line, in a line and inside an `import`.  The white space before `b`
stands next to none of them. -/
theorem frame_of_removeComments_module :
    let source :=
      " // @flow\nimport a /* $FlowIssue */ from 'x'\n  b; /* c */ /* $FlowFixMe */\n".toList
    ∃ document, Document.parse source = .ok document ∧
      document.countComments Comment.isPragma = 3 ∧
      (document.removeComments Comment.isPragma).nodes =
        [.importing { defaultName := some ['a'], source := ⟨'\'', ['x']⟩ }, .trivia "\n  ".toList,
          .code "b;".toList, .trivia [' '], .comment ⟨.block, "/* c */".toList⟩, .trivia ['\n']] ∧
      (∀ comment ∈ (document.removeComments Comment.isPragma).comments, comment.isPragma = false) ∧
      Cleared Comment.isPragma none document.nodes
        (document.removeComments Comment.isPragma).nodes := by
  intro source
  have parsed :
      Document.parse source =
        .ok
          { nodes :=
              [.trivia [' '], .comment ⟨.line, "// @flow".toList⟩, .trivia ['\n'],
                .importing
                  { defaultName := some ['a']
                    source := ⟨'\'', ['x']⟩
                    comments := [⟨.block, "/* $FlowIssue */".toList⟩]
                    written := some "import a /* $FlowIssue */ from 'x'".toList },
                .trivia "\n  ".toList, .code "b;".toList, .trivia [' '],
                .comment ⟨.block, "/* c */".toList⟩, .trivia [' '],
                .comment ⟨.block, "/* $FlowFixMe */".toList⟩, .trivia ['\n']] } := by
    decide +kernel
  obtain ⟨count, none, _, cleared⟩ := frame_of_removeComments parsed Comment.isPragma
  refine ⟨_, parsed, count.trans ?_, ?_, none, cleared⟩
  all_goals decide +kernel

end Deflow
