import Deflow.Proofs.Document.Outline

/-!
# Where declarations stand

A document keeps the text that each of its nodes was read from, so that its declarations
have places in the source text.  This file finds them, and the tokens of the source text
that lie outside all declarations.
-/

namespace Deflow

open Script

/-! ## Extents -/

/-- Whether a node is a declaration. -/
def Node.isDeclaration : Node → Bool
  | .importing _ | .exporting _ => true
  | _ => false

/-- The number of bytes that a node was read from. -/
def Node.byteLength (node : Node) : Nat :=
  (node.written?.getD []).byteLength

/-- A declaration with the byte offsets at which it starts and ends. -/
structure Extent where
  node : Node
  start : Nat
  finish : Nat
deriving DecidableEq, Repr

/-- Whether the byte at an offset belongs to the declaration. -/
def Extent.holds (extent : Extent) (offset : Nat) : Bool :=
  extent.start ≤ offset && offset < extent.finish

/-- The extents of the declarations among nodes, the first of which starts at `offset`. -/
def extents (offset : Nat) : List Node → List Extent
  | [] => []
  | node :: nodes =>
    let finish := offset + node.byteLength
    if node.isDeclaration then ⟨node, offset, finish⟩ :: extents finish nodes
    else extents finish nodes

/-- The extents of the declarations of a document. -/
def Document.extents (document : Document) : List Extent :=
  Deflow.extents 0 document.nodes

/-- The tokens outside all extents, where the first token starts at `offset`. -/
def outside (extents : List Extent) (offset : Nat) (tokens : List Token) : List Token :=
  ((Token.spans offset tokens).filter fun span => !extents.any (·.holds span.2.1)).map Prod.fst

section

variable {offset : Nat} {node : Node} {nodes : List Node}

theorem extents_cons_of_false (isDeclaration : node.isDeclaration = false) :
    extents offset (node :: nodes) = extents (offset + node.byteLength) nodes := by
  rw [extents, if_neg (by simp [isDeclaration])]

theorem extents_cons_of_true (isDeclaration : node.isDeclaration = true) :
    extents offset (node :: nodes) =
      ⟨node, offset, offset + node.byteLength⟩ :: extents (offset + node.byteLength) nodes := by
  rw [extents, if_pos isDeclaration]

theorem Node.Covers.byteLength_eq {block : List Token} (covers : node.Covers block) :
    node.byteLength = (Token.spell block).byteLength := by
  rw [Node.byteLength, covers.written?_eq, Option.getD_some]

theorem Node.Covers.noDeclaration_of_trivia {token : Token} (covers : node.Covers [token])
    (isTrivia : token.isTrivia = true) : node.isDeclaration = false := by
  cases covers with
  | trivia | comment | code => rfl
  | importing solid | exporting solid =>
      rcases solid.starts with ⟨first, others, same, meaning⟩
      cases same
      simp [isTrivia] at meaning

/-- A token that was passed moves what follows it. -/
theorem extents_of_passed {token : Token} (covers : node.Covers [token])
    (noDeclaration : node.isDeclaration = false) (front : List Token) (nodes : List Node) :
    extents (Token.spell front).byteLength (node :: nodes) =
      extents (Token.spell (front ++ [token])).byteLength nodes := by
  rw [extents_cons_of_false noDeclaration, covers.byteLength_eq, Token.spell_append,
    Text.byteLength_append]

/-- A declaration extends over its tokens. -/
theorem extents_of_declaration {block : List Token} (covers : node.Covers block)
    (isDeclaration : node.isDeclaration = true) (front : List Token) (nodes : List Node) :
    extents (Token.spell front).byteLength (node :: nodes) =
      ⟨node, (Token.spell front).byteLength, (Token.spell (front ++ block)).byteLength⟩ ::
        extents (Token.spell (front ++ block)).byteLength nodes := by
  rw [extents_cons_of_true isDeclaration, covers.byteLength_eq, Token.spell_append,
    Text.byteLength_append]

theorem Node.Declares.isDeclaration {behind block : List Token}
    (declares : node.Declares behind block) : node.isDeclaration = true := by
  cases declares with
  | importing | exporting => rfl

theorem offset_le_of_mem_extents {extent : Extent} (member : extent ∈ extents offset nodes) :
    offset ≤ extent.start := by
  induction nodes generalizing offset with
  | nil => cases member
  | cons node nodes inductionHypothesis =>
      have further : offset ≤ offset + node.byteLength := Nat.le_add_right ..
      cases isDeclaration : node.isDeclaration with
      | false =>
          rw [extents_cons_of_false isDeclaration] at member
          exact Nat.le_trans further (inductionHypothesis member)
      | true =>
          rw [extents_cons_of_true isDeclaration] at member
          rcases List.mem_cons.mp member with rfl | later
          · exact Nat.le_refl _
          · exact Nat.le_trans further (inductionHypothesis later)

/-- No declaration begins inside another. -/
theorem not_inside_of_mem_extents {extent other : Extent} (member : extent ∈ extents offset nodes)
    (otherMember : other ∈ extents offset nodes) :
    ¬(other.start < extent.start ∧ extent.start < other.finish) := by
  induction nodes generalizing offset with
  | nil => cases member
  | cons node nodes inductionHypothesis =>
      cases isDeclaration : node.isDeclaration with
      | false =>
          rw [extents_cons_of_false isDeclaration] at member otherMember
          exact inductionHypothesis member otherMember
      | true =>
          have notBefore := offset_le_of_mem_extents otherMember
          rw [extents_cons_of_true isDeclaration] at member otherMember
          rintro ⟨starts, ends⟩
          rcases List.mem_cons.mp member with rfl | later
          · exact Nat.not_lt.mpr notBefore starts
          · rcases List.mem_cons.mp otherMember with rfl | otherLater
            · exact Nat.not_lt.mpr (offset_le_of_mem_extents later) ends
            · exact inductionHypothesis later otherLater ⟨starts, ends⟩

/-- All declarations have extents, in their order. -/
theorem map_node_extents (offset : Nat) (nodes : List Node) :
    (extents offset nodes).map Extent.node = nodes.filter Node.isDeclaration := by
  induction nodes generalizing offset with
  | nil => rfl
  | cons node nodes inductionHypothesis =>
      cases isDeclaration : node.isDeclaration with
      | false =>
          rw [extents_cons_of_false isDeclaration, inductionHypothesis,
            List.filter_cons_of_neg (by simp [isDeclaration])]
      | true =>
          rw [extents_cons_of_true isDeclaration, List.map_cons, inductionHypothesis,
            List.filter_cons_of_pos isDeclaration]

/-- The tokens between the start and the end of an extent are those of its declaration. -/
theorem Outlined.declares_of_extent {openers : List Char} {tokens : List Token}
    (outlined : Outlined openers nodes tokens) {extent : Extent}
    (member : extent ∈ extents offset nodes) :
    ∃ front block behind, tokens = front ++ (block ++ behind) ∧
      extent.start = offset + (Token.spell front).byteLength ∧
      extent.finish = extent.start + (Token.spell block).byteLength ∧
      extent.node.Declares (meaningful behind) block := by
  induction outlined generalizing offset with
  | nil => cases member
  | @trivia _ node _ token _ isTrivia covers more inductionHypothesis =>
      rw [extents_cons_of_false (covers.noDeclaration_of_trivia isTrivia),
        covers.byteLength_eq] at member
      rcases inductionHypothesis member with ⟨front, block, behind, rfl, starts, rest⟩
      exact ⟨token :: front, block, behind, rfl, by simpa [Nat.add_assoc] using starts, rest⟩
  | @code _ _ _ passed _ tracked more inductionHypothesis =>
      rw [extents_cons_of_false rfl] at member
      rcases inductionHypothesis member with ⟨front, block, behind, rfl, starts, rest⟩
      exact ⟨passed ++ front, block, behind, by simp, by
        simpa [Nat.add_assoc, Node.byteLength, Node.written?] using starts, rest⟩
  | @declaration node _ passed tokens declares more inductionHypothesis =>
      have length := declares.covers.byteLength_eq
      rw [extents_cons_of_true declares.isDeclaration] at member
      rcases List.mem_cons.mp member with rfl | later
      · exact ⟨[], passed, tokens, rfl, rfl, by rw [length], declares⟩
      · rw [length] at later
        rcases inductionHypothesis later with ⟨front, block, behind, rfl, starts, rest⟩
        exact ⟨passed ++ front, block, behind, by simp, by simpa [Nat.add_assoc] using starts, rest⟩

/-- Joining code moves no declaration. -/
theorem extents_joinCode (offset : Nat) (nodes : List Node) :
    extents offset (Node.joinCode nodes) = extents offset nodes := by
  induction nodes generalizing offset with
  | nil => rfl
  | cons node nodes inductionHypothesis =>
      have ofPrepend (nodes : List Node) :
          extents offset (node.prepend nodes) = extents offset (node :: nodes) := by
        unfold Node.prepend
        split
        all_goals simp [extents, Node.isDeclaration, Node.byteLength, Node.written?, Nat.add_assoc]
      rw [Node.joinCode, List.foldr_cons, ← Node.joinCode, ofPrepend]
      simp only [extents, inductionHypothesis]

end

/-! ## Tokens outside -/

section

variable {offset : Nat} {extent : Extent} {later : List Extent}

theorem outside_cons (extents : List Extent) (offset : Nat) (token : Token) (tokens : List Token) :
    outside extents offset (token :: tokens) =
      if extents.any (·.holds offset) then outside extents (offset + token.text.byteLength) tokens
      else token :: outside extents (offset + token.text.byteLength) tokens := by
  simp only [outside, Token.spans, List.filter_cons]
  split <;> simp_all

/-- A token in front of all extents is outside. -/
theorem outside_cons_of_before {extents : List Extent}
    (before : ∀ extent ∈ extents, offset < extent.start) (token : Token) (tokens : List Token) :
    outside extents offset (token :: tokens) =
      token :: outside extents (offset + token.text.byteLength) tokens := by
  rw [outside_cons, if_neg]
  intro held
  rcases List.any_eq_true.mp held with ⟨extent, member, holds⟩
  have behind := before extent member
  simp only [Extent.holds, Bool.and_eq_true, decide_eq_true_eq] at holds
  omega

/-- An extent plays no part behind its end. -/
theorem outside_of_behind (behind : extent.finish ≤ offset) (tokens : List Token) :
    outside (extent :: later) offset tokens = outside later offset tokens := by
  induction tokens generalizing offset with
  | nil => rfl
  | cons token tokens inductionHypothesis =>
      have notHeld : extent.holds offset = false := by
        simp only [Extent.holds, Bool.and_eq_false_iff, decide_eq_false_iff_not]
        omega
      rw [outside_cons, outside_cons, List.any_cons, notHeld, Bool.false_or,
        inductionHypothesis (Nat.le_trans behind (Nat.le_add_right ..))]

/-- The tokens of a declaration are not outside. -/
theorem outside_of_extent {block : List Token} (starts : extent.start ≤ offset)
    (ends : extent.finish = offset + (Token.spell block).byteLength)
    (filled : ∀ token ∈ block, token.text ≠ []) (tokens : List Token) :
    outside (extent :: later) offset (block ++ tokens) = outside later extent.finish tokens := by
  induction block generalizing offset with
  | nil =>
      have atEnd : extent.finish = offset := by simpa using ends
      rw [List.nil_append, atEnd]
      exact outside_of_behind (Nat.le_of_eq atEnd) tokens
  | cons token block inductionHypothesis =>
      rcases List.forall_mem_cons.mp filled with ⟨first, others⟩
      have positive := byteLength_pos first
      rw [Token.spell_cons, Text.byteLength_append] at ends
      have held : extent.holds offset = true := by
        simp only [Extent.holds, Bool.and_eq_true, decide_eq_true_eq]
        omega
      rw [List.cons_append, outside_cons, List.any_cons, held, Bool.true_or, if_pos rfl]
      exact inductionHypothesis (by omega) (by omega) others

end

end Deflow
