import Deflow.Proofs.Document.Clearing

/-!
# Documents in normal form

The nodes of a document that was read are as few as they can be: none of them is empty,
white space never stands next to white space, and code never next to code or with only
white space in between.  The former two follow from the tokens, because white space is
never cut in two.  The latter is what joining code is for: it is kept each time that a
node is put in front.
-/

namespace Deflow

open Script

/-- Nodes of which none is empty and no two could be one. -/
structure NormalForm (nodes : List Node) : Prop where
  noEmptyTrivia : .trivia [] ∉ nodes
  noEmptyCode : .code [] ∉ nodes
  triviaApart : ∀ first second, ¬[.trivia first, .trivia second] <:+: nodes
  codeApart : ∀ first second, ¬[.code first, .code second] <:+: nodes
  codeJoined : ∀ first space second, ¬[.code first, .trivia space, .code second] <:+: nodes

/-! ## Joined code -/

/-- Whether code would be joined to what comes next. -/
def meetsCode : List Node → Bool
  | .code _ :: _ | .trivia _ :: .code _ :: _ => true
  | _ => false

/-- No code among the nodes could be joined to what comes next. -/
inductive Joined : List Node → Prop
  | nil : Joined []
  | code {text : Text} {nodes : List Node} (apart : meetsCode nodes = false)
      (more : Joined nodes) : Joined (.code text :: nodes)
  | other {node : Node} {nodes : List Node} (noCode : ∀ text, node ≠ .code text)
      (more : Joined nodes) : Joined (node :: nodes)

namespace Joined

variable {node : Node} {nodes : List Node} {text : Text}

theorem tail (joined : Joined (node :: nodes)) : Joined nodes := by
  cases joined with
  | code apart more => exact more
  | other noCode more => exact more

theorem meetsCode_eq (joined : Joined (.code text :: nodes)) : meetsCode nodes = false := by
  cases joined with
  | code apart more => exact apart
  | other noCode more => exact absurd rfl (noCode text)

/-- What the code in front says does not matter. -/
theorem retext (joined : Joined (.code text :: nodes)) (other : Text) :
    Joined (.code other :: nodes) :=
  .code joined.meetsCode_eq joined.tail

/-- Putting a node in front leaves no code that could be joined. -/
theorem prepend (joined : Joined nodes) (node : Node) : Joined (node.prepend nodes) := by
  unfold Node.prepend
  split
  · exact joined.retext _
  · exact joined.tail.retext _
  · rename_i notBeside notBehind
    cases node with
    | code text =>
        refine .code ?_ joined
        unfold meetsCode
        split
        · exact absurd rfl (notBeside _ _ _ rfl)
        · exact absurd rfl (notBehind _ _ _ _ rfl)
        · rfl
    | trivia | comment | importing | exporting => exact .other (by simp) joined

theorem joinCode (nodes : List Node) : Joined (Node.joinCode nodes) := by
  induction nodes with
  | nil => exact .nil
  | cons node nodes inductionHypothesis => exact inductionHypothesis.prepend node

theorem of_append {front : List Node} (joined : Joined (front ++ nodes)) : Joined nodes := by
  induction front with
  | nil => exact joined
  | cons node front inductionHypothesis => exact inductionHypothesis joined.tail

/-- Code does not stand in front of what it would be joined to. -/
theorem not_in_front {next : List Node} (joined : Joined nodes)
    (meets : ∀ back, meetsCode (next ++ back) = true) : ¬.code text :: next <:+: nodes := by
  rintro ⟨front, back, rfl⟩
  rw [List.append_assoc, List.cons_append] at joined
  have apart := joined.of_append.meetsCode_eq
  simp [meets back] at apart

end Joined

/-- The nodes of a document are joined ones. -/
theorem joined_of_ofTokens {tokens : List Token} {document : Document}
    (built : Document.ofTokens tokens = .ok document) : Joined document.nodes := by
  simp only [Document.ofTokens, bind, Except.bind, pure, Except.pure] at built
  split at built
  · contradiction
  · split at built
    · cases built
      exact .joinCode _
    · cases built

/-! ## White space and empty nodes -/

/-- Code and white space that stand for tokens with some text have some text. -/
theorem Node.Covers.text_ne_nil {node : Node} {block : List Token} (covers : node.Covers block)
    (filled : ∀ token ∈ block, token.text ≠ []) : node ≠ .trivia [] ∧ node ≠ .code [] := by
  constructor
  · rintro rfl
    obtain rfl := covers_trivia_iff.mp covers
    exact filled _ (List.mem_singleton_self _) rfl
  · rintro rfl
    rcases covers_code_iff.mp covers with ⟨solid, _, spelled⟩
    rcases solid.starts with ⟨first, more, rfl, _⟩
    rw [Token.spell_cons] at spelled
    exact filled first List.mem_cons_self (List.append_eq_nil_iff.mp spelled.symm).1

/-- White space that stands apart has no white space behind it. -/
theorem Apart.not_beside {nodes : List Node} (apart : Apart nodes) (first second : Text) :
    ¬[.trivia first, .trivia second] <:+: nodes := by
  rintro ⟨front, back, spelled⟩
  rw [List.append_assoc] at spelled
  have notWhite := List.isChain_iff_forall_rel_of_append_cons_cons.mp apart spelled.symm rfl
  cases notWhite

/-! ## Documents that were read -/

/-- A document that was read is in normal form. -/
theorem normalForm_of_parse {source : Text} {document : Document}
    (parsed : Document.parse source = .ok document) : NormalForm document.nodes := by
  rcases standing_of_parse parsed with ⟨tokens, scanned, standing⟩
  have scans := tokenize_eq_ok_iff.mp scanned
  have joined := joined_of_ofTokens (ofTokens_of_parse parsed scanned)
  have filled : ∀ node ∈ document.nodes, node ≠ .trivia [] ∧ node ≠ .code [] := by
    intro node member
    rcases standing.covers_of_mem node member with ⟨block, inside, covers⟩
    exact covers.text_ne_nil fun token isToken => scans.text_ne_nil token (inside.subset isToken)
  exact
    { noEmptyTrivia := fun member => (filled _ member).1 rfl
      noEmptyCode := fun member => (filled _ member).2 rfl
      triviaApart := (standing.apart scans.adjoins).not_beside
      codeApart := fun first second => joined.not_in_front fun back => rfl
      codeJoined := fun first space second => joined.not_in_front fun back => rfl }

/-- Code over two lines, a comment and an `import` that interrupt it, and a line separator,
which is white space in front of a tag and belongs to a name inside it. -/
theorem normalForm_of_parse_interrupted :
    ∃ document,
      Document.parse "a\nb/* c */ =\u2028<d\u2028 />\nimport e from 'f' g ".toList = .ok document ∧
      document.nodes.map Node.written? =
        ["a\nb".toList, "/* c */".toList, [' '], "=\u2028<d\u2028 />".toList, ['\n'],
          "import e from 'f'".toList, [' '], ['g'], [' ']].map some ∧
      NormalForm document.nodes := by
  have parsed :
      Document.parse "a\nb/* c */ =\u2028<d\u2028 />\nimport e from 'f' g ".toList =
        .ok
          { nodes :=
              [.code "a\nb".toList, .comment ⟨.block, "/* c */".toList⟩, .trivia [' '],
                .code "=\u2028<d\u2028 />".toList, .trivia ['\n'],
                .importing
                  { defaultName := some ['e']
                    source := ⟨'\'', ['f']⟩
                    written := some "import e from 'f'".toList },
                .trivia [' '], .code ['g'], .trivia [' ']] } := by
    decide +kernel
  exact ⟨_, parsed, rfl, normalForm_of_parse parsed⟩

end Deflow
