import Deflow.Proofs.Rule.Redraw

/-!
# Which comments are written

Pragmas go and every other comment is written once, in order.  Those of a declaration
that the rules change come to stand in front of it.  Its attributes, however, are copied
with the comments in them.
-/

namespace Deflow

open Script Spaced

/-! ## Comments among tokens -/

/-- The comments of a document are those among its tokens. -/
theorem Standing.comments_eq {document : Document} {tokens : List Token}
    (standing : Standing document.nodes tokens) : document.comments = commentsOf tokens :=
  standing.flatMap_comments

/-- White space is put together without touching comments. -/
theorem commentsOf_joinSpaces (tokens : List Token) :
    commentsOf (joinSpaces tokens) = commentsOf tokens := by
  have inFront (space : Text) (tokens : List Token) :
      commentsOf (consSpace space tokens) = commentsOf tokens := by
    unfold consSpace
    split <;> rfl
  fun_induction joinSpaces tokens with
  | case1 => rfl
  | case2 text tokens inductionHypothesis => rw [inFront, inductionHypothesis]; rfl
  | case3 token tokens _ inductionHypothesis =>
      simp only [commentsOf, List.filterMap_cons] at inductionHypothesis ⊢
      rw [inductionHypothesis]

/-- Stripped tokens have the comments that are not dropped. -/
theorem commentsOf_stripAll (drop : Comment → Bool) (tokens : List Token) :
    commentsOf (stripAll (Token.isDropped drop) tokens) =
      (commentsOf tokens).filter fun comment => !drop comment := by
  have byFilter (tokens : List Token) : commentsOf tokens =
      commentsOf (tokens.filter fun token => (Piece.comment? token).isSome) := by
    induction tokens with
    | nil => rfl
    | cons token tokens inductionHypothesis =>
        cases isComment : Piece.comment? token <;>
          simpa [commentsOf, isComment] using inductionHypothesis
  rw [byFilter, filter_stripAll fun _ => rfl]
  induction tokens with
  | nil => rfl
  | cons token tokens inductionHypothesis =>
      cases isComment : Piece.comment? token with
      | none => simpa [commentsOf, isComment] using inductionHypothesis
      | some comment =>
          cases dropped : drop comment <;>
            simpa [commentsOf, isComment, Token.isDropped, dropped] using inductionHypothesis

/-! ## Two steps -/

/-- All is settled where pragmas are taken out of a text, if it has tokens. -/
def SettledText (text : Text) : Prop :=
  ∀ tokens, tokenize text = .ok tokens → Settled Token.isPragma false tokens

instance (text : Text) : Decidable (SettledText text) :=
  match isTokens : tokenize text with
  | .ok tokens =>
    decidable_of_iff (Settled Token.isPragma false tokens)
      ⟨fun settled _ same => Except.ok.inj (isTokens.symm.trans same) ▸ settled,
        fun settled => settled tokens isTokens⟩
  | .error _ => .isTrue fun _ same => nomatch isTokens.symm.trans same

/-- Changed declarations are drawn with the comments that are no pragmas. -/
theorem filter_commentsOf_drawn {options : PrintOptions} {lineEnd : Text} {nodes : List Node}
    {tokens drawn : List Token} (standing : Standing nodes tokens)
    (drawnStanding : Standing (nodes.flatMap fun node => node.normalize.renewed options lineEnd)
      drawn) :
    (commentsOf drawn).filter (!·.isPragma) = (commentsOf tokens).filter (!·.isPragma) := by
  rw [← standing.flatMap_comments, ← drawnStanding.flatMap_comments, List.flatMap_assoc,
    List.filter_flatMap, List.filter_flatMap]
  refine List.flatMap_congr fun node _ => ?_
  rw [Node.comments_renewed, Node.filter_comments_normalize]

/-- What the standard pipeline writes is read as the drawn tokens without pragmas, if all is
settled where it takes these out. -/
theorem tokenize_run_standard {source output : Text} {edits : Nat} {document : Document}
    {tokens drawn : List Token} (ran : Pipeline.standard.run source = .ok (output, edits))
    (parsed : Document.parse source = .ok document) (scanned : tokenize source = .ok tokens)
    (drawnAs : DrawnAs Pipeline.standard.options (Pipeline.standard.apply document).1.lineEnd []
      document.nodes tokens drawn)
    (settled : SettledText (redrawnText Pipeline.standard.options
      (Pipeline.standard.apply document).1.lineEnd document.nodes))
    (start : ['#', '!'] <+: output → ['#', '!'] <+: source) :
    tokenize output = .ok (joinSpaces (stripAll Token.isPragma drawn)) := by
  rcases Pipeline.run_eq_ok_iff.mp ran with ⟨same, alsoParsed, isOutput, _⟩
  obtain rfl : document = same := Except.ok.inj (parsed.symm.trans alsoParsed)
  have standing := standing_of_ofTokens (ofTokens_of_parse parsed scanned)
  have scans := tokenize_eq_ok_iff.mp scanned
  have drawnScans := scans.redrawn drawnAs.redrawn
  have isDrawn := tokenize_eq_ok_iff.mpr drawnScans
  have filled := filled_of_tokenize isDrawn
  have written : output = Token.spell (stripAll Token.isPragma drawn) := by
    rw [← isOutput]
    exact print_apply_standard _ (standing.filled (filled_of_tokenize scanned)) filled
      drawnAs.standing
  subst written
  have allSettled := settled drawn (by rw [← drawnAs.standing.spell_eq_redrawnText, isDrawn])
  exact tokenize_eq_ok_iff.mpr (drawnScans.rescan (edited_stripAll filled allSettled) fun line =>
    scans.line_redrawn drawnAs.redrawn (start line))

/-- The comments of what the standard pipeline writes are those that are no pragmas, in
order, where nothing is disturbed around the declarations that it changes and all is
settled where it takes pragmas out. -/
theorem commentsOf_run_standard {source output : Text} {edits : Nat} {document : Document}
    {tokens : List Token} (ran : Pipeline.standard.run source = .ok (output, edits))
    (parsed : Document.parse source = .ok document) (scanned : tokenize source = .ok tokens)
    (attributes : ∀ node ∈ document.nodes, node.PlainAttributes)
    (undisturbed : Undisturbed Pipeline.standard.options
      (Pipeline.standard.apply document).1.lineEnd document.nodes tokens)
    (settled : SettledText (redrawnText Pipeline.standard.options
      (Pipeline.standard.apply document).1.lineEnd document.nodes))
    (start : ['#', '!'] <+: output → ['#', '!'] <+: source) :
    ∃ again, tokenize output = .ok again ∧
      commentsOf again = (commentsOf tokens).filter (!·.isPragma) := by
  have standing := standing_of_ofTokens (ofTokens_of_parse parsed scanned)
  -- Changed declarations are drawn anew, then pragmas are stripped from what is drawn.
  rcases (outlined_of_parse parsed scanned).exists_drawnAs (Document.isLineEnd_lineEnd _) (.inr rfl)
    standing (tokenize_eq_ok_iff.mp scanned).sound attributes undisturbed with ⟨drawn, drawnAs⟩
  refine ⟨_, tokenize_run_standard ran parsed scanned drawnAs settled start, ?_⟩
  rw [commentsOf_joinSpaces]
  exact (commentsOf_stripAll Comment.isPragma drawn).trans
    (filter_commentsOf_drawn standing drawnAs.standing)

/-- Pragmas go from an `import` and from between the nodes, and the comments of two
declarations come to stand in front of these. -/
theorem commentsOf_run_standard_module :
    let exported : Text :=
      "export \x7btype e as /* f */ g\x7d from 'y' with \x7b type: 'json' \x7d".toList
    let source : Text :=
      "// @flow\n// a\nimport type /* b */ c /* $FlowIssue */ from \"x\";\n".toList ++ exported ++
        "\nd /* $FlowIssue */ / 2".toList
    let output : Text :=
      ("// a\n/* b */\nimport c from 'x';\n/* f */\n" ++
        "export \x7b e as g \x7d from 'y' with \x7b type: 'json' \x7d;\nd / 2").toList
    ∃ tokens again,
      tokenize source = .ok tokens ∧
      Pipeline.standard.run source = .ok (output, 5) ∧
      tokenize output = .ok again ∧
      commentsOf again = (commentsOf tokens).filter (!·.isPragma) ∧
      commentsOf again =
        [⟨.line, "// a".toList⟩, ⟨.block, "/* b */".toList⟩, ⟨.block, "/* f */".toList⟩] := by
  intro exported source output
  have parsed : Document.parse source = .ok
      { nodes :=
          [.comment ⟨.line, "// @flow".toList⟩, .trivia ['\n'], .comment ⟨.line, "// a".toList⟩,
            .trivia ['\n'],
            .importing
              { kind := .type
                defaultName := some ['c']
                source := ⟨'"', ['x']⟩
                comments := [⟨.block, "/* b */".toList⟩, ⟨.block, "/* $FlowIssue */".toList⟩]
                written := some "import type /* b */ c /* $FlowIssue */ from \"x\";".toList },
            .trivia ['\n'],
            .exporting
              { specifiers := ⟨[{ kind := .type, name := ['e'], renamed := some ['g'] }], false⟩
                source := some ⟨'\'', ['y']⟩
                attributes := some "with \x7b type: 'json' \x7d".toList
                comments := [⟨.block, "/* f */".toList⟩]
                written := some exported },
            .trivia ['\n'], .code ['d'], .trivia [' '],
            .comment ⟨.block, "/* $FlowIssue */".toList⟩, .trivia [' '], .code "/ 2".toList] } := by
    decide +kernel
  have scanned : tokenize source = .ok
      [⟨.lineComment, "// @flow".toList⟩, ⟨.whitespace, ['\n']⟩, ⟨.lineComment, "// a".toList⟩,
        ⟨.whitespace, ['\n']⟩, .word "import", .blank, .word "type", .blank,
        ⟨.blockComment, "/* b */".toList⟩, .blank, .word "c", .blank,
        ⟨.blockComment, "/* $FlowIssue */".toList⟩, .blank, .word "from", .blank,
        ⟨.string, "\"x\"".toList⟩, .punct ';', ⟨.whitespace, ['\n']⟩, .word "export", .blank,
        .punct '\x7b', .word "type", .blank, .word "e", .blank, .word "as", .blank,
        ⟨.blockComment, "/* f */".toList⟩, .blank, .word "g", .punct '\x7d', .blank, .word "from",
        .blank, ⟨.string, "'y'".toList⟩, .blank, .word "with", .blank, .punct '\x7b', .blank,
        .word "type", .punct ':', .blank, ⟨.string, "'json'".toList⟩, .blank, .punct '\x7d',
        ⟨.whitespace, ['\n']⟩, .word "d", .blank, ⟨.blockComment, "/* $FlowIssue */".toList⟩,
        .blank, .punct '/', .blank, ⟨.number, ['2']⟩] := by
    decide +kernel
  have ran : Pipeline.standard.run source = .ok (output, 5) := by
    decide +kernel
  rcases commentsOf_run_standard ran parsed scanned (by decide +kernel) (by decide +kernel)
    (by decide +kernel) (by decide +kernel) with ⟨again, isAgain, same⟩
  exact ⟨_, again, scanned, ran, isAgain, same, same.trans (by decide +kernel)⟩

/-- A comment in the attributes of an `import` that loses its kind is written twice. -/
theorem commentsOf_run_standard_attributes :
    let source : Text := "import type a from 'x' with \x7b /* c */ type: 'json' \x7d;".toList
    let output : Text :=
      "/* c */\nimport a from 'x' with \x7b /* c */ type: 'json' \x7d;".toList
    ∃ tokens again,
      tokenize source = .ok tokens ∧
      Pipeline.standard.run source = .ok (output, 1) ∧
      tokenize output = .ok again ∧
      (commentsOf tokens).filter (!·.isPragma) = [⟨.block, "/* c */".toList⟩] ∧
      commentsOf again = [⟨.block, "/* c */".toList⟩, ⟨.block, "/* c */".toList⟩] := by
  intro source output
  refine ⟨
    [⟨.identifier, "import".toList⟩, ⟨.whitespace, [' ']⟩, ⟨.identifier, "type".toList⟩,
      ⟨.whitespace, [' ']⟩, ⟨.identifier, ['a']⟩, ⟨.whitespace, [' ']⟩,
      ⟨.identifier, "from".toList⟩, ⟨.whitespace, [' ']⟩, ⟨.string, "'x'".toList⟩,
      ⟨.whitespace, [' ']⟩, ⟨.identifier, "with".toList⟩, ⟨.whitespace, [' ']⟩, .punct '\x7b',
      ⟨.whitespace, [' ']⟩, ⟨.blockComment, "/* c */".toList⟩, ⟨.whitespace, [' ']⟩,
      ⟨.identifier, "type".toList⟩, .punct ':', ⟨.whitespace, [' ']⟩, ⟨.string, "'json'".toList⟩,
      ⟨.whitespace, [' ']⟩, .punct '\x7d', .punct ';'],
    [⟨.blockComment, "/* c */".toList⟩, ⟨.whitespace, ['\n']⟩, ⟨.identifier, "import".toList⟩,
      ⟨.whitespace, [' ']⟩, ⟨.identifier, ['a']⟩, ⟨.whitespace, [' ']⟩,
      ⟨.identifier, "from".toList⟩, ⟨.whitespace, [' ']⟩, ⟨.string, "'x'".toList⟩,
      ⟨.whitespace, [' ']⟩, ⟨.identifier, "with".toList⟩, ⟨.whitespace, [' ']⟩, .punct '\x7b',
      ⟨.whitespace, [' ']⟩, ⟨.blockComment, "/* c */".toList⟩, ⟨.whitespace, [' ']⟩,
      ⟨.identifier, "type".toList⟩, .punct ':', ⟨.whitespace, [' ']⟩, ⟨.string, "'json'".toList⟩,
      ⟨.whitespace, [' ']⟩, .punct '\x7d', .punct ';'], ?_, ?_, ?_, ?_, ?_⟩
  all_goals decide +kernel

end Deflow
