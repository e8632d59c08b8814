import Deflow.Proofs.Rule.Pipeline
import Deflow.Proofs.Script.Rescan

/-!
# What stripping comments does to a script

Where comments are stripped, every token that means something is written again,
in order.  Whether it is also read again as the same token depends on what it
comes to stand in front of.  `Settled` says that it does at each token, and then
the stripped script has the tokens that mean something and no others.
-/

namespace Deflow

open Script Spaced

/-! ## What is written -/

/-- Every token that means something stays. -/
theorem meaningful_stripAll (drop : Comment → Bool) (tokens : List Token) :
    meaningful (stripAll (Token.isDropped drop) tokens) = meaningful tokens := by
  rw [meaningful, filter_stripAll fun _ => rfl]
  refine List.filter_congr fun token _ => ?_
  cases trivia : token.isTrivia with
  | true => simp
  | false => simp [isDropped_of_not_trivia trivia]

/-! ## What is read again -/

/-- Every token that stays is read as before when the tokens that `dropped` holds
of are taken out, and nothing goes out of the name of a markup tag.  `inTag` says
whether the token before could stand in a tag. -/
def Settled (dropped : Token → Bool) (inTag : Bool) : List Token → Prop
  | [] => True
  | token :: rest =>
    if dropped token then
      (inTag = true → continuesName (strip dropped false [] rest) = false) ∧
        Settled dropped inTag rest
    else
      match white? token with
      | some text => Settled dropped (inTag && !text.contains '\n') rest
      | none =>
        Stays token (Token.spell rest) (Token.spell (strip dropped false [] rest)) ∧
          Settled dropped token.standsInTag rest

instance decidableSettled (dropped : Token → Bool) :
    ∀ (inTag : Bool) (tokens : List Token), Decidable (Settled dropped inTag tokens)
  | _, [] => .isTrue trivial
  | inTag, token :: rest =>
    haveI := fun inTag => decidableSettled dropped inTag rest
    if isDropped : dropped token then
      decidable_of_iff
        ((inTag = true → continuesName (strip dropped false [] rest) = false) ∧
          Settled dropped inTag rest)
        (by rw [Settled, if_pos isDropped])
    else
      match isWhite : white? token with
      | some text =>
        decidable_of_iff (Settled dropped (inTag && !text.contains '\n') rest)
          (by simp only [Settled, if_neg isDropped, isWhite])
      | none =>
        decidable_of_iff
          (Stays token (Token.spell rest) (Token.spell (strip dropped false [] rest)) ∧
            Settled dropped token.standsInTag rest)
          (by simp only [Settled, if_neg isDropped, isWhite])

theorem Settled.outside {dropped : Token → Bool} {inTag : Bool} {tokens : List Token}
    (settled : Settled dropped inTag tokens) : Settled dropped false tokens := by
  induction tokens generalizing inTag with
  | nil => trivial
  | cons token rest inductionHypothesis =>
      unfold Settled at settled ⊢
      split
      · rename_i isDropped
        rw [if_pos isDropped] at settled
        exact ⟨by simp, inductionHypothesis settled.2⟩
      · rename_i stays
        rw [if_neg stays] at settled
        split
        · rename_i isWhite
          simp only [isWhite] at settled
          exact inductionHypothesis settled
        · rename_i notWhite
          simp only [notWhite] at settled
          exact settled

/-- White space may be shortened where no markup tag is left open. -/
theorem Script.Edited.shorten {behind changed : Text} {tokens edited : List Token} {text : Text}
    (edits : Edited behind changed false tokens (⟨.whitespace, text⟩ :: edited)) {left : Text}
    (part : ∀ c ∈ left, c ∈ text) :
    Edited behind changed false tokens (consWhite left edited) := by
  generalize isEdited : Token.mk .whitespace text :: edited = all at edits
  generalize isFlag : false = inTag at edits
  induction edits with
  | nil => cases isEdited
  | keep filled stays more _ =>
      obtain ⟨rfl, rfl⟩ := List.cons.inj isEdited
      exact absurd rfl filled
  | drop comment name more inductionHypothesis =>
      subst isFlag
      exact .drop comment (by simp) (inductionHypothesis isEdited rfl)
  | @space _ whole _ _ _ nonempty inWhole more _ =>
      obtain ⟨isText, rfl⟩ := List.cons.inj isEdited
      cases isText
      subst isFlag
      unfold consWhite
      split
      · exact .vanish (by simp) more
      · rename_i someLeft
        exact .space someLeft (fun c member => inWhole c (part c member)) more
  | vanish name more inductionHypothesis =>
      subst isFlag
      exact .vanish (by simp) (inductionHypothesis isEdited rfl)

theorem Script.Edited.dropBlankLine {behind changed : Text} {tokens edited : List Token}
    (edits : Edited behind changed false tokens edited) :
    Edited behind changed false tokens (dropBlankLine edited) := by
  cases edited with
  | nil => exact edits
  | cons first rest =>
      simp only [Deflow.dropBlankLine]
      split
      · exact edits
      · rename_i text isWhite
        obtain rfl := white?_eq_some_iff.mp isWhite
        refine edits.shorten fun c member => ?_
        have inBlank : c ∈ text.dropWhile isIndent := by
          unfold dropLineEnd at member
          split at member <;> simp_all
        exact (List.dropWhile_suffix _).mem inBlank

/-- White space in front of an edit. -/
theorem Script.Edited.consWhite {behind changed : Text} {inTag : Bool} {tokens edited : List Token}
    {space : Text} (left : Text) (part : ∀ c ∈ left, c ∈ space)
    (whole : space = [] → Edited behind changed inTag tokens edited)
    (name : space ≠ [] → left = [] → inTag = true → continuesName edited = false)
    (edits : Edited behind changed false tokens edited) :
    Edited behind changed inTag (Deflow.consWhite space tokens) (Deflow.consWhite left edited) := by
  unfold Deflow.consWhite
  split
  · rename_i empty
    have nothing : left = [] := List.eq_nil_iff_forall_not_mem.mpr fun c member => by
      simpa [empty] using part c member
    rw [if_pos nothing]
    exact whole empty
  · rename_i nonempty
    split
    · rename_i nothing
      exact .vanish (name nonempty nothing) edits
    · rename_i something
      exact .space something part edits

/-- What is left of white space with a line break in it is not empty. -/
theorem dropLastLine_ne_nil {text : Text} (breaks : text.contains '\n' = true) :
    dropLastLine text ≠ [] := by
  unfold dropLastLine
  rw [Ne, List.reverse_eq_nil_iff, List.dropWhile_eq_nil_iff]
  intro noBreak
  simpa using noBreak '\n' (by simpa using breaks)

theorem mem_of_mem_dropLastLine {text : Text} {c : Char} (member : c ∈ dropLastLine text) :
    c ∈ text := by
  unfold dropLastLine at member
  rw [List.mem_reverse] at member
  exact List.mem_reverse.mp ((List.dropWhile_suffix _).mem member)

/-- Where a comment goes, the white space around it is edited. -/
theorem Script.Edited.closeUp {tokens edited : List Token} {inTag atStart : Bool} {space : Text}
    (start : atStart = true → inTag = false)
    (name : (inTag && !space.contains '\n') = true → continuesName edited = false)
    (within : space = [] → Edited [] [] inTag tokens edited)
    (edits : Edited [] [] false tokens edited) :
    Edited [] [] inTag (Deflow.consWhite space tokens) (Deflow.closeUp atStart space edited) := by
  unfold Deflow.closeUp
  split
  · rename_i ownLine
    rw [Bool.and_eq_true, Bool.or_eq_true] at ownLine
    -- Either the line begins behind a break that stays, or nothing stands before.
    have atBreak : inTag = true → space.contains '\n' = true := by
      rintro rfl
      rcases ownLine.1 with isStart | breaks
      · exact absurd (start isStart) (by simp)
      · exact breaks
    refine .consWhite _ (fun c => mem_of_mem_dropLastLine) ?_ ?_ edits.dropBlankLine
    · rintro rfl
      cases inTag with
      | false => exact edits.dropBlankLine
      | true => simp at atBreak
    · intro _ nothing isTag
      exact absurd nothing (dropLastLine_ne_nil (atBreak isTag))
  · refine .consWhite _ ?_ within ?_ edits
    · intro c member
      split at member
      · exact member
      · cases member
    · intro _ nothing isTag
      refine name ?_
      split at nothing
      · rename_i breaks
        simp [nothing] at breaks
      · rename_i noBreak
        simpa [isTag] using noBreak

theorem isComment_of_isDropped {drop : Comment → Bool} {token : Token}
    (dropped : token.isDropped drop = true) : token.isComment = true := by
  obtain ⟨kind, text⟩ := token
  cases kind <;> first | rfl | simp [Token.isDropped, Piece.comment?] at dropped

/-- Stripping comments where all is settled is an edit. -/
theorem edited_strip {drop : Comment → Bool} {tokens : List Token} (filled : Filled tokens)
    {inTag atStart : Bool} {space : Text} (start : atStart = true → inTag = false)
    (settled : Settled (Token.isDropped drop) (inTag && !space.contains '\n') tokens) :
    Edited [] [] inTag (consWhite space tokens)
      (strip (Token.isDropped drop) atStart space tokens) := by
  induction tokens generalizing inTag atStart space with
  | nil => exact .consWhite space (fun c => id) (fun _ => .nil) (fun _ _ _ => rfl) .nil
  | cons token rest inductionHypothesis =>
      obtain ⟨ofToken, ofRest⟩ := List.forall_mem_cons.mp filled
      rw [strip]
      unfold Settled at settled
      split
      · rename_i dropped
        rw [if_pos dropped] at settled
        have comment := isComment_of_isDropped dropped
        have behind {inTag : Bool} (settled : Settled (Token.isDropped drop) inTag rest) :=
          @inductionHypothesis ofRest inTag false [] (by simp) (by simpa using settled)
        refine .closeUp start settled.1 ?_ (.drop comment (by simp) (behind settled.2.outside))
        rintro rfl
        exact .drop comment (by simpa using settled.1) (behind (by simpa using settled.2))
      · rename_i stays
        rw [if_neg stays] at settled
        split
        · rename_i text isWhite
          simp only [isWhite] at settled
          obtain rfl := white?_eq_some_iff.mp isWhite
          have nonempty : text ≠ [] := by
            rintro rfl
            exact ofToken isWhite
          have held (inTag atStart : Bool) (start : atStart = true → inTag = false)
              (settled : Settled (Token.isDropped drop) (inTag && !text.contains '\n') rest) :
              Edited [] [] inTag (white text :: rest)
                (strip (Token.isDropped drop) atStart text rest) := by
            have edits := inductionHypothesis ofRest start settled
            rwa [consWhite, if_neg nonempty] at edits
          refine .consWhite space (fun c => id) ?_ (fun nonempty empty => absurd empty nonempty) ?_
          · rintro rfl
            exact held inTag (atStart && true) (by simpa using start) (by simpa using settled)
          · exact held false _ (by simp) settled.outside
        · rename_i notWhite
          simp only [notWhite] at settled
          obtain ⟨staysSo, settled⟩ := settled
          have filledKind : token.kind ≠ .whitespace := by
            intro isWhite
            obtain ⟨kind, text⟩ := token
            subst isWhite
            cases notWhite
          have kept (inTag : Bool) : Edited [] [] inTag (token :: rest)
              (token :: strip (Token.isDropped drop) false [] rest) := by
            refine .keep filledKind (by simpa using staysSo) ?_
            exact @inductionHypothesis ofRest _ false [] (by simp) (by simpa using settled)
          exact .consWhite space (fun c => id) (fun _ => kept inTag)
            (fun nonempty empty => absurd empty nonempty) (kept false)

theorem edited_stripAll {drop : Comment → Bool} {tokens : List Token} (filled : Filled tokens)
    (settled : Settled (Token.isDropped drop) false tokens) :
    Edited [] [] false tokens (stripAll (Token.isDropped drop) tokens) := by
  have edits := @edited_strip drop tokens filled false true [] (by simp) settled
  rw [consWhite_nil] at edits
  rcases stripAll_cases (Token.isDropped drop) tokens with same | ⟨text, _, _, same⟩
  · rwa [same]
  · rw [same] at edits
    exact @Edited.shorten _ _ _ _ _ edits [] (by simp)

/-! ## Pragmas -/

/-- Tokens of a source text are not empty, and white space has a length. -/
theorem filled_of_tokenize {source : Text} {tokens : List Token}
    (scanned : tokenize source = .ok tokens) : Filled tokens := by
  intro token member isWhite
  obtain rfl := white?_eq_some_iff.mp isWhite
  exact (tokenize_eq_ok_iff.mp scanned).text_ne_nil _ member rfl

/-- Nodes that stand for tokens have white space where they have. -/
theorem Standing.filled {nodes : List Node} {tokens : List Token} (standing : Standing nodes tokens)
    (filled : Filled tokens) : Filled nodes := by
  induction standing with
  | nil => simp [Filled]
  | cons covers more inductionHypothesis =>
      obtain ⟨ofBlock, ofTokens⟩ := List.forall_mem_append.mp filled
      refine List.forall_mem_cons.mpr ⟨?_, inductionHypothesis ofTokens⟩
      cases covers with
      | trivia => simpa [white?] using ofBlock
      | _ => simp [white?]

/-- Removing comments writes the tokens without them, if none goes out of a
declaration. -/
theorem print_removeComments {drop : Comment → Bool} {document : Document} {tokens : List Token}
    (standing : Standing document.nodes tokens) (filled : Filled tokens)
    (outside : ∀ node ∈ document.nodes, ∀ comment ∈ node.interior, drop comment = false)
    (options : PrintOptions) :
    (document.removeComments drop).print options =
      Token.spell (stripAll (Token.isDropped drop) tokens) := by
  have untouched : document.nodes.map (Node.dropInterior drop) = document.nodes := by
    refine (List.map_congr_left fun node member => ?_).trans (List.map_id _)
    exact dropInterior_eq_self (outside node member)
  have nodes := @nodes_removeComments drop document (standing.filled filled)
  rw [untouched] at nodes
  refine Standing.print_eq ?_ options
  rw [nodes]
  exact standing.stripAll filled outside

/-- The tokens that pragmas are. -/
def Script.Token.isPragma : Token → Bool :=
  Token.isDropped Comment.isPragma

/-- Where no pragma stands inside a declaration, stripping pragmas writes every
token that means something again.  If all is settled and the script does not come
to begin with an interpreter line, these tokens are also read again, and no
others. -/
theorem meaningful_of_stripPragmas {source output : Text} {edits : Nat} {options : PrintOptions}
    {document : Document} {tokens : List Token}
    (parsed : Document.parse source = .ok document) (scanned : tokenize source = .ok tokens)
    (outside : ∀ node ∈ document.nodes, ∀ comment ∈ node.interior, comment.isPragma = false)
    (ran : Pipeline.run { rules := [.stripPragmas], options } source = .ok (output, edits)) :
    output = Token.spell (stripAll Token.isPragma tokens) ∧
      meaningful (stripAll Token.isPragma tokens) = meaningful tokens ∧
      (Settled Token.isPragma false tokens → (['#', '!'] <+: output → ['#', '!'] <+: source) →
        ∃ again, tokenize output = .ok again ∧ meaningful again = meaningful tokens) := by
  obtain ⟨document', alsoParsed, isOutput, _⟩ := Pipeline.run_eq_ok_iff.mp ran
  obtain rfl : document = document' := Except.ok.inj (parsed.symm.trans alsoParsed)
  obtain ⟨tokens', alsoScanned, standing⟩ := standing_of_parse parsed
  obtain rfl : tokens = tokens' := Except.ok.inj (scanned.symm.trans alsoScanned)
  have filled := filled_of_tokenize scanned
  have written : output = Token.spell (stripAll Token.isPragma tokens) :=
    isOutput.symm.trans (print_removeComments standing filled outside options)
  have kept := meaningful_stripAll Comment.isPragma tokens
  refine ⟨written, kept, fun settled start => ?_⟩
  rw [written] at start ⊢
  have again := (tokenize_eq_ok_iff.mp scanned).rescan (edited_stripAll filled settled) start
  exact ⟨_, tokenize_eq_ok_iff.mpr again, (meaningful_joinSpaces _).trans kept⟩

/-- A pragma goes in front of a slash that divides by an element. -/
theorem meaningful_of_stripPragmas_division :
    let source : Text := "return a /* $FlowFixMe */ / <b/*c*/ d/>;".toList
    ∃ document tokens output again,
      Document.parse source = .ok document ∧
      tokenize source = .ok tokens ∧
      (∀ node ∈ document.nodes, ∀ comment ∈ node.interior, comment.isPragma = false) ∧
      Pipeline.run { rules := [.stripPragmas] } source = .ok (output, 1) ∧
      output = "return a / <b/*c*/ d/>;".toList ∧
      tokenize output = .ok again ∧ meaningful again = meaningful tokens := by
  intro source
  have parsed : Document.parse source = .ok
      { nodes :=
          [.code "return a".toList, .trivia [' '],
            .comment ⟨.block, "/* $FlowFixMe */".toList⟩, .trivia [' '],
            .code "/ <b".toList, .comment ⟨.block, "/*c*/".toList⟩, .trivia [' '],
            .code "d/>;".toList] } := by
    decide +kernel
  have scanned : tokenize source = .ok
      [⟨.identifier, "return".toList⟩, ⟨.whitespace, [' ']⟩, ⟨.identifier, ['a']⟩,
        ⟨.whitespace, [' ']⟩, ⟨.blockComment, "/* $FlowFixMe */".toList⟩, ⟨.whitespace, [' ']⟩,
        .punct '/', ⟨.whitespace, [' ']⟩, .punct '<', ⟨.jsxName, ['b']⟩,
        ⟨.blockComment, "/*c*/".toList⟩, ⟨.whitespace, [' ']⟩, ⟨.jsxName, ['d']⟩, .punct '/',
        .punct '>', .punct ';'] := by
    decide +kernel
  have outside : ∀ node ∈ [Node.code "return a".toList, .trivia [' '],
      .comment ⟨.block, "/* $FlowFixMe */".toList⟩, .trivia [' '], .code "/ <b".toList,
      .comment ⟨.block, "/*c*/".toList⟩, .trivia [' '], .code "d/>;".toList],
      ∀ comment ∈ node.interior, comment.isPragma = false := by
    decide
  have ran : Pipeline.run { rules := [.stripPragmas] } source =
      .ok ("return a / <b/*c*/ d/>;".toList, 1) := by
    decide +kernel
  obtain ⟨_, _, readAgain⟩ := meaningful_of_stripPragmas parsed scanned outside ran
  obtain ⟨again, isAgain, same⟩ := readAgain (by decide +kernel) (by decide +kernel)
  exact ⟨_, _, _, again, parsed, scanned, outside, ran, rfl, isAgain, same⟩

/-- Where all is not settled, tokens can run together. -/
theorem meaningful_of_stripPragmas_merged :
    ∃ output tokens again,
      Pipeline.run { rules := [.stripPragmas] } "return/* $FlowFixMe */x;".toList =
        .ok (output, 1) ∧
      tokenize "return/* $FlowFixMe */x;".toList = .ok tokens ∧ tokenize output = .ok again ∧
      meaningful tokens =
        [⟨.identifier, "return".toList⟩, ⟨.identifier, ['x']⟩, .punct ';'] ∧
      meaningful again = [⟨.identifier, "returnx".toList⟩, .punct ';'] := by
  refine ⟨"returnx;".toList,
    [⟨.identifier, "return".toList⟩, ⟨.blockComment, "/* $FlowFixMe */".toList⟩,
      ⟨.identifier, ['x']⟩, .punct ';'],
    [⟨.identifier, "returnx".toList⟩, .punct ';'], ?_, ?_, ?_, ?_, ?_⟩
  all_goals decide +kernel

end Deflow
