import Deflow.Proofs.Document.Clearing

/-!
# Line comments that stay

In a document that was read, a line comment stands at the end of its line.  Where
comments are removed, this can change: white space without a line feed goes with the
comment behind it, also if it is the carriage return that ended the line.  This file
says exactly when every line comment that stays still ends its line.
-/

namespace Deflow

open Script Spaced

/-! ## Ends of lines -/

/-- Whether nodes begin with a line end, or there are none. -/
def opensLine : List Node → Bool
  | [] => true
  | .trivia (c :: _) :: _ => isLineFeed c
  | _ => false

/-- Something holds of every comment among nodes and of what stands behind it. -/
def AtComments (holds : Comment → List Node → Prop) (nodes : List Node) : Prop :=
  ∀ own after, .comment own :: after <:+ nodes → holds own after

/-- Every line comment ends its line. -/
def LinesEnd : List Node → Prop :=
  AtComments fun own after => own.kind = .line → opensLine after = true

theorem atComments_nil (holds : Comment → List Node → Prop) : AtComments holds [] := by
  intro own after isSuffix
  simp at isSuffix

theorem atComments_cons_iff {holds : Comment → List Node → Prop} {node : Node} {nodes : List Node} :
    AtComments holds (node :: nodes) ↔
      (∀ own, node = .comment own → holds own nodes) ∧ AtComments holds nodes := by
  constructor
  · intro all
    refine ⟨?_, fun own after isSuffix => all own after (isSuffix.trans (List.suffix_cons ..))⟩
    rintro own rfl
    exact all own nodes (List.suffix_refl _)
  · rintro ⟨here, later⟩ own after isSuffix
    rcases List.suffix_cons_iff.mp isSuffix with same | behind
    · cases same
      exact here own rfl
    · exact later own after behind

/-- White space in front makes no difference. -/
theorem linesEnd_white_iff {text : Text} {nodes : List Node} :
    LinesEnd (white text :: nodes) ↔ LinesEnd nodes := by
  simp [LinesEnd, atComments_cons_iff, white]

theorem linesEnd_consWhite_iff {text : Text} {nodes : List Node} :
    LinesEnd (consWhite text nodes) ↔ LinesEnd nodes := by
  unfold consWhite
  split
  · rfl
  · exact linesEnd_white_iff

theorem linesEnd_dropBlankLine_iff {nodes : List Node} :
    LinesEnd (dropBlankLine nodes) ↔ LinesEnd nodes := by
  cases nodes with
  | nil => rfl
  | cons first rest =>
      simp only [dropBlankLine]
      split
      · rfl
      · rename_i isWhite
        rw [white?_eq_some_iff.mp isWhite, linesEnd_consWhite_iff, linesEnd_white_iff]

theorem linesEnd_closeUp_iff {atStart : Bool} {space : Text} {nodes : List Node} :
    LinesEnd (closeUp atStart space nodes) ↔ LinesEnd nodes := by
  unfold closeUp
  split
  · rw [linesEnd_consWhite_iff, linesEnd_dropBlankLine_iff]
  · rw [linesEnd_consWhite_iff]

/-! ## The pass -/

/-- What the pass leaves of nodes behind one that stays. -/
def leftBehind (drop : Comment → Bool) (nodes : List Node) : List Node :=
  strip (Node.isDropped drop) false [] (nodes.map (Node.dropInterior drop))

/-- The line comments that the pass leaves are those that are not dropped, and what
follows them is what the pass leaves of what followed. -/
theorem linesEnd_strip_iff {drop : Comment → Bool} {nodes : List Node} {atStart : Bool}
    {space : Text} :
    LinesEnd (strip (Node.isDropped drop) atStart space (nodes.map (Node.dropInterior drop))) ↔
      AtComments (fun own after => own.kind = .line → drop own = false →
        opensLine (leftBehind drop after) = true) nodes := by
  induction nodes generalizing atStart space with
  | nil =>
      rw [List.map_nil, strip, linesEnd_consWhite_iff]
      exact iff_of_true (atComments_nil _) (atComments_nil _)
  | cons node nodes inductionHypothesis =>
      rw [List.map_cons, strip, Node.isDropped_dropInterior, atComments_cons_iff]
      cases node with
      | comment own =>
          cases goes : drop own with
          | true => simp [Node.isDropped, goes, linesEnd_closeUp_iff, inductionHypothesis]
          | false =>
              simp only [Node.isDropped, goes, Node.dropInterior, white?, Bool.false_eq_true,
                if_false]
              rw [linesEnd_consWhite_iff, LinesEnd, atComments_cons_iff, ← LinesEnd,
                inductionHypothesis]
              simp [goes, leftBehind]
      | trivia text =>
          simp [Node.isDropped, Node.dropInterior, white?, linesEnd_consWhite_iff,
            inductionHypothesis]
      | code text | importing declaration | exporting declaration =>
          simp only [Node.isDropped, Node.dropInterior, white?, Bool.false_eq_true, if_false]
          rw [linesEnd_consWhite_iff, LinesEnd, atComments_cons_iff, ← LinesEnd,
            inductionHypothesis]
          simp

/-- The nodes behind comments that go, each with white space before it that has no line
feed. -/
def pastDropped (drop : Comment → Bool) : List Node → List Node
  | .comment own :: nodes => if drop own then pastDropped drop nodes else .comment own :: nodes
  | .trivia text :: .comment own :: nodes =>
    if drop own && !text.contains '\n' then pastDropped drop nodes
    else .trivia text :: .comment own :: nodes
  | nodes => nodes

/-- White space that keeps its front begins a line as before. -/
theorem opensLine_consWhite {space part : Text} (front : part <+: space) (nonempty : part ≠ [])
    (nodes others : List Node) :
    opensLine (consWhite part nodes) = opensLine (consWhite space others) := by
  obtain ⟨c, text, rfl⟩ := List.exists_cons_of_ne_nil nonempty
  obtain ⟨more, rfl⟩ := front
  rfl

/-- White space without a line feed goes with the comment behind it. -/
theorem closeUp_of_noBreak {space : Text} (noBreak : space.contains '\n' = false)
    (nodes : List Node) : closeUp false space nodes = nodes := by
  rw [closeUp, noBreak]
  rfl

/-- White space with a line feed keeps its front. -/
theorem opensLine_closeUp {space : Text} (breaks : space.contains '\n' = true)
    (nodes others : List Node) :
    opensLine (closeUp false space nodes) = opensLine (consWhite space others) := by
  have nonempty : space ≠ [] := by
    rintro rfl
    cases breaks
  unfold closeUp
  split
  · exact opensLine_consWhite (dropLastLine_isPrefix space) (dropLastLine_ne_nil breaks) _ _
  · exact opensLine_consWhite (List.prefix_refl _) nonempty _ _

theorem leftBehind_dropped {drop : Comment → Bool} {own : Comment}
    (goes : (Node.comment own).isDropped drop = true) (nodes : List Node) :
    leftBehind drop (.comment own :: nodes) = leftBehind drop nodes :=
  (strip_cons_dropped goes ..).trans (closeUp_of_noBreak rfl _)

theorem leftBehind_trivia (drop : Comment → Bool) (text : Text) (nodes : List Node) :
    leftBehind drop (.trivia text :: nodes) =
      strip (Node.isDropped drop) false text (nodes.map (Node.dropInterior drop)) :=
  strip_cons_white rfl ..

/-- White space stays in front of a node that does. -/
theorem exists_leftBehind_trivia {drop : Comment → Bool} {nodes : List Node}
    (stays : nodes.head?.any (Node.isDropped drop) = false) (text : Text) :
    ∃ others, leftBehind drop (.trivia text :: nodes) = consWhite text others := by
  rw [leftBehind_trivia]
  cases nodes with
  | nil => exact ⟨[], rfl⟩
  | cons node nodes =>
      have stays : (node.dropInterior drop).isDropped drop = false := by
        rwa [Node.isDropped_dropInterior]
      rw [List.map_cons]
      cases isWhite : white? (node.dropInterior drop) with
      | none => exact ⟨_, strip_cons_kept stays isWhite ..⟩
      | some other =>
          rw [white?_eq_some_iff.mp isWhite] at stays ⊢
          exact ⟨_, strip_cons_white stays ..⟩

/-- What is left behind a node begins a line if the nodes do behind the comments that go
with all white space in between. -/
theorem opensLine_leftBehind {drop : Comment → Bool} {nodes : List Node} (filled : Filled nodes) :
    opensLine (leftBehind drop nodes) = opensLine (pastDropped drop nodes) := by
  -- White space that keeps its front, whatever follows it.
  have ofTrivia {text : Text} (nonempty : text ≠ []) (others nodes : List Node) :
      opensLine (consWhite text others) = opensLine (.trivia text :: nodes) := by
    rw [opensLine_consWhite (List.prefix_refl _) nonempty others nodes, consWhite, if_neg nonempty]
    rfl
  fun_induction pastDropped drop nodes with
  | case1 own nodes goes inductionHypothesis =>
      rw [leftBehind_dropped goes, inductionHypothesis (List.forall_mem_cons.mp filled).2]
  | case2 own nodes stays =>
      simp [leftBehind, strip, Node.dropInterior, Node.isDropped, stays, white?, opensLine]
  | case3 text own nodes goes inductionHypothesis =>
      rw [Bool.and_eq_true, Bool.not_eq_true'] at goes
      have isDropped : (Node.comment own).isDropped drop = true := goes.1
      have behind := (List.forall_mem_cons.mp (List.forall_mem_cons.mp filled).2).2
      rw [leftBehind_trivia, ← inductionHypothesis behind]
      exact congrArg opensLine
        ((strip_cons_dropped isDropped ..).trans (closeUp_of_noBreak goes.2 _))
  | case4 text own nodes stays =>
      have nonempty : text ≠ [] := by
        rintro rfl
        exact (List.forall_mem_cons.mp filled).1 rfl
      cases goes : drop own with
      | true =>
          have breaks : text.contains '\n' = true := by simpa [goes] using stays
          have isDropped : (Node.comment own).isDropped drop = true := goes
          rw [leftBehind_trivia]
          refine (congrArg opensLine (strip_cons_dropped isDropped ..)).trans ?_
          exact (opensLine_closeUp breaks _ []).trans (ofTrivia nonempty ..)
      | false =>
          obtain ⟨others, isLeft⟩ :=
            @exists_leftBehind_trivia drop (.comment own :: nodes) goes text
          rw [isLeft, ofTrivia nonempty]
  | case5 nodes noComment noSpace =>
      cases nodes with
      | nil => rfl
      | cons node nodes =>
          cases node with
          | comment own => exact absurd rfl (noComment own nodes)
          | trivia text =>
              have nonempty : text ≠ [] := by
                rintro rfl
                exact (List.forall_mem_cons.mp filled).1 rfl
              have stays : nodes.head?.any (Node.isDropped drop) = false := by
                cases nodes with
                | nil => rfl
                | cons next nodes =>
                    cases next with
                    | comment own => exact absurd rfl (noSpace text own nodes)
                    | _ => rfl
              obtain ⟨others, isLeft⟩ := exists_leftBehind_trivia stays text
              rw [isLeft, ofTrivia nonempty]
          | code text | importing declaration | exporting declaration =>
              refine (congrArg opensLine (strip_cons_kept ?_ ?_ ..)).trans ?_
              all_goals rfl

/-! ## Documents that were read -/

/-- The last nodes of a document stand for its last tokens. -/
theorem Standing.of_suffix {nodes suffix : List Node} {tokens : List Token}
    (standing : Standing nodes tokens) (isSuffix : suffix <:+ nodes) :
    ∃ front back, tokens = front ++ back ∧ Standing suffix back := by
  obtain ⟨before, rfl⟩ := isSuffix
  induction before generalizing tokens with
  | nil => exact ⟨[], tokens, rfl, standing⟩
  | cons node before inductionHypothesis =>
      obtain ⟨block, more, rfl, _, ofMore⟩ := standing_cons_iff.mp standing
      obtain ⟨front, back, rfl, ofSuffix⟩ := inductionHypothesis ofMore
      exact ⟨block ++ front, back, (List.append_assoc ..).symm, ofSuffix⟩

theorem isTagSpace_of_isLineFeed {c : Char} (feed : isLineFeed c = true) : isTagSpace c = true := by
  simp only [isLineFeed, Bool.or_eq_true, beq_iff_eq] at feed
  rcases feed with rfl | rfl
  · decide
  · decide

/-- In a document that was read every line comment ends its line. -/
theorem Standing.linesEnd {nodes : List Node} {tokens : List Token}
    (standing : Standing nodes tokens) (filled : ∀ token ∈ tokens, token.text ≠ [])
    (adjoins : tokens.IsChain Token.Adjoins) : LinesEnd nodes := by
  intro own after isSuffix isLine
  obtain ⟨front, back, rfl, behind⟩ := standing.of_suffix isSuffix
  obtain ⟨block, more, rfl, covers, ofAfter⟩ := standing_cons_iff.mp behind
  cases covers
  cases after with
  | nil => rfl
  | cons node after =>
      obtain ⟨token, rest, rfl, sameWhite, _⟩ := ofAfter.first
      have next := (List.isChain_cons_cons.mp (List.isChain_append.mp adjoins).2.1).1
      obtain ⟨c, text, isText⟩ := List.exists_cons_of_ne_nil (filled token (by simp))
      have feed : isLineFeed c = true := by
        simpa [isText] using next.lineComment (by simp [isLine, CommentKind.token])
      have isWhite := next.blank (by simp [isLine, CommentKind.token, Token.isTrivia])
        (by simpa [isText] using isTagSpace_of_isLineFeed feed)
      obtain ⟨kind, tokenText⟩ := token
      obtain rfl : kind = .whitespace := isWhite
      obtain rfl : tokenText = c :: text := isText
      obtain rfl := white?_eq_some_iff.mp sameWhite
      exact feed

theorem linesEnd_stripAll_iff {dropped : Node → Bool} {nodes : List Node} :
    LinesEnd (stripAll dropped nodes) ↔ LinesEnd (strip dropped true [] nodes) := by
  rcases stripAll_cases dropped nodes with same | ⟨text, _, _, same⟩
  · rw [same]
  · rw [same, linesEnd_white_iff]

/-- Whether line comments end their lines after a removal, told before it. -/
theorem linesEnd_removeComments {drop : Comment → Bool} {document : Document}
    (filled : Filled document.nodes) :
    LinesEnd (document.removeComments drop).nodes ↔
      AtComments (fun own after => own.kind = .line → drop own = false →
        opensLine (pastDropped drop after) = true) document.nodes := by
  rw [nodes_removeComments filled, linesEnd_stripAll_iff, linesEnd_strip_iff]
  refine forall₃_congr fun own after isSuffix => ?_
  have filledAfter : Filled after := fun node member =>
    filled node (isSuffix.mem (List.mem_cons_of_mem _ member))
  simp only [opensLine_leftBehind filledAfter]

/-- White space without a line feed behind a line comment begins with a carriage return,
and in front of a comment no line feed follows it. -/
theorem Standing.exists_bare {nodes : List Node} {tokens : List Token}
    (standing : Standing nodes tokens) {source : Text} (scans : Scans source tokens)
    {own goes : Comment} {text : Text} {after : List Node}
    (isSuffix : .comment own :: .trivia text :: .comment goes :: after <:+ nodes)
    (isLine : own.kind = .line) (noFeed : '\n' ∉ text) :
    ∃ before behind, source = before ++ '\r' :: behind ∧ behind.head? ≠ some '\n' := by
  have opens := standing.linesEnd scans.text_ne_nil scans.adjoins own _ isSuffix isLine
  obtain ⟨front, back, rfl, ofSuffix⟩ := standing.of_suffix isSuffix
  obtain ⟨_, _, rfl, ofOwn, ofRest⟩ := standing_cons_iff.mp ofSuffix
  obtain ⟨_, _, rfl, ofTrivia, ofRest⟩ := standing_cons_iff.mp ofRest
  obtain ⟨_, more, rfl, ofGoes, _⟩ := standing_cons_iff.mp ofRest
  cases ofOwn
  cases ofTrivia
  cases ofGoes
  have slash : goes.text.head? = some '/' := by
    have lexeme := (scans.sound ⟨goes.kind.token, goes.text⟩ (by simp)).lexeme
      (.inr (by cases goes.kind <;> rfl))
    obtain ⟨kind, goesText⟩ := goes
    cases kind <;> cases lexeme <;> rfl
  cases text with
  | nil => cases opens
  | cons c text =>
      obtain rfl : c = '\r' := by
        have feed : isLineFeed c = true := opens
        simp only [isLineFeed, Bool.or_eq_true, beq_iff_eq] at feed
        exact feed.resolve_left fun isFeed => noFeed (by simp [isFeed])
      refine ⟨Token.spell front ++ own.text, text ++ (goes.text ++ Token.spell more), ?_, ?_⟩
      · rw [← scans.spell_eq]
        simp
      · cases text with
        | nil => simp [slash]
        | cons d text =>
            intro isFeed
            obtain rfl : d = '\n' := by simpa using isFeed
            exact noFeed (by simp)

/-- Where comments are removed from a document that was read, every line comment that
stays still ends its line exactly if this is so wherever white space without a line feed
goes from behind one.  In a source text all of whose carriage returns stand before line
feeds there is no such white space. -/
theorem linesEnd_removeComments_iff {source : Text} {document : Document}
    (parsed : Document.parse source = .ok document) (drop : Comment → Bool) :
    (LinesEnd (document.removeComments drop).nodes ↔
      ∀ own text goes after,
        .comment own :: .trivia text :: .comment goes :: after <:+ document.nodes →
        own.kind = .line → drop own = false → drop goes = true → '\n' ∉ text →
        opensLine (pastDropped drop after) = true) ∧
    ((∀ before after, source = before ++ '\r' :: after → after.head? = some '\n') →
      LinesEnd (document.removeComments drop).nodes) := by
  obtain ⟨tokens, scanned, standing⟩ := standing_of_parse parsed
  have scans := tokenize_eq_ok_iff.mp scanned
  have filled := standing.filled (filled_of_tokenize scanned)
  have linesEnd := standing.linesEnd scans.text_ne_nil scans.adjoins
  have exactly : LinesEnd (document.removeComments drop).nodes ↔
      ∀ own text goes after,
        .comment own :: .trivia text :: .comment goes :: after <:+ document.nodes →
        own.kind = .line → drop own = false → drop goes = true → '\n' ∉ text →
        opensLine (pastDropped drop after) = true := by
    rw [linesEnd_removeComments filled]
    constructor
    · intro all own text goes after isSuffix isLine stays isDropped noFeed
      simpa [pastDropped, isDropped, noFeed] using all own _ isSuffix isLine stays
    · intro all own after isSuffix isLine stays
      have opens := linesEnd own after isSuffix isLine
      -- Nothing goes from behind the comment unless white space without a line feed does.
      fun_cases pastDropped drop after with
      | case1 goes nodes isDropped => cases opens
      | case2 goes nodes stays => cases opens
      | case3 text goes nodes isDropped =>
          rw [Bool.and_eq_true, Bool.not_eq_true'] at isDropped
          exact all own text goes nodes isSuffix isLine stays isDropped.1
            (by simpa using isDropped.2)
      | case4 | case5 => exact opens
  refine ⟨exactly, fun paired => exactly.mpr ?_⟩
  intro own text goes after isSuffix isLine _ _ noFeed
  obtain ⟨before, behind, isSource, bare⟩ := standing.exists_bare scans isSuffix isLine noFeed
  exact absurd (paired before behind isSource) bare

/-- A carriage return that ended a line goes with the pragma behind it, and the line feed
behind the pragma takes its place. -/
theorem linesEnd_removeComments_iff_return :
    ∃ document, Document.parse "// a\r/* @flow */\nb".toList = .ok document ∧
      (document.removeComments Comment.isPragma).nodes =
        [.comment ⟨.line, "// a".toList⟩, .trivia ['\n'], .code ['b']] ∧
      LinesEnd (document.removeComments Comment.isPragma).nodes := by
  have parsed : Document.parse "// a\r/* @flow */\nb".toList = .ok
      { nodes := [.comment ⟨.line, "// a".toList⟩, .trivia ['\r'],
          .comment ⟨.block, "/* @flow */".toList⟩, .trivia ['\n'], .code ['b']] } := by
    decide +kernel
  refine ⟨_, parsed, by decide +kernel,
    (linesEnd_removeComments_iff parsed Comment.isPragma).1.mpr ?_⟩
  intro own text goes after isSuffix
  simp only [List.suffix_cons_iff, List.cons.injEq, Node.comment.injEq, reduceCtorEq, false_and,
    List.suffix_nil, and_false, or_false] at isSuffix
  obtain ⟨_, _, _, rfl⟩ := isSuffix
  exact fun _ _ _ _ => rfl

/-- Where nothing takes the place of the carriage return, the line comment runs on. -/
theorem linesEnd_removeComments_swallowed :
    ∃ document, Document.parse "// a\r/* @flow */ b".toList = .ok document ∧
      (document.removeComments Comment.isPragma).print {} = "// a b".toList ∧
      ¬LinesEnd (document.removeComments Comment.isPragma).nodes := by
  have parsed : Document.parse "// a\r/* @flow */ b".toList = .ok
      { nodes := [.comment ⟨.line, "// a".toList⟩, .trivia ['\r'],
          .comment ⟨.block, "/* @flow */".toList⟩, .trivia [' '], .code ['b']] } := by
    decide +kernel
  refine ⟨_, parsed, by decide +kernel, fun ends => ?_⟩
  have opens := ends ⟨.line, "// a".toList⟩ [.trivia [' '], .code ['b']]
    (by decide +kernel) rfl
  cases opens

end Deflow
