import Deflow.Document.CommentRemoval
import Deflow.Proofs.Document.Standing

/-!
# Comments stripped in one pass

Comments are removed one by one, by their places and the last one first, and
each time white space of no length is cleared away everywhere.  This file says
what comes of it: one pass from the front, which holds back white space until it
is known whether a comment goes behind it.  The pass makes no difference between
nodes and tokens, so that it can be followed on both.
-/

namespace Deflow

open Script

/-! ## The pass -/

/-- Things some of which are white space. -/
class Spaced (α : Type) where
  /-- The text of white space. -/
  white? : α → Option Text
  /-- White space of a text. -/
  white : Text → α
  white?_eq_some_iff {thing : α} {text : Text} : white? thing = some text ↔ thing = white text

instance : Spaced Node where
  white?
    | .trivia text => some text
    | _ => none
  white := .trivia
  white?_eq_some_iff {node text} := by
    cases node <;> simp

instance : Spaced Token where
  white?
    | ⟨.whitespace, text⟩ => some text
    | _ => none
  white text := ⟨.whitespace, text⟩
  white?_eq_some_iff {token text} := by
    obtain ⟨kind, tokenText⟩ := token
    cases kind <;> simp

open Spaced

variable {α : Type} [Spaced α]

@[simp]
theorem white?_white (text : Text) : white? (white text : α) = some text :=
  white?_eq_some_iff.mpr rfl

/-- Puts white space in front, unless it has no length. -/
def consWhite (text : Text) (things : List α) : List α :=
  if text = [] then things else white text :: things

/-- Whether only blanks stand in front of the next line end. -/
def blankToLineEnd : List α → Bool
  | [] => true
  | first :: rest =>
    match white? first with
    | none => false
    | some text =>
      let text := text.dropWhile isIndent
      startsWithLineEnd text || (text.isEmpty && rest.isEmpty)

/-- Drops blanks and the line end behind them. -/
def dropBlankLine : List α → List α
  | [] => []
  | first :: rest =>
    match white? first with
    | none => first :: rest
    | some text => consWhite (dropLineEnd (text.dropWhile isIndent)) rest

/-- What is left where a comment goes between `space` and `rest`.  White space
and the comment may be the first things of all. -/
def closeUp (atStart : Bool) (space : Text) (rest : List α) : List α :=
  if (atStart || space.contains '\n') && blankToLineEnd rest then
    consWhite (dropLastLine space) (dropBlankLine rest)
  else
    consWhite (if space.contains '\n' then space else []) rest

/-- Takes out what `dropped` holds of.  The white space `space` is held back. -/
def strip (dropped : α → Bool) (atStart : Bool) (space : Text) : List α → List α
  | [] => consWhite space []
  | first :: rest =>
    if dropped first then
      closeUp atStart space (strip dropped false [] rest)
    else
      match white? first with
      | some text => consWhite space (strip dropped (atStart && space.isEmpty) text rest)
      | none => consWhite space (first :: strip dropped false [] rest)

theorem strip_cons_dropped {dropped : α → Bool} {first : α} (goes : dropped first = true)
    (atStart : Bool) (space : Text) (rest : List α) :
    strip dropped atStart space (first :: rest) =
      closeUp atStart space (strip dropped false [] rest) := by
  rw [strip, if_pos goes]

theorem strip_cons_white {dropped : α → Bool} {text : Text} (stays : dropped (white text) = false)
    (atStart : Bool) (space : Text) (rest : List α) :
    strip dropped atStart space (white text :: rest) =
      consWhite space (strip dropped (atStart && space.isEmpty) text rest) := by
  simp only [strip, stays, white?_white, Bool.false_eq_true, if_false]

theorem strip_cons_kept {dropped : α → Bool} {first : α} (stays : dropped first = false)
    (notWhite : white? first = none) (atStart : Bool) (space : Text) (rest : List α) :
    strip dropped atStart space (first :: rest) =
      consWhite space (first :: strip dropped false [] rest) := by
  simp only [strip, stays, notWhite, Bool.false_eq_true, if_false]

/-- Whether `dropped` holds of the first thing that is no white space. -/
def clearsHead (dropped : α → Bool) (things : List α) : Bool :=
  (things.dropWhile fun thing => (white? thing).isSome).head?.any dropped

/-- Takes out what `dropped` holds of, and blank white space at a beginning that
was cleared. -/
def stripAll (dropped : α → Bool) (things : List α) : List α :=
  match strip dropped true [] things with
  | [] => []
  | first :: rest =>
    if clearsHead dropped things && (white? first).any Text.isBlank then rest else first :: rest

/-- The pass over all things is done, or blank white space goes from a beginning that it
cleared. -/
theorem stripAll_cases (dropped : α → Bool) (things : List α) :
    stripAll dropped things = strip dropped true [] things ∨
      ∃ text : Text, text.isBlank = true ∧ clearsHead dropped things = true ∧
        strip dropped true [] things = white text :: stripAll dropped things := by
  unfold stripAll
  split
  · rename_i empty
    exact .inl empty.symm
  · rename_i first rest isStripped
    split
    · rename_i clears
      rw [Bool.and_eq_true, Option.any_eq_true] at clears
      obtain ⟨clears, text, isWhite, blank⟩ := clears
      obtain rfl := white?_eq_some_iff.mp isWhite
      exact .inr ⟨text, blank, clears, isStripped⟩
    · exact .inl isStripped.symm

/-! ## White space of no length -/

@[simp]
theorem consWhite_nil (things : List α) : consWhite [] things = things :=
  rfl

theorem consWhite_append (text : Text) (first second : List α) :
    consWhite text (first ++ second) = consWhite text first ++ second := by
  unfold consWhite
  split <;> rfl

/-- None of the things is white space of no length. -/
def Filled (things : List α) : Prop :=
  ∀ thing ∈ things, white? thing ≠ some []

theorem Filled.consWhite {things : List α} (filled : Filled things) (text : Text) :
    Filled (consWhite text things) := by
  unfold Deflow.consWhite
  split
  · exact filled
  · rename_i nonempty
    exact List.forall_mem_cons.mpr ⟨by simpa using nonempty, filled⟩

theorem Filled.dropBlankLine {things : List α} (filled : Filled things) :
    Filled (dropBlankLine things) := by
  cases things with
  | nil => exact filled
  | cons first rest =>
      simp only [Deflow.dropBlankLine]
      split
      · exact filled
      · exact Filled.consWhite (List.forall_mem_cons.mp filled).2 _

theorem Filled.closeUp {things : List α} (filled : Filled things) (atStart : Bool) (space : Text) :
    Filled (closeUp atStart space things) := by
  unfold Deflow.closeUp
  split
  · exact filled.dropBlankLine.consWhite _
  · exact filled.consWhite _

/-- The pass leaves no white space of no length. -/
theorem Filled.strip {things : List α} (filled : Filled things) (dropped : α → Bool)
    (atStart : Bool) (space : Text) : Filled (strip dropped atStart space things) := by
  induction things generalizing atStart space with
  | nil => exact filled.consWhite space
  | cons first rest inductionHypothesis =>
      obtain ⟨ofFirst, ofRest⟩ := List.forall_mem_cons.mp filled
      simp only [Deflow.strip]
      split
      · exact (inductionHypothesis ofRest _ _).closeUp _ _
      · split
        · exact (inductionHypothesis ofRest _ _).consWhite _
        · exact Filled.consWhite
            (List.forall_mem_cons.mpr ⟨ofFirst, inductionHypothesis ofRest _ _⟩) _

/-! ## What stays -/

/-- Of the things that are no white space, those that are not dropped stay, in
order. -/
theorem filter_strip {dropped test : α → Bool} (noWhite : ∀ text, test (white text) = false)
    (atStart : Bool) (space : Text) (things : List α) :
    (strip dropped atStart space things).filter test =
      things.filter fun thing => test thing && !dropped thing := by
  have ofWhite (text : Text) (things : List α) :
      (consWhite text things).filter test = things.filter test := by
    unfold consWhite
    split
    · rfl
    · rw [List.filter_cons_of_neg (by simp [noWhite])]
  have ofLine (things : List α) : (dropBlankLine things).filter test = things.filter test := by
    cases things with
    | nil => rfl
    | cons first rest =>
        simp only [dropBlankLine]
        split
        · rfl
        · rename_i isWhite
          obtain rfl := white?_eq_some_iff.mp isWhite
          rw [ofWhite, List.filter_cons_of_neg (by simp [noWhite])]
  induction things generalizing atStart space with
  | nil => exact ofWhite space []
  | cons first rest inductionHypothesis =>
      rw [strip, List.filter_cons]
      split
      · rename_i isDropped
        simp only [isDropped, Bool.not_true, Bool.and_false, Bool.false_eq_true, if_false]
        unfold closeUp
        split
        · rw [ofWhite, ofLine, inductionHypothesis]
        · rw [ofWhite, inductionHypothesis]
      · rename_i stays
        simp only [stays, Bool.not_false, Bool.and_true]
        split
        · rename_i isWhite
          obtain rfl := white?_eq_some_iff.mp isWhite
          simp only [noWhite, Bool.false_eq_true, if_false]
          rw [ofWhite, inductionHypothesis]
        · rw [ofWhite, List.filter_cons, inductionHypothesis]

theorem filter_stripAll {dropped test : α → Bool} (noWhite : ∀ text, test (white text) = false)
    (things : List α) :
    (stripAll dropped things).filter test =
      things.filter fun thing => test thing && !dropped thing := by
  rw [← filter_strip noWhite true [] things]
  rcases stripAll_cases dropped things with same | ⟨text, _, _, same⟩
  · rw [same]
  · rw [same, List.filter_cons_of_neg (by simp [noWhite])]

/-! ## Removing one by one -/

/-- A comment that is dropped is no white space. -/
theorem white?_of_isDropped {drop : Comment → Bool} {node : Node}
    (dropped : node.isDropped drop = true) : white? node = none := by
  cases node <;> first | rfl | simp [Node.isDropped] at dropped

theorem isEmptyTrivia_iff {node : Node} : node.isEmptyTrivia = true ↔ white? node = some [] := by
  cases node <;> simp [Node.isEmptyTrivia, white?]

theorem isTrivia_eq (node : Node) : node.isTrivia = (white? node).isSome := by
  cases node <;> rfl

/-- Nothing is cleared away where nothing is empty. -/
theorem filter_filled {nodes : List Node} (filled : Filled nodes) :
    nodes.filter (!·.isEmptyTrivia) = nodes := by
  refine List.filter_eq_self.mpr fun node member => ?_
  have notEmpty := filled node member
  simpa [← isEmptyTrivia_iff] using notEmpty

/-- White space of no length is cleared away. -/
theorem filter_cons_white (text : Text) (nodes : List Node) :
    (Node.trivia text :: nodes).filter (!·.isEmptyTrivia) =
      consWhite text (nodes.filter (!·.isEmptyTrivia)) := by
  cases text with
  | nil => rfl
  | cons c text => rfl

theorem endsLine_eq (nodes : List Node) : endsLine nodes = blankToLineEnd nodes := by
  cases nodes with
  | nil => rfl
  | cons node nodes => cases node <;> rfl

/-- Where a line starts. -/
theorem startsLine_eq {before : List Node} {space : Text}
    (noSpace : space = [] → ∀ last ∈ before.getLast?, white? last = none) :
    startsLine (before ++ consWhite space []) = (before.isEmpty || space.contains '\n') := by
  by_cases empty : space = []
  · subst empty
    rw [consWhite_nil, List.append_nil]
    unfold startsLine
    cases isLast : before.getLast? with
    | none => simp [List.getLast?_eq_none_iff.mp isLast]
    | some last =>
        have notEmpty : before.isEmpty = false := by
          cases before with
          | nil => simp at isLast
          | cons => rfl
        have notWhite := noSpace rfl last isLast
        cases last <;> simp_all [white?]
  · have isFirst : (before.length == 0) = before.isEmpty := by
      cases before <;> rfl
    simp [startsLine, consWhite, empty, white, isFirst, Bool.or_comm]

/-- A change to the white space before a comment. -/
theorem filter_mapLastTrivia {before : List Node} {space : Text} (filled : Filled before)
    (noSpace : space = [] → ∀ last ∈ before.getLast?, white? last = none) (change : Text → Text)
    (keeps : change [] = []) :
    (mapLastTrivia change (before ++ consWhite space [])).filter (!·.isEmptyTrivia) =
      before ++ consWhite (change space) [] := by
  by_cases empty : space = []
  · subst empty
    have unchanged : mapLastTrivia change before = before := by
      unfold mapLastTrivia
      split
      · rename_i text isLast
        cases noSpace rfl _ isLast
      · rfl
    rw [consWhite_nil, List.append_nil, unchanged, filter_filled filled, keeps, consWhite_nil,
      List.append_nil]
  · have changed : mapLastTrivia change (before ++ consWhite space []) =
        before ++ [.trivia (change space)] := by
      simp [mapLastTrivia, consWhite, empty, white]
    rw [changed, List.filter_append, filter_filled filled, filter_cons_white]
    rfl

/-- A change to the white space behind a comment. -/
theorem filter_mapFirstTrivia {after : List Node} (filled : Filled after) :
    (mapFirstTrivia (fun text => dropLineEnd (text.dropWhile isIndent)) after).filter
      (!·.isEmptyTrivia) = dropBlankLine after := by
  cases after with
  | nil => rfl
  | cons node nodes =>
      cases node with
      | trivia text =>
          rw [mapFirstTrivia, filter_cons_white, filter_filled (List.forall_mem_cons.mp filled).2]
          rfl
      | _ => exact filter_filled filled

/-- The nodes around a comment that was removed. -/
theorem filter_closeGap {before after : List Node} {space : Text} (filledBefore : Filled before)
    (filledAfter : Filled after)
    (noSpace : space = [] → ∀ last ∈ before.getLast?, white? last = none) :
    (closeGap (before ++ consWhite space []) after).filter (!·.isEmptyTrivia) =
      before ++ closeUp before.isEmpty space after := by
  unfold closeGap closeUp
  rw [startsLine_eq noSpace, endsLine_eq]
  split
  · rw [List.filter_append, filter_mapLastTrivia filledBefore noSpace _ rfl,
      filter_mapFirstTrivia filledAfter, List.append_assoc, ← consWhite_append, List.nil_append]
  · rw [List.filter_append, filter_mapLastTrivia filledBefore noSpace _ rfl,
      filter_filled filledAfter, List.append_assoc, ← consWhite_append, List.nil_append]

/-- The places of the nodes that pass a test, counted from `start`. -/
def placesFrom (test : Node → Bool) (start : Nat) (nodes : List Node) : List Nat :=
  (nodes.zipIdx start).filterMap fun (node, index) => if test node then some index else none

theorem placesFrom_cons (test : Node → Bool) (start : Nat) (node : Node) (nodes : List Node) :
    placesFrom test start (node :: nodes) =
      if test node then start :: placesFrom test (start + 1) nodes
      else placesFrom test (start + 1) nodes := by
  cases passes : test node <;> simp [placesFrom, passes]

/-- A comment is removed behind nodes that stay. -/
theorem Removal.step_append {before after : List Node} {space : Text} {node : Node}
    (filledBefore : Filled before) (filledAfter : Filled after)
    (noSpace : space = [] → ∀ last ∈ before.getLast?, white? last = none) :
    Removal.step { nodes := before ++ consWhite space [] ++ [node] ++ after }
        (before ++ consWhite space []).length =
      { nodes := before ++ closeUp before.isEmpty space after
        clearedHead := (before ++ consWhite space []).all Node.isTrivia } := by
  have inFront : (before ++ consWhite space [] ++ [node] ++ after).take
      (before ++ consWhite space []).length = before ++ consWhite space [] := by
    rw [List.append_assoc _ [node], List.take_left]
  have behind : (before ++ consWhite space [] ++ [node] ++ after).drop
      ((before ++ consWhite space []).length + 1) = after := by
    rw [← List.length_singleton (a := node), ← List.length_append, List.drop_left]
  simp only [Removal.step, removeNodeAt, inFront, behind, Bool.false_or]
  rw [filter_closeGap filledBefore filledAfter noSpace]
  simp

/-- Removing comments one by one, the last one first, is one pass. -/
theorem foldr_step_eq {drop : Comment → Bool} {nodes : List Node} (filled : Filled nodes)
    {before : List Node} (filledBefore : Filled before) {space : Text}
    (noSpace : space = [] → ∀ last ∈ before.getLast?, white? last = none) :
    (placesFrom (Node.isDropped drop) (before ++ consWhite space []).length nodes).foldr
        (fun index removal => Removal.step removal index)
        { nodes := before ++ consWhite space [] ++ nodes } =
      { nodes := before ++ strip (Node.isDropped drop) before.isEmpty space nodes
        clearedHead := (before ++ consWhite space []).all Node.isTrivia &&
          clearsHead (Node.isDropped drop) nodes } := by
  induction nodes generalizing before space with
  | nil => simp [placesFrom, strip, clearsHead]
  | cons node nodes inductionHypothesis =>
      obtain ⟨ofNode, ofNodes⟩ := List.forall_mem_cons.mp filled
      have filledFront : Filled (before ++ consWhite space []) := by
        have ofSpace : Filled (consWhite space [] : List Node) :=
          Filled.consWhite (by simp [Filled]) space
        exact List.forall_mem_append.mpr ⟨filledBefore, ofSpace⟩
      have notFirst (front : List Node) : (front ++ [node]).isEmpty = false := by
        cases front <;> rfl
      rw [List.append_cons, placesFrom_cons, strip]
      cases isWhite : white? node with
      | none =>
          have notTrivia : node.isTrivia = false := by rw [isTrivia_eq, isWhite]; rfl
          have passed := @inductionHypothesis ofNodes (before ++ consWhite space [] ++ [node])
            (List.forall_mem_append.mpr ⟨filledFront, by simpa [Filled] using ofNode⟩) []
            (by simp [isWhite])
          have oneMore : (before ++ consWhite space [] ++ [node]).length =
              (before ++ consWhite space []).length + 1 := by
            rw [List.length_append, List.length_singleton]
          have noHead : (before ++ consWhite space [] ++ [node]).all Node.isTrivia = false := by
            rw [List.all_append, List.all_cons, notTrivia, Bool.false_and, Bool.and_false]
          rw [consWhite_nil, List.append_nil, oneMore, notFirst, noHead, Bool.false_and] at passed
          by_cases dropped : node.isDropped drop = true
          · rw [if_pos dropped, if_pos dropped, List.foldr_cons, passed,
              Removal.step_append filledBefore (Filled.strip ofNodes _ _ _) noSpace]
            simp [clearsHead, isWhite, dropped]
          · rw [if_neg dropped, if_neg dropped, passed]
            simp [clearsHead, isWhite, dropped, ← consWhite_append]
      | some text =>
          have notDropped : ¬node.isDropped drop = true := by
            intro dropped
            simp [white?_of_isDropped dropped] at isWhite
          obtain rfl := white?_eq_some_iff.mp isWhite
          have nonempty : text ≠ [] := by
            rintro rfl
            exact ofNode isWhite
          rw [if_neg notDropped, if_neg notDropped]
          have held := @inductionHypothesis ofNodes (before ++ consWhite space []) filledFront text
            (fun empty => absurd empty nonempty)
          have single : (consWhite text [] : List Node) = [white text] := if_neg nonempty
          have oneMore : (before ++ consWhite space [] ++ [white text]).length =
              (before ++ consWhite space []).length + 1 := by
            rw [List.length_append, List.length_singleton]
          have atStart : (before ++ consWhite space []).isEmpty =
              (before.isEmpty && space.isEmpty) := by
            cases before <;> cases space <;> rfl
          have sameHead : (before ++ consWhite space [] ++ [white text]).all Node.isTrivia =
              (before ++ consWhite space []).all Node.isTrivia := by
            rw [List.all_append, List.all_cons, isTrivia_eq, isWhite]
            simp
          rw [single, oneMore, atStart, sameHead] at held
          rw [held]
          simp [clearsHead, ← consWhite_append]

theorem foldr_step_placesOf {drop : Comment → Bool} {nodes : List Node} (filled : Filled nodes) :
    (placesOf (Node.isDropped drop) nodes).foldr
        (fun index removal => Removal.step removal index) { nodes } =
      { nodes := strip (Node.isDropped drop) true [] nodes
        clearedHead := clearsHead (Node.isDropped drop) nodes } :=
  @foldr_step_eq drop nodes filled [] (by simp [Filled]) [] (by simp)

theorem filled_map_dropInterior {drop : Comment → Bool} {nodes : List Node} :
    Filled (nodes.map (Node.dropInterior drop)) ↔ Filled nodes := by
  rw [Filled, List.forall_mem_map]
  refine forall₂_congr fun node _ => ?_
  cases node <;> rfl

/-- A document without white space of no length loses its comments in one
pass. -/
theorem nodes_removeComments {drop : Comment → Bool} {document : Document}
    (filled : Filled document.nodes) :
    (document.removeComments drop).nodes =
      stripAll (Node.isDropped drop) (document.nodes.map (Node.dropInterior drop)) := by
  have isRemoval : document.removal drop =
      { nodes := strip (Node.isDropped drop) true [] (document.nodes.map (Node.dropInterior drop))
        clearedHead := clearsHead (Node.isDropped drop)
          (document.nodes.map (Node.dropInterior drop)) } :=
    foldr_step_placesOf (filled_map_dropInterior.mpr filled)
  simp only [Document.removeComments, isRemoval, Removal.finish, stripAll]
  generalize
    strip (Node.isDropped drop) true [] (document.nodes.map (Node.dropInterior drop)) = left
  cases left with
  | nil => rfl
  | cons first rest => cases first <;> simp [white?]

/-! ## Comments inside declarations -/

/-- The comments inside a node's stretch of tokens. -/
def Node.interior : Node → List Comment
  | .importing declaration => declaration.comments
  | .exporting declaration => declaration.comments
  | _ => []

theorem ImportDeclaration.dropComments_eq (drop : Comment → Bool)
    (declaration : ImportDeclaration) :
    declaration.dropComments drop =
      { declaration with
        comments := declaration.comments.filter (!drop ·)
        written := if declaration.comments.any drop then none else declaration.written } := by
  unfold ImportDeclaration.dropComments
  split
  · rfl
  · rename_i noneGoes
    have allStay : declaration.comments.filter (!drop ·) = declaration.comments := by
      simpa using noneGoes
    rw [allStay]

theorem ExportDeclaration.dropComments_eq (drop : Comment → Bool)
    (declaration : ExportDeclaration) :
    declaration.dropComments drop =
      { declaration with
        comments := declaration.comments.filter (!drop ·)
        written := if declaration.comments.any drop then none else declaration.written } := by
  unfold ExportDeclaration.dropComments
  split
  · rfl
  · rename_i noneGoes
    have allStay : declaration.comments.filter (!drop ·) = declaration.comments := by
      simpa using noneGoes
    rw [allStay]

/-- The comments that go from inside a node are those that are dropped. -/
theorem Node.countInterior_eq (drop : Comment → Bool) (node : Node) :
    node.countInterior drop = node.interior.countP drop := by
  have goes (comments : List Comment) :
      comments.length - (comments.filter (!drop ·)).length = comments.countP drop := by
    have all := List.length_eq_countP_add_countP drop (l := comments)
    simp only [Bool.not_eq_true, ← Bool.not_eq_true'] at all
    rw [← List.countP_eq_length_filter]
    simp only [Bool.decide_eq_true] at all
    omega
  cases node with
  | importing declaration =>
      rw [countInterior, ImportDeclaration.dropComments_eq]
      exact goes _
  | exporting declaration =>
      rw [countInterior, ExportDeclaration.dropComments_eq]
      exact goes _
  | _ => rfl

theorem Node.isDropped_dropInterior (drop : Comment → Bool) (node : Node) :
    (node.dropInterior drop).isDropped drop = node.isDropped drop := by
  cases node <;> rfl

theorem length_placesFrom (test : Node → Bool) (start : Nat) (nodes : List Node) :
    (placesFrom test start nodes).length = nodes.countP test := by
  induction nodes generalizing start with
  | nil => rfl
  | cons node nodes inductionHypothesis =>
      rw [placesFrom_cons, List.countP_cons, ← inductionHypothesis (start + 1)]
      split <;> rfl

/-- A removal takes away as many comments of a document as are dropped. -/
theorem Document.countComments_eq (drop : Comment → Bool) (document : Document) :
    document.countComments drop = document.comments.countP drop := by
  have atPlaces : (placesOf (Node.isDropped drop)
      (document.nodes.map (Node.dropInterior drop))).length =
      document.nodes.countP (Node.isDropped drop) := by
    refine (length_placesFrom _ 0 _).trans ?_
    rw [List.countP_map]
    exact List.countP_congr fun node _ => by rw [Function.comp, Node.isDropped_dropInterior]
  simp only [countComments, atPlaces, comments]
  induction document.nodes with
  | nil => rfl
  | cons node nodes inductionHypothesis =>
      rw [List.foldr_cons, List.countP_cons, List.flatMap_cons, List.countP_append,
        ← inductionHypothesis, Node.countInterior_eq]
      have ofNode : node.comments.countP drop =
          node.interior.countP drop + if node.isDropped drop then 1 else 0 := by
        cases node with
        | comment own =>
            cases goes : drop own <;> simp [Node.comments, Node.interior, Node.isDropped, goes]
        | _ => rfl
      omega

/-! ## Nodes and tokens -/

/-- Whether a token is a comment that `drop` holds of. -/
def Script.Token.isDropped (drop : Comment → Bool) (token : Token) : Bool :=
  (Piece.comment? token).any drop

/-- A run of things that stay is left as it is, unless it ends with white
space. -/
theorem strip_append {dropped : α → Bool} {run : List α} (filled : Filled run)
    (stay : ∀ thing ∈ run, dropped thing = false) (ends : ∃ last ∈ run.getLast?, white? last = none)
    (atStart : Bool) (space : Text) (rest : List α) :
    strip dropped atStart space (run ++ rest) =
      consWhite space (run ++ strip dropped false [] rest) := by
  induction run generalizing atStart space with
  | nil => simp at ends
  | cons first run inductionHypothesis =>
      obtain ⟨ofFirst, ofRun⟩ := List.forall_mem_cons.mp filled
      obtain ⟨firstStays, runStays⟩ := List.forall_mem_cons.mp stay
      rw [List.cons_append, strip, firstStays, if_neg Bool.false_ne_true]
      cases isWhite : white? first with
      | some text =>
          cases run with
          | nil => simp [isWhite] at ends
          | cons second run =>
              have nonempty : text ≠ [] := by
                rintro rfl
                exact ofFirst isWhite
              obtain rfl := white?_eq_some_iff.mp isWhite
              have behind := inductionHypothesis ofRun runStays (by simpa using ends)
              simp only [behind]
              rw [consWhite, consWhite, if_neg nonempty]
              rfl
      | none =>
          cases run with
          | nil => rfl
          | cons second run =>
              have behind := inductionHypothesis ofRun runStays (by simpa using ends) false []
              simp only [behind, consWhite_nil]
              rfl

theorem white?_of_not_trivia {token : Token} (meaning : token.isTrivia = false) :
    white? token = none := by
  obtain ⟨kind, text⟩ := token
  cases kind <;> simp_all [white?, Token.isTrivia]

theorem isDropped_of_not_trivia {drop : Comment → Bool} {token : Token}
    (meaning : token.isTrivia = false) : token.isDropped drop = false := by
  rw [Token.isDropped, comment?_eq_none meaning]
  rfl

/-- White space in front of nodes and their tokens. -/
theorem Standing.consWhite {nodes : List Node} {tokens : List Token}
    (standing : Standing nodes tokens) (text : Text) :
    Standing (consWhite text nodes) (consWhite text tokens) := by
  unfold Deflow.consWhite
  split
  · exact standing
  · exact @Standing.cons _ _ [_] _ .trivia standing

/-- Nodes begin with white space if their tokens do. -/
theorem Standing.first {node : Node} {nodes : List Node} {tokens : List Token}
    (standing : Standing (node :: nodes) tokens) :
    ∃ token more, tokens = token :: more ∧ white? node = white? token ∧
      (∀ text, white? node = some text → Standing nodes more) := by
  obtain ⟨block, behind, rfl, covers, more⟩ := standing_cons_iff.mp standing
  cases covers with
  | trivia => exact ⟨_, behind, rfl, rfl, fun _ _ => more⟩
  | @comment own =>
      refine ⟨_, behind, rfl, ?_, fun _ isWhite => by simp [white?] at isWhite⟩
      obtain ⟨kind, text⟩ := own
      cases kind <;> rfl
  | code solid _ | importing solid _ _ | exporting solid _ _ =>
      obtain ⟨first, rest, rfl, meaning⟩ := solid.starts
      exact ⟨first, rest ++ behind, rfl, (white?_of_not_trivia meaning).symm,
        fun _ isWhite => by simp [white?] at isWhite⟩

theorem Standing.eq_nil_iff {nodes : List Node} {tokens : List Token}
    (standing : Standing nodes tokens) : nodes = [] ↔ tokens = [] := by
  cases nodes with
  | nil =>
      cases standing
      simp
  | cons node nodes =>
      obtain ⟨token, more, rfl, _⟩ := standing.first
      simp

/-- Nodes and their tokens have the same end of line in front. -/
theorem Standing.blankToLineEnd_eq {nodes : List Node} {tokens : List Token}
    (standing : Standing nodes tokens) : blankToLineEnd nodes = blankToLineEnd tokens := by
  cases nodes with
  | nil =>
      cases standing
      rfl
  | cons node nodes =>
      obtain ⟨token, more, rfl, sameWhite, behind⟩ := standing.first
      simp only [blankToLineEnd, ← sameWhite]
      cases isWhite : white? node with
      | none => rfl
      | some text =>
          have sameEnd : nodes.isEmpty = more.isEmpty := by
            rw [Bool.eq_iff_iff, List.isEmpty_iff, List.isEmpty_iff,
              (behind text isWhite).eq_nil_iff]
          simp only [sameEnd]

theorem Standing.dropBlankLine {nodes : List Node} {tokens : List Token}
    (standing : Standing nodes tokens) :
    Standing (dropBlankLine nodes) (dropBlankLine tokens) := by
  cases nodes with
  | nil =>
      cases standing
      exact .nil
  | cons node nodes =>
      obtain ⟨token, more, rfl, sameWhite, behind⟩ := standing.first
      simp only [Deflow.dropBlankLine, ← sameWhite]
      cases isWhite : white? node with
      | none => exact standing
      | some text => exact (behind text isWhite).consWhite _

theorem Standing.closeUp {nodes : List Node} {tokens : List Token}
    (standing : Standing nodes tokens) (atStart : Bool) (space : Text) :
    Standing (closeUp atStart space nodes) (closeUp atStart space tokens) := by
  unfold Deflow.closeUp
  rw [standing.blankToLineEnd_eq]
  split
  · exact standing.dropBlankLine.consWhite _
  · exact standing.consWhite _

/-- The token that a comment is. -/
theorem comment?_token (own : Comment) :
    Piece.comment? ⟨own.kind.token, own.text⟩ = some own :=
  comment?_eq_some_iff.mpr rfl

theorem white?_comment (own : Comment) : white? (⟨own.kind.token, own.text⟩ : Token) = none := by
  obtain ⟨kind, text⟩ := own
  cases kind <;> rfl

theorem isDropped_comment (drop : Comment → Bool) (own : Comment) :
    (⟨own.kind.token, own.text⟩ : Token).isDropped drop = drop own := by
  rw [Token.isDropped, comment?_token]
  rfl

/-- Tokens stay if no comment among them goes. -/
theorem isDropped_of_mem {drop : Comment → Bool} {tokens : List Token}
    (comments : ∀ comment ∈ commentsOf tokens, drop comment = false) :
    ∀ token ∈ tokens, token.isDropped drop = false := by
  intro token member
  unfold Token.isDropped
  cases isComment : Piece.comment? token with
  | none => rfl
  | some comment => exact comments comment (List.mem_filterMap.mpr ⟨token, member, isComment⟩)

/-- What stands for a node that is not dropped stays, if nothing inside goes. -/
theorem Node.Covers.strip_append {drop : Comment → Bool} {node : Node} {block : List Token}
    (covers : node.Covers block) (filled : Filled block) (notWhite : white? node = none)
    (stays : node.isDropped drop = false) (inside : ∀ comment ∈ node.interior, drop comment = false)
    (atStart : Bool) (space : Text) (tokens : List Token) :
    strip (Token.isDropped drop) atStart space (block ++ tokens) =
      Deflow.consWhite space (block ++ strip (Token.isDropped drop) false [] tokens) := by
  have solidStays (solid : Solid block)
      (comments : ∀ comment ∈ commentsOf block, drop comment = false) :
      strip (Token.isDropped drop) atStart space (block ++ tokens) =
        Deflow.consWhite space (block ++ strip (Token.isDropped drop) false [] tokens) := by
    obtain ⟨front, last, isBlock, meaning⟩ := solid.ends
    exact Deflow.strip_append filled (isDropped_of_mem comments)
      ⟨last, by simp [isBlock], white?_of_not_trivia meaning⟩ atStart space tokens
  cases covers with
  | trivia => simp [white?] at notWhite
  | @comment own =>
      refine Deflow.strip_append filled ?_ ⟨_, rfl, white?_comment own⟩ atStart space tokens
      simpa [isDropped_comment, Node.isDropped] using stays
  | code solid noComment => exact solidStays solid (by simp [noComment])
  | importing solid comments written | exporting solid comments written =>
      exact solidStays solid (by simpa [Node.interior, comments] using inside)

/-- The pass does the same to nodes and to their tokens, if no comment inside a
declaration goes. -/
theorem Standing.strip {drop : Comment → Bool} {nodes : List Node} {tokens : List Token}
    (standing : Standing nodes tokens) (filled : Filled tokens)
    (inside : ∀ node ∈ nodes, ∀ comment ∈ node.interior, drop comment = false)
    (atStart : Bool) (space : Text) :
    Standing (strip (Node.isDropped drop) atStart space nodes)
      (strip (Token.isDropped drop) atStart space tokens) := by
  induction standing generalizing atStart space with
  | nil => exact Standing.nil.consWhite space
  | @cons node nodes block tokens covers more inductionHypothesis =>
      obtain ⟨ofBlock, ofTokens⟩ := List.forall_mem_append.mp filled
      obtain ⟨ofNode, ofNodes⟩ := List.forall_mem_cons.mp inside
      have behind := inductionHypothesis ofTokens ofNodes
      rw [Deflow.strip]
      by_cases dropped : node.isDropped drop = true
      · rw [if_pos dropped]
        cases covers with
        | @comment own =>
            have tokenDropped : (⟨own.kind.token, own.text⟩ : Token).isDropped drop = true :=
              (isDropped_comment drop own).trans dropped
            rw [List.singleton_append, Deflow.strip, if_pos tokenDropped]
            exact (behind false []).closeUp atStart space
        | _ => simp [Node.isDropped] at dropped
      · rw [if_neg dropped]
        cases isWhite : white? node with
        | none =>
            rw [covers.strip_append ofBlock isWhite (by simpa using dropped) ofNode]
            exact (Standing.cons covers (behind false [])).consWhite space
        | some text =>
            obtain rfl := white?_eq_some_iff.mp isWhite
            obtain rfl := covers_trivia_iff.mp covers
            exact (behind _ text).consWhite space

/-- The first thing that is no white space goes among nodes if it goes among
their tokens. -/
theorem Standing.clearsHead_eq {drop : Comment → Bool} {nodes : List Node} {tokens : List Token}
    (standing : Standing nodes tokens) :
    clearsHead (Node.isDropped drop) nodes = clearsHead (Token.isDropped drop) tokens := by
  have solidHead {block : List Token} (solid : Solid block) (more : List Token) :
      clearsHead (Token.isDropped drop) (block ++ more) = false := by
    obtain ⟨first, rest, rfl, meaning⟩ := solid.starts
    simp [clearsHead, white?_of_not_trivia meaning, isDropped_of_not_trivia meaning]
  induction standing with
  | nil => rfl
  | @cons _ _ _ tokens covers more inductionHypothesis =>
      cases covers with
      | trivia => simpa [clearsHead, white?] using inductionHypothesis
      | @comment own =>
          have ofToken : clearsHead (Token.isDropped drop)
              ([⟨own.kind.token, own.text⟩] ++ tokens) = drop own := by
            simp [clearsHead, white?_comment, isDropped_comment]
          exact ofToken.symm
      | code solid _ | importing solid _ _ | exporting solid _ _ =>
          rw [solidHead solid]
          rfl

/-- Comments are stripped from nodes as they are from their tokens. -/
theorem Standing.stripAll {drop : Comment → Bool} {nodes : List Node} {tokens : List Token}
    (standing : Standing nodes tokens) (filled : Filled tokens)
    (inside : ∀ node ∈ nodes, ∀ comment ∈ node.interior, drop comment = false) :
    Standing (stripAll (Node.isDropped drop) nodes) (stripAll (Token.isDropped drop) tokens) := by
  have stripped := standing.strip filled inside true []
  unfold Deflow.stripAll
  rw [standing.clearsHead_eq]
  cases isStripped : Deflow.strip (Node.isDropped drop) true [] nodes with
  | nil =>
      rw [isStripped] at stripped
      rw [stripped.eq_nil_iff.mp rfl]
      exact .nil
  | cons node rest =>
      rw [isStripped] at stripped
      obtain ⟨token, more, isTokens, sameWhite, behind⟩ := stripped.first
      rw [isTokens] at stripped ⊢
      simp only [← sameWhite]
      split
      · rename_i clears
        rw [Bool.and_eq_true, Option.any_eq_true] at clears
        obtain ⟨_, text, isWhite, _⟩ := clears
        exact behind text isWhite
      · exact stripped

end Deflow
