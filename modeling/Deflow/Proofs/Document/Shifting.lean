import Deflow.Proofs.Document.Clearing
import Mathlib.Data.List.Perm.Basic

/-!
# Comments that move while others go

The places of the comments that are removed are found before any of them goes.
White space of no length is cleared away with the first removal, and the comments
behind it move.  This file says for which documents that does harm: those in
which white space of no length stands in front of two comments that go.  A
document that was read has none.
-/

namespace Deflow

open Spaced

/-! ## One removal -/

section Solid

variable {test : Node → Bool} (noTrivia : ∀ text, test (.trivia text) = false)

include noTrivia

theorem filter_test_mapLastTrivia (change : Text → Text) (nodes : List Node) :
    (mapLastTrivia change nodes).filter test = nodes.filter test := by
  unfold mapLastTrivia
  split
  · rename_i text isLast
    obtain ⟨front, rfl⟩ := List.getLast?_eq_some_iff.mp isLast
    simp [noTrivia]
  · rfl

theorem filter_test_mapFirstTrivia (change : Text → Text) (nodes : List Node) :
    (mapFirstTrivia change nodes).filter test = nodes.filter test := by
  unfold mapFirstTrivia
  split
  · simp [noTrivia]
  · rfl

theorem filter_test_filter (nodes : List Node) :
    (nodes.filter (!·.isEmptyTrivia)).filter test = nodes.filter test := by
  rw [List.filter_filter]
  refine List.filter_congr fun node _ => ?_
  cases node with
  | trivia text => rw [noTrivia, Bool.false_and]
  | _ => exact Bool.and_true _

/-- A removal takes one node besides white space. -/
theorem filter_removeNodeAt (nodes : List Node) (index : Nat) :
    (removeNodeAt nodes index).filter test = (nodes.eraseIdx index).filter test := by
  rw [removeNodeAt, filter_test_filter noTrivia, List.eraseIdx_eq_take_drop_succ,
    List.filter_append, closeGap]
  split
  · rw [List.filter_append, filter_test_mapLastTrivia noTrivia,
      filter_test_mapFirstTrivia noTrivia]
  · rw [List.filter_append, filter_test_mapLastTrivia noTrivia]

end Solid

theorem mapLastTrivia_append (change : Text → Text) (first : List Node) {second : List Node}
    (nonempty : second ≠ []) :
    mapLastTrivia change (first ++ second) = first ++ mapLastTrivia change second := by
  have sameLast : (first ++ second).getLast? = second.getLast? :=
    List.getLast?_append_of_ne_nil _ nonempty
  unfold mapLastTrivia
  rw [sameLast]
  split
  · rw [List.dropLast_append_of_ne_nil nonempty, List.append_assoc]
  · rfl

theorem mapLastTrivia_cons (change : Text → Text) {node : Node} (solid : node.isTrivia = false)
    (nodes : List Node) :
    mapLastTrivia change (node :: nodes) = node :: mapLastTrivia change nodes := by
  cases nodes with
  | nil => cases node <;> first | rfl | cases solid
  | cons => exact mapLastTrivia_append change [node] (List.cons_ne_nil _ _)

theorem filled_filter (nodes : List Node) : Filled (nodes.filter (!·.isEmptyTrivia)) := by
  intro node member
  rw [Ne, ← isEmptyTrivia_iff]
  simpa using (List.mem_filter.mp member).2

/-- In front of a node that is no white space, a removal behind it only clears away white
space of no length. -/
theorem exists_removeNodeAt {front middle after : List Node} {own node : Node}
    (solid : own.isTrivia = false) :
    ∃ rest, Filled rest ∧
      removeNodeAt (front ++ own :: middle ++ node :: after) (front ++ own :: middle).length =
        front.filter (!·.isEmptyTrivia) ++ own :: rest := by
  have notEmpty : own.isEmptyTrivia = false := by
    cases own <;> first | rfl | cases solid
  have inFront (change : Text → Text) (nodes : List Node) :
      (mapLastTrivia change (front ++ own :: middle) ++ nodes).filter (!·.isEmptyTrivia) =
        front.filter (!·.isEmptyTrivia) ++
          own :: (mapLastTrivia change middle ++ nodes).filter (!·.isEmptyTrivia) := by
    rw [mapLastTrivia_append change front (List.cons_ne_nil _ _), mapLastTrivia_cons change solid,
      List.append_assoc, List.filter_append, List.cons_append,
      List.filter_cons_of_pos (by simp [notEmpty])]
  have behind : (front ++ own :: middle ++ node :: after).drop
      ((front ++ own :: middle).length + 1) = after := by
    rw [← List.drop_drop, List.drop_left, List.drop_succ_cons, List.drop_zero]
  rw [removeNodeAt, List.take_left, behind, closeGap]
  split
  · exact ⟨_, filled_filter _, inFront ..⟩
  · exact ⟨_, filled_filter _, inFront ..⟩

/-! ## All removals -/

theorem placesFrom_append (test : Node → Bool) (start : Nat) (first second : List Node) :
    placesFrom test start (first ++ second) =
      placesFrom test start first ++ placesFrom test (start + first.length) second := by
  rw [placesFrom, List.zipIdx_append, List.filterMap_append]
  rfl

theorem placesFrom_eq_nil {test : Node → Bool} {nodes : List Node}
    (fails : nodes.countP test = 0) (start : Nat) : placesFrom test start nodes = [] :=
  List.length_eq_zero_iff.mp ((length_placesFrom test start nodes).trans fails)

/-- The removal of the comments among nodes that `drop` holds of. -/
def removeAll (drop : Comment → Bool) (nodes : List Node) : Removal :=
  (placesFrom (Node.isDropped drop) 0 nodes).foldr
    (fun index removal => Removal.step removal index) { nodes }

variable {drop : Comment → Bool} {front middle after : List Node} {first second : Comment}

@[simp]
theorem Node.isDropped_comment (own : Comment) : (Node.comment own).isDropped drop = drop own :=
  rfl

theorem eraseIdx_at_length (before : List Node) (node : Node) (after : List Node) :
    (before ++ node :: after).eraseIdx before.length = before ++ after := by
  simp [List.eraseIdx_append_of_length_le]

theorem filter_kept {nodes : List Node} (none : nodes.countP (Node.isDropped drop) = 0) :
    nodes.filter (fun node => !node.isTrivia && !node.isDropped drop) =
      nodes.filter (!·.isTrivia) := by
  refine List.filter_congr fun node member => ?_
  have stays := List.countP_eq_zero.mp none node member
  simp [stays]

/-- The last comment that goes is removed first. -/
theorem removeAll_append {before : List Node} {own : Comment} (goes : drop own = true)
    (last : after.countP (Node.isDropped drop) = 0) :
    removeAll drop (before ++ .comment own :: after) =
      (placesFrom (Node.isDropped drop) 0 before).foldr
        (fun index removal => Removal.step removal index)
        { nodes := removeNodeAt (before ++ .comment own :: after) before.length
          clearedHead := before.all Node.isTrivia } := by
  have isLast : placesFrom (Node.isDropped drop) before.length (.comment own :: after) =
      [before.length] := by
    rw [placesFrom_cons, Node.isDropped_comment, if_pos goes, placesFrom_eq_nil last]
  rw [removeAll, placesFrom_append, Nat.zero_add, isLast, List.foldr_append, List.foldr_cons,
    List.foldr_nil, Removal.step, List.take_left]
  simp

/-- A removal of comments stays among the nodes and takes just those it should. -/
def Exact (drop : Comment → Bool) (nodes : List Node) : Prop :=
  (removeAll drop nodes).inRange = true ∧
    (removeAll drop nodes).nodes.filter (!·.isTrivia) =
      nodes.filter fun node => !node.isTrivia && !node.isDropped drop

theorem exact_of_filled {nodes : List Node} (filled : Filled nodes) : Exact drop nodes := by
  have isRemoval : removeAll drop nodes = _ := foldr_step_placesOf filled
  rw [Exact, isRemoval]
  exact ⟨rfl, filter_strip (fun _ => rfl) true [] nodes⟩

/-- Where one comment goes, all white space of no length may go with it. -/
theorem exact_of_single {before : List Node} {own : Comment} (goes : drop own = true)
    (none : before.countP (Node.isDropped drop) = 0)
    (last : after.countP (Node.isDropped drop) = 0) :
    Exact drop (before ++ .comment own :: after) := by
  rw [Exact, removeAll_append goes last, placesFrom_eq_nil none]
  refine ⟨rfl, ?_⟩
  calc
    (removeNodeAt (before ++ .comment own :: after) before.length).filter (!·.isTrivia)
      = (before ++ after).filter (!·.isTrivia) := by
        rw [filter_removeNodeAt (fun _ => rfl), eraseIdx_at_length]
    _ = _ := by
        rw [List.filter_append, List.filter_append, filter_kept none,
          List.filter_cons_of_neg (by simp [goes]), filter_kept last]

/-- What is left behind the second last comment that goes, once the last one is gone. -/
theorem exists_behind (between : middle.countP (Node.isDropped drop) = 0)
    (last : after.countP (Node.isDropped drop) = 0) :
    ∃ rest, Filled rest ∧ rest.countP (Node.isDropped drop) = 0 ∧
      rest.filter (!·.isTrivia) = (middle ++ after).filter (!·.isTrivia) ∧
      removeNodeAt (front ++ .comment first :: middle ++ .comment second :: after)
          (front ++ .comment first :: middle).length =
        front.filter (!·.isEmptyTrivia) ++ .comment first :: rest := by
  obtain ⟨rest, filled, isLeft⟩ :=
    @exists_removeNodeAt front middle after (.comment first) (.comment second) rfl
  have same {test : Node → Bool} (noTrivia : ∀ text, test (.trivia text) = false) :
      rest.filter test = (middle ++ after).filter test := by
    have all := filter_removeNodeAt noTrivia
      (front ++ .comment first :: middle ++ .comment second :: after)
      (front ++ .comment first :: middle).length
    rw [isLeft, eraseIdx_at_length, List.append_assoc, List.filter_append,
      filter_test_filter noTrivia, List.filter_append, List.cons_append,
      List.append_cancel_left_eq] at all
    rw [List.filter_cons, List.filter_cons] at all
    split at all
    · exact (List.cons.inj all).2
    · exact all
  refine ⟨rest, filled, ?_, same fun _ => rfl, isLeft⟩
  rw [List.countP_eq_length_filter, same fun _ => rfl, ← List.countP_eq_length_filter,
    List.countP_append, between, last]

theorem placesFrom_front {rest : List Node} (goes : drop first = true)
    (behind : rest.countP (Node.isDropped drop) = 0) :
    placesFrom (Node.isDropped drop) 0 (front ++ .comment first :: rest) =
      placesFrom (Node.isDropped drop) 0 front ++ [front.length] := by
  rw [placesFrom_append, Nat.zero_add, placesFrom_cons, Node.isDropped_comment, if_pos goes,
    placesFrom_eq_nil behind]

/-- White space of no length behind the second last comment that goes does no harm. -/
theorem exact_of_filled_front (filled : Filled front) (firstGoes : drop first = true)
    (secondGoes : drop second = true) (between : middle.countP (Node.isDropped drop) = 0)
    (last : after.countP (Node.isDropped drop) = 0) :
    Exact drop (front ++ .comment first :: middle ++ .comment second :: after) := by
  obtain ⟨rest, filledRest, behind, sameSolid, isLeft⟩ := exists_behind between last
  rw [filter_filled filled] at isLeft
  have notHead : (front ++ .comment first :: middle).all Node.isTrivia = false := by
    simp [Node.isTrivia]
  have oneLess : removeAll drop (front ++ .comment first :: middle ++ .comment second :: after) =
      removeAll drop (front ++ .comment first :: rest) := by
    rw [removeAll_append secondGoes last, isLeft, notHead, placesFrom_front firstGoes between,
      removeAll, placesFrom_front firstGoes behind]
  have filledLeft : Filled (front ++ .comment first :: rest) :=
    List.forall_mem_append.mpr ⟨filled, List.forall_mem_cons.mpr ⟨by simp [white?], filledRest⟩⟩
  obtain ⟨inRange, solid⟩ := @exact_of_filled drop _ filledLeft
  rw [Exact, oneLess]
  refine ⟨inRange, solid.trans ?_⟩
  rw [List.filter_append, List.filter_cons_of_neg (by simp [firstGoes]), filter_kept behind,
    sameSolid]
  simp [filter_kept between, filter_kept last, firstGoes, secondGoes]

/-! ## Comments that are left -/

theorem countP_removeNodeAt (nodes : List Node) (index : Nat) :
    (removeNodeAt nodes index).countP (Node.isDropped drop) =
      (nodes.eraseIdx index).countP (Node.isDropped drop) := by
  rw [List.countP_eq_length_filter, filter_removeNodeAt (fun _ => rfl),
    ← List.countP_eq_length_filter]

/-- A removal takes one comment at most. -/
theorem countP_step (removal : Removal) (index : Nat) :
    removal.nodes.countP (Node.isDropped drop) ≤
      (removal.step index).nodes.countP (Node.isDropped drop) + 1 := by
  rw [Removal.step, countP_removeNodeAt]
  by_cases inRange : index < removal.nodes.length
  · rw [← (List.getElem_cons_eraseIdx_perm inRange).countP_eq, List.countP_cons]
    split <;> omega
  · rw [List.eraseIdx_of_length_le (Nat.le_of_not_lt inRange)]
    exact Nat.le_add_right ..

theorem countP_foldr_step (removal : Removal) (places : List Nat) :
    removal.nodes.countP (Node.isDropped drop) ≤
      (places.foldr (fun index removal => Removal.step removal index) removal).nodes.countP
        (Node.isDropped drop) + places.length := by
  induction places with
  | nil => exact Nat.le_refl _
  | cons index places inductionHypothesis =>
      have step := @countP_step drop
        (places.foldr (fun index removal => Removal.step removal index) removal) index
      rw [List.foldr_cons, List.length_cons]
      omega

/-- Behind white space of no length the second last comment that goes is missed, and one
comment is left in the end. -/
theorem countP_removeAll_pos (unfilled : ¬Filled front) (firstGoes : drop first = true)
    (secondGoes : drop second = true) (between : middle.countP (Node.isDropped drop) = 0)
    (last : after.countP (Node.isDropped drop) = 0) :
    0 < (removeAll drop
      (front ++ .comment first :: middle ++ .comment second :: after)).nodes.countP
        (Node.isDropped drop) := by
  obtain ⟨rest, _, behind, _, isLeft⟩ := exists_behind between last
  have shorter :
      (front.filter (!·.isEmptyTrivia) ++ [Node.comment first]).length ≤ front.length := by
    rw [List.length_append, List.length_singleton, Nat.succ_le_iff,
      List.length_filter_lt_length_iff_exists]
    simp only [Filled, not_forall, not_not] at unfilled
    obtain ⟨node, member, empty⟩ := unfilled
    exact ⟨node, member, by simp [isEmptyTrivia_iff.mpr empty]⟩
  rw [removeAll_append secondGoes last, isLeft, placesFrom_front firstGoes between,
    List.foldr_append, List.foldr_cons, List.foldr_nil]
  -- The next removal goes to the old place of the comment, which is behind the new one.
  generalize isMissed : Removal.step _ front.length = missed
  have noneBehind (index : Nat) : (rest.eraseIdx index).countP (Node.isDropped drop) = 0 :=
    Nat.eq_zero_of_le_zero (behind ▸ (rest.eraseIdx_sublist index).countP_le)
  have left : missed.nodes.countP (Node.isDropped drop) =
      front.countP (Node.isDropped drop) + 1 := by
    rw [← isMissed, Removal.step, countP_removeNodeAt, List.append_cons,
      List.eraseIdx_append_of_length_le shorter, List.countP_append, noneBehind,
      List.countP_append, List.countP_eq_length_filter, filter_test_filter (fun _ => rfl),
      ← List.countP_eq_length_filter]
    simp [firstGoes]
  have bound := @countP_foldr_step drop missed (placesFrom (Node.isDropped drop) 0 front)
  rw [left, length_placesFrom] at bound
  omega

/-! ## The documents that are safe -/

/-- Wherever two comments go, no white space of no length stands in front of the first. -/
def Unmoved (drop : Comment → Bool) (nodes : List Node) : Prop :=
  ∀ front first middle second after,
    nodes = front ++ .comment first :: middle ++ .comment second :: after →
    drop first = true → drop second = true → Filled front

/-- The last of the comments that go. -/
theorem exists_last_dropped (drop : Comment → Bool) (nodes : List Node) :
    nodes.countP (Node.isDropped drop) = 0 ∨
      ∃ before own after, nodes = before ++ .comment own :: after ∧ drop own = true ∧
        after.countP (Node.isDropped drop) = 0 := by
  induction nodes with
  | nil => exact .inl rfl
  | cons node nodes inductionHypothesis =>
      rcases inductionHypothesis with none | ⟨before, own, after, rfl, goes, last⟩
      · cases isDropped : node.isDropped drop with
        | false => exact .inl (by simp [none, isDropped])
        | true =>
            cases node with
            | comment own => exact .inr ⟨[], own, nodes, rfl, isDropped, none⟩
            | _ => cases isDropped
      · exact .inr ⟨node :: before, own, after, rfl, goes, last⟩

theorem unmoved_of_countP {nodes : List Node} (one : nodes.countP (Node.isDropped drop) ≤ 1) :
    Unmoved drop nodes := by
  rintro front first middle second after rfl firstGoes secondGoes
  simp [firstGoes, secondGoes] at one
  omega

theorem unmoved_iff (firstGoes : drop first = true) (secondGoes : drop second = true)
    (between : middle.countP (Node.isDropped drop) = 0)
    (last : after.countP (Node.isDropped drop) = 0) :
    Unmoved drop (front ++ .comment first :: middle ++ .comment second :: after) ↔
      Filled front := by
  constructor
  · intro unmoved
    exact unmoved front first middle second after rfl firstGoes secondGoes
  · intro filled front' first' middle' second' after' isSplit firstGoes' secondGoes'
    rw [List.append_assoc, List.append_assoc, List.append_eq_append_iff] at isSplit
    rcases isSplit with ⟨more, isFront, isRest⟩ | ⟨more, isFront, isRest⟩
    · cases more with
      | nil => rwa [isFront, List.append_nil]
      | cons _ more =>
          -- Only one comment goes from behind the first.
          have count := congrArg (List.countP (Node.isDropped drop)) (List.cons.inj isRest).2
          simp [firstGoes', secondGoes', secondGoes, between, last] at count
          omega
    · exact fun node member => filled node (isFront ▸ List.mem_append_left more member)

/-- A removal is exact just where no comment is moved. -/
theorem exact_iff {nodes : List Node} : Exact drop nodes ↔ Unmoved drop nodes := by
  rcases exists_last_dropped drop nodes with none | ⟨before, second, after, rfl, secondGoes, last⟩
  · refine iff_of_true ?_ (unmoved_of_countP (by omega))
    rw [Exact, removeAll, placesFrom_eq_nil none]
    exact ⟨rfl, (filter_kept none).symm⟩
  · rcases exists_last_dropped drop before with
      none | ⟨front, first, middle, rfl, firstGoes, between⟩
    · exact iff_of_true (exact_of_single secondGoes none last)
        (unmoved_of_countP (by simp [none, last, secondGoes]))
    · rw [unmoved_iff firstGoes secondGoes between last]
      constructor
      · rintro ⟨_, solid⟩
        by_contra unfilled
        obtain ⟨node, member, goes⟩ := List.countP_pos_iff.mp
          (countP_removeAll_pos unfilled firstGoes secondGoes between last)
        have notTrivia : node.isTrivia = false := by
          rw [isTrivia_eq, white?_of_isDropped goes]
          rfl
        have kept := solid ▸ List.mem_filter.mpr ⟨member, by simp [notTrivia]⟩
        simp [goes] at kept
      · intro filled
        exact exact_of_filled_front filled firstGoes secondGoes between last

theorem unmoved_map_dropInterior {nodes : List Node} :
    Unmoved drop (nodes.map (Node.dropInterior drop)) ↔ Unmoved drop nodes := by
  have isComment {node : Node} {own : Comment} (same : node.dropInterior drop = .comment own) :
      node = .comment own := by
    cases node <;> first | exact same | cases same
  constructor
  · rintro unmoved front first middle second after rfl firstGoes secondGoes
    have filled := unmoved (front.map (Node.dropInterior drop)) first
      (middle.map (Node.dropInterior drop)) second (after.map (Node.dropInterior drop))
      (by simp [Node.dropInterior]) firstGoes secondGoes
    exact filled_map_dropInterior.mp filled
  · intro unmoved front first middle second after isSplit firstGoes secondGoes
    obtain ⟨_, _, rfl, isBefore, isBehind⟩ := List.map_eq_append_iff.mp isSplit
    obtain ⟨_, after, rfl, isSecond, rfl⟩ := List.map_eq_cons_iff.mp isBehind
    obtain ⟨front, _, rfl, rfl, isMiddle⟩ := List.map_eq_append_iff.mp isBefore
    obtain ⟨_, middle, rfl, isFirst, rfl⟩ := List.map_eq_cons_iff.mp isMiddle
    obtain rfl := isComment isFirst
    obtain rfl := isComment isSecond
    exact filled_map_dropInterior.mpr
      (unmoved front first middle second after rfl firstGoes secondGoes)

theorem filterMap_without (nodes : List Node) :
    (nodes.filter (!·.isTrivia)).filterMap (Node.without drop) =
      (nodes.map (Node.dropInterior drop)).filter
        fun node => !node.isTrivia && !node.isDropped drop := by
  induction nodes with
  | nil => rfl
  | cons node nodes inductionHypothesis =>
      have sameKind : (node.dropInterior drop).isTrivia = node.isTrivia := by
        cases node <;> rfl
      rw [List.map_cons, List.filter_cons, List.filter_cons, sameKind, Node.isDropped_dropInterior]
      cases trivia : node.isTrivia with
      | true => exact inductionHypothesis
      | false =>
          cases goes : node.isDropped drop with
          | true => simpa [Node.without_eq, goes] using inductionHypothesis
          | false => simpa [Node.without_eq, goes] using inductionHypothesis

theorem Removal.filter_finish (removal : Removal) :
    removal.finish.filter (!·.isTrivia) = removal.nodes.filter (!·.isTrivia) := by
  unfold finish
  split
  · rename_i isNodes
    rw [isNodes]
    split
    · rfl
    · rfl
  · rfl

/-- Removing comments finds a node at every place and takes just the comments that go, and
keeps every other node besides white space in order, if and only if no white space of no
length stands in front of two comments that go. -/
theorem removeComments_exact_iff (drop : Comment → Bool) (document : Document) :
    (document.removesInRange drop = true ∧
      (document.removeComments drop).nodes.filter (!·.isTrivia) =
        (document.nodes.filter (!·.isTrivia)).filterMap (Node.without drop)) ↔
      Unmoved drop document.nodes := by
  rw [filterMap_without, ← unmoved_map_dropInterior, ← exact_iff, Exact,
    ← Removal.filter_finish (removeAll ..)]
  rfl

/-- White space of no length moves the first comment to the front.  The code behind it goes in its
place, and without code no node is found. -/
theorem removeComments_exact_iff_moved :
    let a : Node := .comment ⟨.block, "/* a */".toList⟩
    let b : Node := .comment ⟨.block, "/* b */".toList⟩
    (Document.removeComments (fun _ => true) { nodes := [.trivia [], a, b, .code ['x']] }).nodes =
        [a] ∧
      Document.removesInRange (fun _ => true) { nodes := [.trivia [], a, b] } = false := by
  decide +kernel

end Deflow
