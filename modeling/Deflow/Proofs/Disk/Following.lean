import Deflow.Disk.FileTree
import Deflow.Proofs.Path.Components

/-!
# Where paths lead

A path to a directory leads where its names lead: idle segments do not matter.  From a
directory, one more name leads to what stands under it, unless that is a link or the
path is refused for its length or for a character in it.  Nothing of this depends on
anything but the directories and links on the way.
-/

namespace Deflow

open Deflow.Path

namespace FileTree

variable {tree : FileTree} {purpose : Purpose} {place goal : Place} {readable : Bool}

/-! ## Names -/

theorem namesOn_eq (path : Path) :
    namesOn path = (Text.splitAt '/' path.text).filter fun segment => !isIdle segment := by
  rw [namesOn, components_eq, List.filterMap_append, List.filterMap_filterMap,
    ← List.filterMap_eq_filter]
  refine Eq.trans (congrArg (· ++ _) (?anchor : _ = [])) ?segments
  case anchor => cases path.split.1 <;> rfl
  case segments =>
    rw [List.nil_append]
    congr 1
    funext segment
    simp only [component?, Option.guard]
    grind

/-! ## Ways to directories -/

/-- From a directory, segments lead to a directory, with so many links allowed. -/
inductive Leads (tree : FileTree) : Nat → Place → List Text → Place → Prop where
  | here {links : Nat} {place : Place} {readable : Bool}
      (stands : tree.get? place = some (.directory readable)) : Leads tree links place [] place
  | idle {links : Nat} {place goal : Place} {readable : Bool} {segment : Text} {rest : List Text}
      (stands : tree.get? place = some (.directory readable)) (isIdle : isIdle segment = true)
      (leads : Leads tree links place rest goal) : Leads tree links place (segment :: rest) goal
  | parent {links : Nat} {place goal : Place} {readable : Bool} {rest : List Text}
      (stands : tree.get? place = some (.directory readable))
      (leads : Leads tree links place.dropLast rest goal) :
      Leads tree links place (['.', '.'] :: rest) goal
  | name {links : Nat} {place goal : Place} {readable inner : Bool} {segment : Text}
      {rest : List Text} (stands : tree.get? place = some (.directory readable))
      (isName : component? segment = some (.name segment)) (short : segment.byteLength ≤ nameLimit)
      (below : tree.get? (place ++ [segment]) = some (.directory inner))
      (leads : Leads tree links (place ++ [segment]) rest goal) :
      Leads tree links place (segment :: rest) goal
  | link {links : Nat} {place goal : Place} {readable : Bool} {segment target : Text}
      {rest : List Text} (stands : tree.get? place = some (.directory readable))
      (isName : component? segment = some (.name segment)) (short : segment.byteLength ≤ nameLimit)
      (below : tree.get? (place ++ [segment]) = some (.link target))
      (leads : Leads tree links (if target.head? == some '/' then [] else place)
        (Text.splitAt '/' target ++ rest) goal) :
      Leads tree (links + 1) place (segment :: rest) goal

theorem component?_eq_name_iff {segment : Text} :
    component? segment = some (.name segment) ↔ isIdle segment = false ∧ segment ≠ ['.', '.'] := by
  unfold component?
  grind

theorem Leads.begins {links : Nat} {segments : List Text}
    (leads : tree.Leads links place segments goal) :
    ∃ readable, tree.get? place = some (.directory readable) := by
  cases leads <;> exact ⟨_, by assumption⟩

theorem Leads.ends {links : Nat} {segments : List Text}
    (leads : tree.Leads links place segments goal) :
    ∃ readable, tree.get? goal = some (.directory readable) := by
  induction leads with
  | here stands => exact ⟨_, stands⟩
  | idle _ _ _ inductionHypothesis | parent _ _ inductionHypothesis
  | name _ _ _ _ _ inductionHypothesis | link _ _ _ _ _ inductionHypothesis =>
      exact inductionHypothesis

theorem leads_of_followSegments {behindLink : Place → List Text → Except OsError Target}
    {links : Nat} {segments : List Text}
    (behind : ∀ start rest, behindLink start rest = .ok (.found goal (.directory readable)) →
      ∃ fewer, links = fewer + 1 ∧ tree.Leads fewer start rest goal)
    (found : tree.followSegments .look behindLink place segments =
      .ok (.found goal (.directory readable))) :
    tree.Leads links place segments goal := by
  fun_induction followSegments tree .look behindLink place segments with
  | case1 place node stands =>
      obtain ⟨rfl, rfl⟩ : place = goal ∧ node = .directory readable := by simpa using found
      exact .here stands
  | case3 place segment rest readable stands isIdle inductionHypothesis =>
      exact .idle stands isIdle (inductionHypothesis found)
  | case4 place rest readable stands notIdle inductionHypothesis =>
      exact .parent stands (inductionHypothesis found)
  | case7 place segment rest readable stands notIdle notParent _ short target isLink start =>
      obtain ⟨fewer, rfl, leads⟩ := behind _ _ found
      exact .link stands (component?_eq_name_iff.mpr ⟨by simpa using notIdle, notParent⟩)
        (Nat.le_of_not_lt short) isLink leads
  | case8 place segment rest readable stands notIdle notParent _ short node notLink isNode
      inductionHypothesis =>
      have leads := inductionHypothesis found
      obtain ⟨inner, isDirectory⟩ := leads.begins
      exact .name stands (component?_eq_name_iff.mpr ⟨by simpa using notIdle, notParent⟩)
        (Nat.le_of_not_lt short) isDirectory leads
  | _ => simp_all

theorem leads_of_follow {links : Nat} {segments : List Text}
    (found : tree.follow .look links place segments = .ok (.found goal (.directory readable))) :
    tree.Leads links place segments goal := by
  induction links generalizing place segments with
  | zero => exact leads_of_followSegments (by simp) found
  | succ links inductionHypothesis =>
      exact leads_of_followSegments
        (fun start rest inner => ⟨links, rfl, inductionHypothesis inner⟩) found

/-! ## Idle segments -/

/-- The segments that lead somewhere. -/
def busy (segments : List Text) : List Text :=
  segments.filter fun segment => !isIdle segment

theorem busy_append (first second : List Text) :
    busy (first ++ second) = busy first ++ busy second :=
  List.filter_append ..

theorem busy_cons {segment : Text} (notIdle : isIdle segment = false) (rest : List Text) :
    busy (segment :: rest) = segment :: busy rest := by
  simp [busy, notIdle]

theorem Leads.append_idles {links : Nat} {idles segments : List Text}
    (areIdle : ∀ segment ∈ idles, isIdle segment = true)
    (leads : tree.Leads links place segments goal) :
    tree.Leads links place (idles ++ segments) goal := by
  induction idles with
  | nil => exact leads
  | cons segment idles inductionHypothesis =>
      rcases List.forall_mem_cons.mp areIdle with ⟨isIdle, others⟩
      obtain ⟨readable, stands⟩ := leads.begins
      exact .idle stands isIdle (inductionHypothesis others)

theorem exists_of_busy_eq_cons {segment : Text} {segments more : List Text}
    (same : busy segments = segment :: more) :
    ∃ idles rest, segments = idles ++ segment :: rest ∧
      (∀ segment ∈ idles, isIdle segment = true) ∧ busy rest = more := by
  obtain ⟨idles, rest, isSplit, areIdle, -, isMore⟩ := List.filter_eq_cons_iff.mp same
  exact ⟨idles, rest, isSplit, by simpa using areIdle, isMore⟩

/-- Segments with the same names lead to the same directory. -/
theorem Leads.of_busy_eq {links : Nat} {segments others : List Text}
    (leads : tree.Leads links place segments goal) (same : busy others = busy segments) :
    tree.Leads links place others goal := by
  induction leads generalizing others with
  | here stands =>
      have areIdle : ∀ segment ∈ others, isIdle segment = true := by
        simpa [busy] using same
      simpa using append_idles areIdle (.here stands)
  | idle stands isIdle leads inductionHypothesis =>
      exact inductionHypothesis (by simpa [busy, isIdle] using same)
  | parent stands leads inductionHypothesis =>
      rw [busy_cons (by decide)] at same
      obtain ⟨idles, rest, rfl, areIdle, sameRest⟩ := exists_of_busy_eq_cons same
      exact append_idles areIdle (.parent stands (inductionHypothesis sameRest))
  | name stands isName short below leads inductionHypothesis =>
      rw [busy_cons (component?_eq_name_iff.mp isName).1] at same
      obtain ⟨idles, rest, rfl, areIdle, sameRest⟩ := exists_of_busy_eq_cons same
      exact append_idles areIdle (.name stands isName short below (inductionHypothesis sameRest))
  | link stands isName short below leads inductionHypothesis =>
      rw [busy_cons (component?_eq_name_iff.mp isName).1] at same
      obtain ⟨idles, rest, rfl, areIdle, sameRest⟩ := exists_of_busy_eq_cons same
      refine append_idles areIdle (.link stands isName short below (inductionHypothesis ?_))
      rw [busy_append, busy_append, sameRest]

/-! ## One more name -/

/-- What a place is for a path that ends there. -/
def targetAt (tree : FileTree) (place : Place) : Target :=
  match tree.get? place with
  | some node => .found place node
  | none => .missing place

section

variable {links : Nat} {segment : Text} {rest : List Text}

theorem follow_nil : tree.follow purpose links place [] = .ok (tree.targetAt place) := by
  cases stands : tree.get? place <;> cases links <;>
    simp [follow, followSegments, targetAt, stands]

theorem follow_idle (stands : tree.get? place = some (.directory readable))
    (idle : isIdle segment = true) :
    tree.follow purpose links place (segment :: rest) = tree.follow purpose links place rest := by
  cases links <;> simp [follow, followSegments, stands, idle]

theorem follow_parent (stands : tree.get? place = some (.directory readable)) :
    tree.follow purpose links place (['.', '.'] :: rest) =
      tree.follow purpose links place.dropLast rest := by
  have notIdle : isIdle ['.', '.'] = false := by decide
  cases links <;> simp [follow, followSegments, stands, notIdle]

/-- A name in front of another, which is no idle one, leads on. -/
theorem follow_cons (stands : tree.get? place = some (.directory readable))
    (isName : component? segment = some (.name segment)) (short : segment.byteLength ≤ nameLimit)
    (more : purpose = .look ∨ onlySlashes rest = false) {node : FileNode}
    (notLink : ∀ target, node ≠ .link target)
    (below : tree.get? (place ++ [segment]) = some node) :
    tree.follow purpose links place (segment :: rest) =
      tree.follow purpose links (place ++ [segment]) rest := by
  obtain ⟨notIdle, notParent⟩ := component?_eq_name_iff.mp isName
  have allowed : (purpose = .write && onlySlashes rest) = false := by
    rcases more with rfl | more <;> simp [*]
  cases node with
  | link target => exact absurd rfl (notLink target)
  | _ => cases links <;>
      simp [follow, followSegments, stands, notIdle, notParent, Nat.not_lt.mpr short,
        allowed, below]

theorem follow_link (stands : tree.get? place = some (.directory readable))
    (isName : component? segment = some (.name segment)) (short : segment.byteLength ≤ nameLimit)
    (more : purpose = .look ∨ onlySlashes rest = false) {target : Text}
    (below : tree.get? (place ++ [segment]) = some (.link target)) :
    tree.follow purpose (links + 1) place (segment :: rest) =
      tree.follow purpose links (if target.head? == some '/' then [] else place)
        (Text.splitAt '/' target ++ rest) := by
  obtain ⟨notIdle, notParent⟩ := component?_eq_name_iff.mp isName
  have allowed : (purpose = .write && onlySlashes rest) = false := by
    rcases more with rfl | more <;> simp [*]
  rw [follow, followSegments, stands]
  simp [notIdle, notParent, Nat.not_lt.mpr short, allowed, below]

/-- The last name leads to what stands under it. -/
theorem follow_last (stands : tree.get? place = some (.directory readable))
    (isName : component? segment = some (.name segment))
    (notLink : ∀ target, tree.get? (place ++ [segment]) ≠ some (.link target)) :
    tree.follow purpose links place [segment] =
      if nameLimit < segment.byteLength then .error .nameTooLong
      else .ok (tree.targetAt (place ++ [segment])) := by
  obtain ⟨notIdle, notParent⟩ := component?_eq_name_iff.mp isName
  have alone : onlySlashes [] = false := rfl
  split
  · rename_i long
    cases links <;> simp [follow, followSegments, stands, notIdle, notParent, long, alone]
  · rename_i short
    cases below : tree.get? (place ++ [segment]) with
    | none =>
        cases links <;> simp [follow, followSegments, stands, notIdle, notParent, short, alone,
          below, targetAt]
    | some node =>
        rw [follow_cons stands isName (Nat.not_lt.mp short) (.inr alone)
          (fun target isLink => ?_) below, follow_nil]
        exact notLink target (isLink ▸ below)

end

theorem onlySlashes_append_name {name : Text} (isName : IsName name) (segments : List Text) :
    onlySlashes (segments ++ [name]) = false := by
  simp [onlySlashes, (isName_iff.mp isName).1]

/-- Behind a way to a directory, one more name leads to what stands under it. -/
theorem Leads.follow_name {links : Nat} {segments : List Text}
    (leads : tree.Leads links place segments goal) {name : Text} (isName : IsName name)
    (notLink : ∀ target, tree.get? (goal ++ [name]) ≠ some (.link target)) :
    tree.follow purpose links place (segments ++ [name]) =
      if nameLimit < name.byteLength then .error .nameTooLong
      else .ok (tree.targetAt (goal ++ [name])) := by
  induction leads with
  | here stands => exact follow_last stands isName.1 notLink
  | idle stands idle leads inductionHypothesis =>
      rw [List.cons_append, follow_idle stands idle, inductionHypothesis notLink]
  | parent stands leads inductionHypothesis =>
      rw [List.cons_append, follow_parent stands, inductionHypothesis notLink]
  | name stands isSegment short below leads inductionHypothesis =>
      rw [List.cons_append, follow_cons stands isSegment short
        (.inr (onlySlashes_append_name isName _)) (by simp) below, inductionHypothesis notLink]
  | link stands isSegment short below leads inductionHypothesis =>
      rw [List.cons_append,
        follow_link stands isSegment short (.inr (onlySlashes_append_name isName _)) below,
        ← List.append_assoc, inductionHypothesis notLink]

/-- A way to a directory leads to it. -/
theorem Leads.follow_goal {links : Nat} {segments : List Text}
    (leads : tree.Leads links place segments goal) :
    tree.follow .look links place segments = .ok (tree.targetAt goal) := by
  induction leads with
  | here stands => exact follow_nil
  | idle stands idle leads inductionHypothesis => rw [follow_idle stands idle, inductionHypothesis]
  | parent stands leads inductionHypothesis => rw [follow_parent stands, inductionHypothesis]
  | name stands isSegment short below leads inductionHypothesis =>
      rw [follow_cons stands isSegment short (.inl rfl) (by simp) below, inductionHypothesis]
  | link stands isSegment short below leads inductionHypothesis =>
      rw [follow_link stands isSegment short (.inl rfl) below, inductionHypothesis]

/-! ## Paths -/

/-- The names on a path lead to a directory. -/
abbrev LeadsTo (tree : FileTree) (path : Path) (goal : Place) : Prop :=
  tree.Leads linkLimit [] (namesOn path) goal

theorem leadsTo_of_locate {path : Path}
    (located : tree.locate .look path = .ok (.found goal (.directory readable))) :
    tree.LeadsTo path goal := by
  unfold locate at located
  split at located; · simp at located
  split at located; · simp at located
  split at located; · simp at located
  refine (leads_of_follow located).of_busy_eq ?_
  rw [namesOn_eq]
  simp [busy]

/-- Why a path with this name at its end is refused, whatever the tree. -/
def refusal? (path : Path) (name : Text) : Option OsError :=
  if path.text.contains '\x00' then some .nulInPath
  else if pathLimit < path.text.byteLength || nameLimit < name.byteLength then some .nameTooLong
  else none

/-- A name behind a directory leads to what stands under it there. -/
theorem LeadsTo.locate_join {directory : Path} (leads : tree.LeadsTo directory goal)
    (purpose : Purpose) {name : Text} (isName : IsName name)
    (notLink : ∀ target, tree.get? (goal ++ [name]) ≠ some (.link target)) :
    tree.locate purpose (directory.join name) =
      match refusal? (directory.join name) name with
      | some error => .error error
      | none => .ok (tree.targetAt (goal ++ [name])) := by
  obtain ⟨front, isJoined, isFront⟩ := directory.exists_splitAt_join isName
  have sameNames : busy front = busy (namesOn directory) := by
    rw [namesOn_eq]
    rcases isFront with isFront | isFront <;> simp [isFront, busy, isIdle]
  have nonempty : (directory.join name).text.isEmpty = false := by
    rw [directory.text_join isName]
    simp [(isName_iff.mp isName).1]
  rw [locate, isJoined, (Leads.of_busy_eq leads sameNames).follow_name isName notLink, nonempty]
  simp only [refusal?, Bool.false_eq_true, if_false]
  grind

end FileTree

end Deflow
