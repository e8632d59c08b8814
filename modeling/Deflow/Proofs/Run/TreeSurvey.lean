import Deflow.Proofs.Disk.Frame
import Deflow.Proofs.Run.Coverage

/-!
# Surveys of trees

In a file tree the directories below a root are surveyed by listing them.  Every listed
directory has distinct names in it, and no directory lies deeper than the tree has nodes.
The files that are met are those that stand in the tree, with all directories on the way
listable and not passed over.
-/

namespace Deflow

open Deflow.Path

namespace FileTree

variable {tree : FileTree} {directory root : Path} {place : Place} {name next : Text}
  {names rest file : List Text} {entries : List DirectoryEntry} {selector : Selector}
  {fate : FileFate}

/-- What the directories below a root list. -/
def survey (tree : FileTree) (root : Path) : Survey :=
  fun names => tree.list (root.below names)

/-! ## Listed directories -/

/-- A directory in a directory leads to its own place, if it can be listed. -/
theorem Opens.join (isTree : tree.IsTree) (opens : tree.Opens directory place)
    (member : ⟨name, true⟩ ∈ tree.entriesAt place)
    (listing : tree.list (directory.join name) = .ok entries) :
    tree.Opens (directory.join name) (place ++ [name]) := by
  obtain ⟨node, stands, -, isDirectory⟩ := isTree.mem_entriesAt_iff.mp member
  obtain ⟨found, isFound, rfl⟩ := list_eq_ok_iff.mp listing
  have notLink : ∀ target, tree.get? (place ++ [name]) ≠ some (.link target) := by
    rintro target isLink
    cases isLink.symm.trans stands
    cases isDirectory
  have joined := (leadsTo_of_locate opens).locate_join .look (isTree.of_snoc stands).1 notLink
  rw [show tree.locate .look (directory.join name) = _ from isFound, targetAt, stands] at joined
  split at joined
  · cases joined
  · obtain ⟨rfl, rfl⟩ := Target.found.inj (Except.ok.inj joined)
    exact isFound

/-- A directory that is listed in the one above it, and so on up to the root, leads to
the place under the names on the way. -/
theorem IsTree.exists_opens (isTree : tree.IsTree) (holds : (tree.survey root).Holds names)
    (listing : tree.survey root names = .ok entries) :
    ∃ base, tree.Opens root base ∧ tree.Opens (root.below names) (base ++ names) := by
  induction holds generalizing entries with
  | root =>
      obtain ⟨base, opens, -⟩ := list_eq_ok_iff.mp listing
      exact ⟨base, opens, by simpa using opens⟩
  | child holds isListing member inductionHypothesis =>
      obtain ⟨base, opens, opensBelow⟩ := inductionHypothesis isListing
      obtain rfl := Except.ok.inj (isListing.symm.trans opensBelow.list)
      rw [survey, below_snoc] at listing
      refine ⟨base, opens, ?_⟩
      rw [below_snoc, ← List.append_assoc]
      exact opensBelow.join isTree member listing

/-- What a listed directory lists stands directly below its place. -/
theorem IsTree.exists_entriesAt (isTree : tree.IsTree) (holds : (tree.survey root).Holds names)
    (listing : tree.survey root names = .ok entries) :
    ∃ base, tree.Opens root base ∧ entries = tree.entriesAt (base ++ names) := by
  obtain ⟨base, opens, opensBelow⟩ := isTree.exists_opens holds listing
  exact ⟨base, opens, Except.ok.inj (listing.symm.trans opensBelow.list)⟩

theorem IsTree.orderly (isTree : tree.IsTree) (root : Path) :
    (tree.survey root).Orderly tree.nodes.length where
  isName holds listing entry member := by
    obtain ⟨base, -, rfl⟩ := isTree.exists_entriesAt holds listing
    exact isTree.isName_of_mem_entriesAt member
  distinct holds listing := by
    obtain ⟨base, -, rfl⟩ := isTree.exists_entriesAt holds listing
    exact isTree.nodup_entriesAt _
  bounded holds listing member := by
    obtain ⟨base, -, rfl⟩ := isTree.exists_entriesAt holds listing
    obtain ⟨node, stands, -⟩ := isTree.mem_entriesAt_iff.mp member
    have := isTree.length_le stands
    simp only [List.length_append, List.length_cons, List.length_nil] at this
    omega

/-! ## Files that a walk comes to -/

/-- In the directory that names lead to from a root, a walk comes to a file. -/
structure ComesTo (tree : FileTree) (selector : Selector) (root : Path) (fate : FileFate)
    (names : List Text) (name : Text) : Prop where
  /-- It is a file. -/
  stands : ∃ base content, tree.Opens root base ∧
    tree.get? (base ++ names ++ [name]) = some (.file content)
  /-- The root and all directories on the way can be listed. -/
  listable : ∀ front, front <+: names → ∃ entries, tree.list (root.below front) = .ok entries
  /-- No directory on the way below the root is passed over. -/
  entered : ∀ front next, front ++ [next] <+: names →
    selector.skipsDirectory (root.below (front ++ [next])) next = false
  hasFate : selector.fileFate (root.below (names ++ [name])) name = fate

theorem comesTo_nil_iff (isTree : tree.IsTree) :
    tree.ComesTo selector root fate [] name ↔
      ∃ entries, tree.list root = .ok entries ∧ name ∈ selector.files fate root entries := by
  simp only [Selector.mem_files_iff]
  constructor
  · rintro ⟨⟨base, content, opens, stands⟩, -, -, hasFate⟩
    rw [List.append_nil] at stands
    exact ⟨_, opens.list, isTree.mem_entriesAt_iff.mpr ⟨_, stands, rfl, rfl⟩, hasFate⟩
  · rintro ⟨entries, listing, member, hasFate⟩
    obtain ⟨base, opens, rfl⟩ := list_eq_ok_iff.mp listing
    obtain ⟨node, stands, isPlain, isFile⟩ := isTree.mem_entriesAt_iff.mp member
    refine ⟨⟨base, ?_⟩, ?_, ?_, hasFate⟩
    · cases node with
      | file content => exact ⟨content, opens, by simpa using stands⟩
      | directory readable => cases isFile
      | link target | special => cases isPlain
    · intro front isFront
      rw [List.prefix_nil.mp isFront]
      exact ⟨_, listing⟩
    · intro front next isFront
      simp at isFront

theorem comesTo_cons_iff (isTree : tree.IsTree) :
    tree.ComesTo selector root fate (next :: names) name ↔
      ∃ entries, tree.list root = .ok entries ∧ next ∈ selector.subdirectories root entries ∧
        tree.ComesTo selector (root.join next) fate names name := by
  simp only [Selector.mem_subdirectories_iff]
  constructor
  · rintro ⟨⟨base, content, opens, stands⟩, listable, entered, hasFate⟩
    have stands : tree.get? ((base ++ [next]) ++ (names ++ [name])) = some (.file content) := by
      simpa using stands
    obtain ⟨readable, isDirectory⟩ := isTree.get?_front (by simp) stands
    have member : ⟨next, true⟩ ∈ tree.entriesAt base :=
      isTree.mem_entriesAt_iff.mpr ⟨_, isDirectory, rfl, rfl⟩
    obtain ⟨entries, listing⟩ := listable [next] (by simp)
    refine ⟨_, opens.list, ⟨member, entered [] next (by simp)⟩,
      ⟨_, content, opens.join isTree member listing, by simpa using stands⟩, ?_, ?_, hasFate⟩
    · exact fun front isFront => listable (next :: front) ((List.prefix_cons_inj next).mpr isFront)
    · exact fun front last isFront =>
        entered (next :: front) last ((List.prefix_cons_inj next).mpr isFront)
  · rintro ⟨entries, listing, ⟨member, isEntered⟩, ⟨inner, content, opensInner, stands⟩,
      listable, entered, hasFate⟩
    obtain ⟨base, opens, rfl⟩ := list_eq_ok_iff.mp listing
    obtain rfl := opensInner.unique (opens.join isTree member opensInner.list)
    refine ⟨⟨base, content, opens, by simpa using stands⟩, ?_, ?_, hasFate⟩
    · intro front isFront
      cases front with
      | nil => exact ⟨_, listing⟩
      | cons first front =>
          obtain ⟨rfl, shorter⟩ := List.cons_prefix_cons.mp isFront
          exact listable front shorter
    · intro front last isFront
      cases front with
      | nil =>
          obtain ⟨rfl, -⟩ := List.cons_prefix_cons.mp isFront
          exact isEntered
      | cons first front =>
          obtain ⟨rfl, shorter⟩ := List.cons_prefix_cons.mp isFront
          exact entered front last shorter

/-- A walk comes to the files that the survey of the tree has. -/
theorem meets_iff_comesTo {choice : Choice} (isTree : tree.IsTree)
    (isFate : ∀ directory entries,
      selector.chosen choice directory entries = selector.files fate directory entries) :
    (tree.survey root).Meets selector root choice names (names ++ (rest ++ [name])) ↔
      tree.ComesTo selector (root.below names) fate rest name := by
  induction rest generalizing names with
  | nil =>
      rw [comesTo_nil_iff isTree]
      cases listing : tree.survey root names with
      | error error =>
          simp [Survey.not_meets listing, show tree.list (root.below names) = _ from listing]
      | ok entries =>
          have notBelow (next : Text) :
              ¬ (tree.survey root).Meets selector root choice (names ++ [next])
                (names ++ [name]) := by
            intro meets
            obtain ⟨rest, last, same⟩ := meets.exists_eq
            simpa using congrArg List.length same
          rw [List.nil_append, Survey.meets_iff listing, isFate,
            show tree.list (root.below names) = _ from listing]
          simp [notBelow]
  | cons next rest inductionHypothesis =>
      rw [comesTo_cons_iff isTree]
      cases listing : tree.survey root names with
      | error error =>
          simp [Survey.not_meets listing, show tree.list (root.below names) = _ from listing]
      | ok entries =>
          have onlyNext {other : Text} (meets : (tree.survey root).Meets selector root choice
              (names ++ [other]) (names ++ (next :: rest ++ [name]))) : other = next := by
            obtain ⟨others, last, same⟩ := meets.exists_eq
            simpa [eq_comm] using congrArg (fun file => (file.drop names.length).head?) same
          have atNext :
              names ++ (next :: rest ++ [name]) = (names ++ [next]) ++ (rest ++ [name]) := by
            simp
          rw [Survey.meets_iff listing, show tree.list (root.below names) = _ from listing,
            ← below_snoc, ← inductionHypothesis]
          constructor
          · rintro (⟨last, -, same⟩ | ⟨other, chosen, meets⟩)
            · simpa using congrArg List.length same
            · obtain rfl := onlyNext meets
              exact ⟨entries, rfl, chosen, atNext ▸ meets⟩
          · rintro ⟨entries, same, chosen, meets⟩
            cases same
            exact .inr ⟨next, chosen, atNext ▸ meets⟩

/-- A walk comes to the same files in a tree of the same frame, if they are files there. -/
theorem ComesTo.of_sameFrame {other : FileTree} (frame : tree.SameFrame other)
    (comesTo : tree.ComesTo selector root fate names name)
    (stillFile : ∀ base content, tree.Opens root base →
      tree.get? (base ++ names ++ [name]) = some (.file content) →
        ∃ content, other.get? (base ++ names ++ [name]) = some (.file content)) :
    other.ComesTo selector root fate names name := by
  obtain ⟨⟨base, content, opens, stands⟩, listable, entered, hasFate⟩ := comesTo
  obtain ⟨content, stands⟩ := stillFile base content opens stands
  refine ⟨⟨base, content, frame.locate opens, stands⟩, fun front isFront => ?_, entered, hasFate⟩
  obtain ⟨entries, listing⟩ := listable front isFront
  obtain ⟨place, opens, -⟩ := list_eq_ok_iff.mp listing
  exact ⟨_, Opens.list (frame.locate opens)⟩

end FileTree

/-- A visit that agrees with a tree meets the files that a walk comes to. -/
theorem Visit.mem_met_iff_comesTo {tree : FileTree} (isTree : tree.IsTree) {selector : Selector}
    {root : Path} {choice : Choice} {fate : FileFate} {visit : Visit} {file : List Text}
    (fits : visit.Fits selector root) (agrees : visit.Agrees (tree.survey root))
    (isFile : choice ≠ .visit)
    (isFate : ∀ directory entries,
      selector.chosen choice directory entries = selector.files fate directory entries) :
    file ∈ visit.met choice ↔
      ∃ names name, file = names ++ [name] ∧ tree.ComesTo selector root fate names name := by
  have isMet : file ∈ visit.met choice ↔ (tree.survey root).Meets selector root choice [] file := by
    rw [Visit.mem_met_iff fits agrees]
    simp [isFile]
  rw [isMet]
  constructor
  · intro meets
    obtain ⟨names, name, rfl⟩ := meets.exists_eq
    exact ⟨names, name, rfl, (FileTree.meets_iff_comesTo isTree isFate).mp meets⟩
  · rintro ⟨names, name, rfl, comesTo⟩
    exact (FileTree.meets_iff_comesTo isTree isFate).mpr comesTo

end Deflow
