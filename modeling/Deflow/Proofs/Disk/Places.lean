import Deflow.Proofs.Disk.Following
import Mathlib.Data.List.Induction
import Mathlib.Data.List.Nodup
import Mathlib.Data.List.Perm.Subperm

/-!
# Trees of places

A file tree proper gives every place once, under a name, and in a directory.  There the
nodes are what stands under their places, a directory lists what stands directly below
it, and a file that is written changes nothing but what stands under its own place.
-/

namespace Deflow

open Deflow.Path

/-- Whether a node is a directory. -/
def FileNode.isDirectory : FileNode → Bool
  | .directory _ => true
  | _ => false

/-- Whether a node is a file or a directory. -/
def FileNode.isPlain : FileNode → Bool
  | .file _ | .directory _ => true
  | _ => false

namespace FileTree

variable {tree : FileTree} {place directory other : Place} {name : Text} {node : FileNode}

/-- Every place stands once, and under a name in a directory. -/
structure IsTree (tree : FileTree) : Prop where
  distinct : (tree.nodes.map (·.1)).Nodup
  named : ∀ entry ∈ tree.nodes, entry.1.getLast?.any (fun name => decide (IsName name)) = true
  hangs : ∀ entry ∈ tree.nodes, (tree.get? entry.1.dropLast).any FileNode.isDirectory = true

/-- There are files and directories only. -/
def IsPlain (tree : FileTree) : Prop :=
  ∀ entry ∈ tree.nodes, entry.2.isPlain = true

instance (tree : FileTree) : Decidable tree.IsTree :=
  decidable_of_iff
    ((tree.nodes.map (·.1)).Nodup ∧
      (∀ entry ∈ tree.nodes, entry.1.getLast?.any (fun name => decide (IsName name)) = true) ∧
      ∀ entry ∈ tree.nodes, (tree.get? entry.1.dropLast).any FileNode.isDirectory = true)
    ⟨fun ⟨distinct, named, hangs⟩ => ⟨distinct, named, hangs⟩,
      fun isTree => ⟨isTree.distinct, isTree.named, isTree.hangs⟩⟩

instance (tree : FileTree) : Decidable tree.IsPlain :=
  inferInstanceAs (Decidable (∀ entry ∈ tree.nodes, entry.2.isPlain = true))

/-! ## What stands under a place -/

@[simp]
theorem get?_nil (tree : FileTree) : tree.get? [] = some (.directory true) :=
  rfl

theorem get?_of_ne_nil (tree : FileTree) (nonempty : place ≠ []) :
    tree.get? place = tree.nodes.lookup place := by
  simp [get?, nonempty]

theorem mem_of_get? (nonempty : place ≠ []) (stands : tree.get? place = some node) :
    (place, node) ∈ tree.nodes := by
  rw [get?_of_ne_nil tree nonempty] at stands
  obtain ⟨before, after, isSplit, -⟩ := List.lookup_eq_some_iff.mp stands
  simp [isSplit]

namespace IsTree

/-- A place of a tree is a name in a directory. -/
theorem exists_snoc (isTree : tree.IsTree) (member : (place, node) ∈ tree.nodes) :
    ∃ directory name, place = directory ++ [name] ∧ IsName name ∧
      ∃ readable, tree.get? directory = some (.directory readable) := by
  have named := isTree.named _ member
  have hangs := isTree.hangs _ member
  rcases List.eq_nil_or_concat place with rfl | ⟨directory, name, rfl⟩
  · simp at named
  · refine ⟨directory, name, List.concat_eq_append, by simpa using named, ?_⟩
    simp only [List.concat_eq_append, List.dropLast_concat, Option.any_eq_true] at hangs
    obtain ⟨node, stands, isDirectory⟩ := hangs
    cases node with
    | directory readable => exact ⟨readable, stands⟩
    | _ => cases isDirectory

theorem get?_of_mem (isTree : tree.IsTree) (member : (place, node) ∈ tree.nodes) :
    tree.get? place = some node := by
  obtain ⟨directory, name, rfl, -⟩ := isTree.exists_snoc member
  obtain ⟨before, after, isSplit⟩ := List.append_of_mem member
  have distinct := isTree.distinct
  rw [get?_of_ne_nil tree (by simp), List.lookup_eq_some_iff]
  refine ⟨before, after, isSplit, fun entry earlier => ?_⟩
  rw [isSplit, List.map_append, List.map_cons, List.nodup_append] at distinct
  have different := distinct.2.2 _ (List.mem_map_of_mem earlier) _ (List.mem_cons_self ..)
  simpa using Ne.symm different

/-- What stands under a name stands in a directory. -/
theorem of_snoc (isTree : tree.IsTree) (stands : tree.get? (directory ++ [name]) = some node) :
    IsName name ∧ ∃ readable, tree.get? directory = some (.directory readable) := by
  obtain ⟨front, last, same, isName, isDirectory⟩ :=
    isTree.exists_snoc (mem_of_get? (by simp) stands)
  obtain ⟨rfl, rfl⟩ := List.append_inj' same rfl |>.imp_right fun last => (List.cons.inj last).1
  exact ⟨isName, isDirectory⟩

/-- All places on the way are directories. -/
theorem get?_front (isTree : tree.IsTree) {rest : List Text} (more : rest ≠ [])
    (stands : tree.get? (place ++ rest) = some node) :
    ∃ readable, tree.get? place = some (.directory readable) := by
  induction rest using List.reverseRecOn generalizing node with
  | nil => exact absurd rfl more
  | append_singleton rest name inductionHypothesis =>
      rw [← List.append_assoc] at stands
      obtain ⟨-, readable, isDirectory⟩ := isTree.of_snoc stands
      by_cases empty : rest = []
      · exact ⟨readable, by simpa [empty] using isDirectory⟩
      · exact inductionHypothesis empty isDirectory

/-- There are at least as many nodes as names on the way to any of them. -/
theorem length_le (isTree : tree.IsTree) (stands : tree.get? place = some node) :
    place.length ≤ tree.nodes.length := by
  let fronts := (List.range place.length).map fun count => place.take (count + 1)
  have distinct : fronts.Nodup := by
    refine List.Nodup.map_on (fun first isFirst second isSecond same => ?_) List.nodup_range
    have := congrArg List.length same
    rw [List.mem_range] at isFirst isSecond
    simp only [List.length_take] at this
    omega
  have included : fronts ⊆ tree.nodes.map (·.1) := by
    intro front member
    obtain ⟨count, inRange, rfl⟩ := List.mem_map.mp member
    rw [List.mem_range] at inRange
    have nonempty : place.take (count + 1) ≠ [] := by
      intro empty
      have := congrArg List.length empty
      rw [List.length_take, List.length_nil] at this
      omega
    have found : ∃ node, tree.get? (place.take (count + 1)) = some node := by
      by_cases whole : place.drop (count + 1) = []
      · have same := List.take_append_drop (count + 1) place
        rw [whole, List.append_nil] at same
        exact ⟨node, by rw [same, stands]⟩
      · rw [← List.take_append_drop (count + 1) place] at stands
        obtain ⟨readable, isDirectory⟩ := isTree.get?_front whole stands
        exact ⟨_, isDirectory⟩
    obtain ⟨node, stands⟩ := found
    exact List.mem_map_of_mem (mem_of_get? nonempty stands)
  simpa [fronts] using (List.subperm_of_subset distinct included).length_le

end IsTree

theorem IsPlain.get? (isPlain : tree.IsPlain) (stands : tree.get? place = some node) :
    node.isPlain = true := by
  by_cases empty : place = []
  · subst empty
    cases stands
    rfl
  · exact isPlain _ (mem_of_get? empty stands)

/-! ## Listings -/

theorem childName?_eq_some_iff :
    childName? directory place = some name ↔ place = directory ++ [name] := by
  unfold childName?
  constructor
  · intro isChild
    split at isChild
    · rename_i last isDrop
      split at isChild
      · rename_i isPrefix
        obtain ⟨rest, rfl⟩ := List.isPrefixOf_iff_prefix.mp isPrefix
        simp_all
      · cases isChild
    · cases isChild
  · rintro rfl
    simp

/-- The files and directories directly below a place. -/
def entriesAt (tree : FileTree) (place : Place) : List DirectoryEntry :=
  (tree.children place).filterMap fun child => listed? child.1 child.2

theorem entriesAt_eq (tree : FileTree) (place : Place) :
    tree.entriesAt place = tree.nodes.filterMap fun entry =>
      (childName? place entry.1).bind fun name => listed? name entry.2 := by
  simp only [entriesAt, children, List.filterMap_filterMap]
  congr 1
  funext entry
  cases childName? place entry.1 <;> rfl

theorem listed?_eq_some_iff {entry : DirectoryEntry} :
    listed? name node = some entry ↔
      entry.name = name ∧ node.isPlain = true ∧ entry.isDirectory = node.isDirectory := by
  obtain ⟨found, isDirectory⟩ := entry
  cases node <;> simp [listed?, FileNode.isPlain, FileNode.isDirectory] <;> grind

/-- A directory lists the files and directories directly below it. -/
theorem IsTree.mem_entriesAt_iff (isTree : tree.IsTree) {isDirectory : Bool} :
    ⟨name, isDirectory⟩ ∈ tree.entriesAt directory ↔
      ∃ node, tree.get? (directory ++ [name]) = some node ∧ node.isPlain = true ∧
        node.isDirectory = isDirectory := by
  rw [entriesAt_eq, List.mem_filterMap]
  constructor
  · rintro ⟨⟨place, node⟩, member, isEntry⟩
    obtain ⟨child, isChild, isListed⟩ := Option.bind_eq_some_iff.mp isEntry
    obtain rfl := childName?_eq_some_iff.mp isChild
    obtain ⟨rfl, isPlain, sameKind⟩ := listed?_eq_some_iff.mp isListed
    exact ⟨node, isTree.get?_of_mem member, isPlain, sameKind.symm⟩
  · rintro ⟨node, stands, isPlain, rfl⟩
    refine ⟨(directory ++ [name], node), mem_of_get? (by simp) stands, ?_⟩
    rw [childName?_eq_some_iff.mpr rfl, Option.bind_some]
    exact listed?_eq_some_iff.mpr ⟨rfl, isPlain, rfl⟩

theorem IsTree.isName_of_mem_entriesAt (isTree : tree.IsTree) {entry : DirectoryEntry}
    (member : entry ∈ tree.entriesAt directory) : IsName entry.name := by
  obtain ⟨node, stands, -⟩ := isTree.mem_entriesAt_iff.mp member
  exact (isTree.of_snoc stands).1

theorem IsTree.nodup_entriesAt (isTree : tree.IsTree) (directory : Place) :
    ((tree.entriesAt directory).map (·.name)).Nodup := by
  have distinct : tree.nodes.Pairwise fun first second => first.1 ≠ second.1 :=
    List.pairwise_map.mp isTree.distinct
  rw [entriesAt_eq, List.Nodup, List.pairwise_map, List.pairwise_filterMap]
  refine distinct.imp fun different first isFirst second isSecond same => different ?_
  obtain ⟨child, isChild, isListed⟩ := Option.bind_eq_some_iff.mp isFirst
  obtain ⟨other, isOther, alsoListed⟩ := Option.bind_eq_some_iff.mp isSecond
  rw [childName?_eq_some_iff.mp isChild, childName?_eq_some_iff.mp isOther,
    ← (listed?_eq_some_iff.mp isListed).1, ← (listed?_eq_some_iff.mp alsoListed).1, same]

/-- What listing a target gives. -/
def listTarget (tree : FileTree) : Target → Except OsError (List DirectoryEntry)
  | .found place (.directory true) => .ok (tree.entriesAt place)
  | .found _ (.directory false) => .error .permissionDenied
  | .found _ _ => .error .notADirectory
  | .missing _ => .error .notFound

theorem list_eq (tree : FileTree) (path : Path) :
    tree.list path = (tree.locate .look path).bind tree.listTarget := by
  unfold list
  cases tree.locate .look path with
  | error error => rfl
  | ok target =>
      cases target with
      | missing place => rfl
      | found place node =>
          cases node with
          | directory readable => cases readable <;> rfl
          | _ => rfl

/-- A path leads to a directory that can be listed. -/
def Opens (tree : FileTree) (path : Path) (place : Place) : Prop :=
  tree.locate .look path = .ok (.found place (.directory true))

/-- A directory that can be listed lists what stands directly below it. -/
theorem list_eq_ok_iff {path : Path} {entries : List DirectoryEntry} :
    tree.list path = .ok entries ↔
      ∃ place, tree.Opens path place ∧ entries = tree.entriesAt place := by
  unfold Opens
  rw [list_eq]
  cases tree.locate .look path with
  | error error => simp [Except.bind]
  | ok target =>
      cases target with
      | missing place => simp [Except.bind, listTarget]
      | found place node =>
          cases node with
          | directory readable => cases readable <;> simp [Except.bind, listTarget, eq_comm]
          | _ => simp [Except.bind, listTarget]

theorem Opens.list {path : Path} (opens : tree.Opens path place) :
    tree.list path = .ok (tree.entriesAt place) :=
  list_eq_ok_iff.mpr ⟨place, opens, rfl⟩

/-- A path leads to one directory only. -/
theorem Opens.unique {path : Path} (first : tree.Opens path place)
    (second : tree.Opens path other) :
    place = other :=
  (Target.found.inj (Except.ok.inj (first.symm.trans second))).1

/-! ## Writing files -/

theorem lookup_map_put (nodes : List (Place × FileNode))
    (present : nodes.any (·.1 == place) = true) :
    (nodes.map fun entry => if entry.1 == place then (place, node) else entry).lookup other =
      if other = place then some node else nodes.lookup other := by
  have elsewhere (different : other ≠ place) (nodes : List (Place × FileNode)) :
      (nodes.map fun entry => if entry.1 == place then (place, node) else entry).lookup other =
        nodes.lookup other := by
    induction nodes <;> grind
  induction nodes <;> grind

theorem get?_put (nonempty : place ≠ []) :
    (tree.put place node).get? other = if other = place then some node else tree.get? other := by
  by_cases empty : other = []
  · subst empty
    rw [if_neg (Ne.symm nonempty)]
    rfl
  · rw [get?_of_ne_nil _ empty, get?_of_ne_nil _ empty, put]
    split
    · rename_i present
      exact lookup_map_put tree.nodes present
    · rename_i absent
      have missing : tree.nodes.lookup place = none := by
        rw [List.lookup_eq_none_iff]
        grind
      rw [List.lookup_append]
      grind

/-- What is written takes the place of what was there, or comes last. -/
theorem nodes_put (nonempty : place ≠ []) :
    (tree.put place node).nodes =
      if (tree.get? place).isSome then
        tree.nodes.map fun entry => if entry.1 == place then (place, node) else entry
      else tree.nodes ++ [(place, node)] := by
  have present : tree.nodes.any (·.1 == place) = (tree.get? place).isSome := by
    rw [get?_of_ne_nil tree nonempty]
    induction tree.nodes <;> grind
  rw [put, present]

theorem places_put (nonempty : place ≠ []) :
    (tree.put place node).nodes.map (·.1) =
      if (tree.get? place).isSome then tree.nodes.map (·.1)
      else tree.nodes.map (·.1) ++ [place] := by
  rw [nodes_put nonempty]
  split
  · rw [List.map_map]
    apply List.map_congr_left
    intro entry _
    simp only [Function.comp_apply]
    split <;> simp_all
  · simp

/-- A name in a directory is free for a file, or a file stands under it. -/
structure Takes (tree : FileTree) (directory : Place) (name : Text) : Prop where
  isName : IsName name
  stands : ∃ readable, tree.get? directory = some (.directory readable)
  free : ∀ node, tree.get? (directory ++ [name]) = some node → ∃ content, node = .file content

namespace Takes

variable {content : Content}

/-- A file that is written is no directory or link before and afterwards. -/
theorem get?_put_iff (takes : tree.Takes directory name)
    (notFile : ∀ content, node ≠ .file content) :
    (tree.put (directory ++ [name]) (.file content)).get? other = some node ↔
      tree.get? other = some node := by
  rw [get?_put (by simp)]
  split
  · rename_i here
    constructor
    · intro stands
      exact absurd (Option.some.inj stands).symm (notFile content)
    · intro stands
      obtain ⟨content, isFile⟩ := takes.free node (here ▸ stands)
      exact absurd isFile (notFile content)
  · rfl

/-- A node behind writing a file was there before, or is the file. -/
theorem mem_put (member : (place, node) ∈ (tree.put (directory ++ [name]) (.file content)).nodes) :
    (place, node) = (directory ++ [name], .file content) ∨ (place, node) ∈ tree.nodes := by
  rw [nodes_put (by simp)] at member
  split at member
  · obtain ⟨entry, isEntry, same⟩ := List.mem_map.mp member
    split at same
    · exact .inl same.symm
    · exact .inr (same ▸ isEntry)
  · rcases List.mem_append.mp member with old | new
    · exact .inr old
    · exact .inl (List.mem_singleton.mp new)

theorem isTree_put (takes : tree.Takes directory name) (isTree : tree.IsTree) :
    (tree.put (directory ++ [name]) (.file content)).IsTree where
  distinct := by
    rw [places_put (by simp)]
    split
    · exact isTree.distinct
    · rename_i absent
      refine List.nodup_append.mpr
        ⟨isTree.distinct, by simp, fun place isOld new isNew same => absent ?_⟩
      obtain ⟨entry, member, rfl⟩ := List.mem_map.mp isOld
      rw [List.mem_singleton.mp isNew] at same
      rw [← same, isTree.get?_of_mem member]
      rfl
  named := by
    rintro ⟨place, node⟩ member
    rcases mem_put member with same | old
    · obtain ⟨rfl, -⟩ := Prod.mk.inj same
      simp [takes.isName]
    · exact isTree.named _ old
  hangs := by
    rintro ⟨place, node⟩ member
    have kept {place : Place} {readable : Bool}
        (stands : tree.get? place = some (.directory readable)) :
        ((tree.put (directory ++ [name]) (.file content)).get? place).any FileNode.isDirectory =
        true := by
      rw [(takes.get?_put_iff (by simp)).mpr stands]
      rfl
    rcases mem_put member with same | old
    · obtain ⟨rfl, -⟩ := Prod.mk.inj same
      obtain ⟨readable, stands⟩ := takes.stands
      rw [List.dropLast_concat]
      exact kept stands
    · obtain ⟨front, last, rfl, -, readable, stands⟩ := isTree.exists_snoc old
      rw [List.dropLast_concat]
      exact kept stands

theorem isPlain_put (isPlain : tree.IsPlain) :
    (tree.put (directory ++ [name]) (.file content)).IsPlain := by
  rintro ⟨place, node⟩ member
  rcases mem_put member with same | old
  · obtain ⟨-, rfl⟩ := Prod.mk.inj same
    rfl
  · exact isPlain _ old

/-- Only the directory of a new file lists more than before. -/
theorem entriesAt_put (takes : tree.Takes directory name) (isTree : tree.IsTree) (other : Place) :
    (tree.put (directory ++ [name]) (.file content)).entriesAt other =
      if other = directory ∧ tree.get? (directory ++ [name]) = none then
        tree.entriesAt other ++ [⟨name, false⟩]
      else tree.entriesAt other := by
  rw [entriesAt_eq, entriesAt_eq, nodes_put (by simp)]
  cases stands : tree.get? (directory ++ [name]) with
  | some old =>
      simp only [Option.isSome_some, if_true, reduceCtorEq, and_false, if_false, List.filterMap_map]
      apply List.filterMap_congr
      rintro ⟨place, node⟩ member
      simp only [Function.comp_apply]
      split
      · rename_i here
        obtain rfl : place = directory ++ [name] := by simpa using here
        obtain ⟨content, rfl⟩ := takes.free node (isTree.get?_of_mem member)
        rfl
      · rfl
  | none =>
      simp only [Option.isSome_none, Bool.false_eq_true, if_false, and_true, List.filterMap_append]
      split
      · rename_i same
        simp [same, childName?_eq_some_iff.mpr, listed?]
      · rename_i different
        have elsewhere : childName? other (directory ++ [name]) = none := by
          cases isChild : childName? other (directory ++ [name]) with
          | none => rfl
          | some last =>
              have same := childName?_eq_some_iff.mp isChild
              exact absurd (List.append_inj' same rfl).1.symm different
        simp [elsewhere]

end Takes

end FileTree

end Deflow
