import Deflow.Proofs.Disk.Frame

/-!
# Trees in another order

The nodes of a tree come in the order in which directories are listed.  In another order the
same stands under every place, so that paths lead to the same nodes, files are read and
written alike, and a directory lists the same entries in another order.
-/

namespace Deflow

open Deflow.Path

namespace FileTree

variable {tree other : FileTree} {place : Place} {node : FileNode} {path : Path}

/-! ## What stands under a place -/

theorem lookup_eq_some_iff_mem {nodes : List (Place × FileNode)}
    (distinct : (nodes.map (·.1)).Nodup) :
    nodes.lookup place = some node ↔ (place, node) ∈ nodes := by
  induction nodes with
  | nil => simp
  | cons entry nodes inductionHypothesis =>
      obtain ⟨found, old⟩ := entry
      rw [List.map_cons, List.nodup_cons] at distinct
      have absent : (found, node) ∉ nodes :=
        fun member => distinct.1 (List.mem_map.mpr ⟨_, member, rfl⟩)
      rw [List.lookup_cons, List.mem_cons, Prod.mk.injEq]
      by_cases same : place = found
      · subst same
        simp [absent, eq_comm]
      · simp [beq_false_of_ne same, same, inductionHypothesis distinct.2]

/-- The same stands under every place. -/
theorem IsTree.get?_of_perm (isTree : tree.IsTree) (reordered : other.nodes.Perm tree.nodes) :
    other.get? = tree.get? := by
  have distinct : (other.nodes.map (·.1)).Nodup := (reordered.map _).nodup_iff.mpr isTree.distinct
  funext place
  by_cases empty : place = []
  · rw [empty, get?_nil, get?_nil]
  · rw [get?_of_ne_nil _ empty, get?_of_ne_nil _ empty]
    refine Option.ext fun node => ?_
    rw [lookup_eq_some_iff_mem distinct, lookup_eq_some_iff_mem isTree.distinct]
    exact reordered.mem_iff

theorem IsTree.of_perm (isTree : tree.IsTree) (reordered : other.nodes.Perm tree.nodes) :
    other.IsTree where
  distinct := (reordered.map _).nodup_iff.mpr isTree.distinct
  named entry member := isTree.named entry (reordered.mem_iff.mp member)
  hangs entry member := by
    rw [isTree.get?_of_perm reordered]
    exact isTree.hangs entry (reordered.mem_iff.mp member)

theorem IsPlain.of_perm (isPlain : tree.IsPlain) (reordered : other.nodes.Perm tree.nodes) :
    other.IsPlain :=
  fun entry member => isPlain entry (reordered.mem_iff.mp member)

theorem followSegments_congr (same : other.get? = tree.get?) (purpose : Purpose)
    (behindLink : Place → List Text → Except OsError Target) (place : Place)
    (segments : List Text) :
    other.followSegments purpose behindLink place segments =
      tree.followSegments purpose behindLink place segments := by
  induction segments generalizing place with
  | nil => simp only [followSegments, same]
  | cons segment rest inductionHypothesis =>
      simp only [followSegments, same, inductionHypothesis]

theorem follow_congr (same : other.get? = tree.get?) (purpose : Purpose) (links : Nat) :
    other.follow purpose links = tree.follow purpose links := by
  induction links with
  | zero =>
      funext place segments
      exact followSegments_congr same ..
  | succ links inductionHypothesis =>
      funext place segments
      rw [follow, follow, inductionHypothesis]
      exact followSegments_congr same ..

/-- Paths lead to the same nodes. -/
theorem locate_congr (same : other.get? = tree.get?) (purpose : Purpose) (path : Path) :
    other.locate purpose path = tree.locate purpose path := by
  simp only [locate, follow_congr same]

end FileTree

end Deflow
