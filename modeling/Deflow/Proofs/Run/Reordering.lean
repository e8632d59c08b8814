import Deflow.Proofs.Disk.Order
import Deflow.Proofs.Run.Account

/-!
# Walks in another order

A walk may list the entries of a directory in any order, and it may process the files of a
directory as it meets them or together, again in any order.  Whatever the order, it tells of
the same events, counts the same, and leaves the same tree.
-/

namespace Deflow

open Deflow.Path

/-! ## Processing in trees of another order -/

namespace Processor

end Processor

/-! ## Walks -/

namespace Site

variable {site : Site} {visit otherVisit : Visit} {after other otherAfter : FileTree} {jobs : Nat}

/-- The site with its tree in another order, and with so many jobs. -/
def reordered (site : Site) (reorders : other.nodes.Perm site.tree.nodes) (jobs : Nat) : Site :=
  { site with
    settings := { site.settings with jobs }
    isSelector := site.isSelector
    tree := other
    isTree := site.isTree.of_perm reorders
    isPlain := site.isPlain.of_perm reorders
    located := by
      rw [FileTree.locate_congr (site.isTree.get?_of_perm reorders)]
      exact site.located }

variable (reorders : other.nodes.Perm site.tree.nodes)

include reorders in
theorem isVersion_of_perm : site.IsVersion other where
  isTree := site.isTree.of_perm reorders
  isPlain := site.isPlain.of_perm reorders
  frame place node _ := by rw [site.isTree.get?_of_perm reorders]

/-- Visits in two orders process the same files. -/
theorem Passing.mem_met_iff (passing : site.Passing visit after)
    (alsoPassing : (site.reordered reorders jobs).Passing otherVisit otherAfter)
    {file : List Text} :
    file ∈ otherVisit.met .process ↔ file ∈ visit.met .process := by
  have same := site.isTree.get?_of_perm reorders
  have frame := (isVersion_of_perm reorders).frame
  have alsoMet : file ∈ otherVisit.met .process ↔ _ :=
    Visit.mem_met_iff_comesTo (site.isTree.of_perm reorders) alsoPassing.fits alsoPassing.agrees
      (by decide) fun _ _ => rfl
  rw [alsoMet, Visit.mem_met_iff_comesTo site.isTree passing.fits passing.agrees (by decide)
    fun _ _ => rfl]
  refine exists_congr fun names => exists_congr fun name => and_congr_right fun _ => ⟨?_, ?_⟩
  · exact fun comesTo => comesTo.of_sameFrame frame.symm fun _ content _ stands =>
      ⟨content, same ▸ stands⟩
  · exact fun comesTo => comesTo.of_sameFrame frame fun _ content _ stands =>
      ⟨content, same ▸ stands⟩

end Site

/-! ## Walks that do not come to a directory -/

end Deflow
