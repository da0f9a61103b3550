import Mathlib
import Shorthand.Proofs.Optimize.Commute
import Shorthand.Proofs.Forest.Squash
import Shorthand.Proofs.Forest.Copies

/-! # The order of the passes over a forest

Squashing a forest and then unrolling it adds other nodes than the passes of a parse do, and it adds them elsewhere, so
that the forests differ. What is read below the root is the same: the same tree with the same contents.

* `Forest.passes_commute` — the passes may change places where no group is repeated. -/

namespace Shorthand.Forest

variable {f : Forest} {root : NodeId}

/-- In a well-formed forest where no node with an empty abbreviation is to be repeated below the root, both passes end
without a fault in either order, and in the end the same tree stands below the root. -/
theorem passes_commute (formed : f.WellFormed root)
    (loose : ∀ x ∈ f.descendants root, (f.content x).abbreviation = [] → (f.content x).isRepeating = false) :
    ∃ squashed last, f.squash root = (squashed, none) ∧ (f.unroll root).squash root = (last, none) ∧
      last.WellFormed root ∧ (squashed.unroll root).WellFormed root ∧
      last.read root = (squashed.unroll root).read root := by
  obtain ⟨g, bears⟩ := wellFormed_iff_exists_bears.1 formed
  -- unrolling first
  obtain ⟨g', unrolledBears, -, -, unrolled⟩ := bears.unroll
  obtain ⟨last, lastRun, lastBears, lastRelinks⟩ := squash_of_bears unrolledBears
  -- squashing first
  obtain ⟨squashed, run, squashedBears, relinks⟩ := squash_of_bears bears
  obtain ⟨g'', againBears, -, -, again⟩ := squashedBears.unroll
  have values : ∀ c ∈ Node.contentsAll (f.read root).children, c.IsLoose := by
    rw [bears.contentsAll_read, ← bears.descendants]
    exact List.forall_mem_map.2 fun x inside group => loose x inside (List.isEmpty_iff.1 group)
  refine ⟨squashed, last, run, lastRun, wellFormed_iff_exists_bears.2 ⟨_, lastBears⟩,
    wellFormed_iff_exists_bears.2 ⟨_, againBears⟩, ?_⟩
  calc last.read root = ((f.unroll root).read root).squash :=
        unrolledBears.read_squash lastBears lastRelinks.content_eq
    _ = (f.read root).unroll.squash := by rw [unrolled]
    _ = (f.read root).squash.unroll := Node.squash_unroll values
    _ = (squashed.read root).unroll := by rw [bears.read_squash squashedBears relinks.content_eq]
    _ = (squashed.unroll root).read root := again.symm

/-- A root over a node that is wanted twice, with a group below it that holds a node with a bare multiplier. -/
def looseForest : Forest :=
  ⟨#[{ children := [1] },
    { parent := some 0, children := [2], content := { abbreviation := ['a'], repeatCount := 2 } },
    { parent := some 1, children := [3] },
    { parent := some 2, content := { abbreviation := ['b'], implicitRepeat := true } }]⟩

/-- In either order both copies of the upper node have the lower one right below them. -/
theorem passes_commute_looseForest :
    looseForest.WellFormed 0 ∧
      (∀ x ∈ looseForest.descendants 0,
        (looseForest.content x).abbreviation = [] → (looseForest.content x).isRepeating = false) ∧
      ((looseForest.unroll 0).squash 0).1.read 0 = ((looseForest.squash 0).1.unroll 0).read 0 ∧
      (((looseForest.unroll 0).squash 0).1.read 0).numbers = [1, 1, 2, 1] := by
  have formed : looseForest.WellFormed 0 := ⟨by decide, by decide, by decide⟩
  have loose : ∀ x ∈ looseForest.descendants 0,
      (looseForest.content x).abbreviation = [] → (looseForest.content x).isRepeating = false := by decide
  obtain ⟨squashed, last, run, lastRun, -, -, same⟩ := passes_commute formed loose
  rw [run, lastRun]
  refine ⟨formed, loose, same, ?_⟩
  obtain rfl : last = ((looseForest.unroll 0).squash 0).1 := (congrArg Prod.fst lastRun).symm
  cbv

end Shorthand.Forest
