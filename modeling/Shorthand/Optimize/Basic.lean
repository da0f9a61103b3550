import Shorthand.Fault
import Shorthand.Optimize.Unroll
import Shorthand.Optimize.Squash

/-! # Optimizing a tree

The tree of an abbreviation is optimized in two passes: repeated nodes are unrolled, and then groups are
squashed. A tree with too many levels is refused.

* **`optimize`** — both passes.
* **`optimizeWithin`** — both passes on a tree with no more levels than allowed. -/

namespace Shorthand

/-- Optimize a tree: unroll repeated nodes, then squash groups. -/
def optimize (root : Node) : Node := root.unroll.squash

/-- Optimize a tree unless it has too many levels. -/
def optimizeWithin (levels : Nat) (root : Node) : Except AbbreviationFault Node :=
  if root.height ≤ levels then .ok (optimize root) else .error .treeTooDeep

/-- Trees within the limit are optimized. -/
theorem optimizeWithin_of_height_le {levels : Nat} {root : Node} (h : root.height ≤ levels) :
    optimizeWithin levels root = .ok (optimize root) := by simp [optimizeWithin, h]

end Shorthand
