import Shorthand.Forest.Basic
import Shorthand.Resolver

/-! # Resolving names in a forest

In a forest a resolver goes down from a root and attaches resources to the nodes that it meets, one after the other. The
root itself is passed over.

* **`Forest.resolve`** — attach the resources to the nodes below a root. -/

namespace Shorthand.Forest

/-- Attach the resources to the nodes that going down from a root meets, but for the root. -/
def resolve (r : Resolver) (f : Forest) (root : NodeId) : Forest :=
  ((f.preorder root).filter (· ≠ root)).foldl (fun f id => f.modifyContent id r.attach) f

end Shorthand.Forest
