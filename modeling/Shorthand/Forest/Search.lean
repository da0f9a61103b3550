import Shorthand.Forest.Basic

/-! # Searching a forest

Searches go down from a node, from left to right, and leave the node itself out.

* **`Forest.find?`** — the first node of a sort below a node.
* **`Forest.findAll`** — all nodes of a sort below a node.
* **`Forest.deepestChild?`** — the node that is reached by always going to the last child. -/

namespace Shorthand

namespace Forest

/-- The first node of a sort below a node, down to the given number of levels. -/
def findWithin (f : Forest) (sort : NodeId → Bool) : Nat → NodeId → Option NodeId
  | 0, _ => none
  | levels + 1, id =>
    (f.children id).findSome? fun child =>
      if sort child then some child else findWithin f sort levels child

/-- The first node of a sort below a node. -/
def find? (f : Forest) (sort : NodeId → Bool) (id : NodeId) : Option NodeId :=
  f.findWithin sort f.size id

/-- All nodes of a sort below a node, down to the given number of levels. -/
def findAllWithin (f : Forest) (sort : NodeId → Bool) : Nat → NodeId → List NodeId
  | 0, _ => []
  | levels + 1, id =>
    (f.children id).flatMap fun child =>
      (if sort child then [child] else []) ++ findAllWithin f sort levels child

/-- All nodes of a sort below a node. -/
def findAll (f : Forest) (sort : NodeId → Bool) (id : NodeId) : List NodeId :=
  f.findAllWithin sort f.size id

/-- Whether a node has the given name, case being left aside; a missing name is an empty one. -/
def isNamed (f : Forest) (name : Text) (id : NodeId) : Bool := (f.content id).isNamed name

/-- The first node of a name below a node. -/
def findByName? (f : Forest) (name : Text) (id : NodeId) : Option NodeId :=
  f.find? (f.isNamed name) id

/-- All nodes of a name below a node. -/
def findAllByName (f : Forest) (name : Text) (id : NodeId) : List NodeId :=
  f.findAll (f.isNamed name) id

/-- The node that is reached by going to the last child, at most the given number of times. -/
def lastWithin (f : Forest) : Nat → NodeId → NodeId
  | 0, id => id
  | levels + 1, id =>
    match (f.children id).getLast? with
    | none => id
    | some last => lastWithin f levels last

/-- The node that is reached by always going to the last child; nothing for a node without children. -/
def deepestChild? (f : Forest) (id : NodeId) : Option NodeId :=
  if (f.children id).isEmpty then none else some (f.lastWithin f.size id)

/-- The node that is reached by going down along the given places; a negative place counts from the end. -/
def descend (f : Forest) (id : NodeId) : List Int → Option NodeId
  | [] => some id
  | i :: path =>
    let kids := f.children id
    let k := if i < 0 then i + kids.length else i
    if k < 0 then none
    else
      match kids[k.toNat]? with
      | none => none
      | some child => descend f child path

end Forest

end Shorthand
