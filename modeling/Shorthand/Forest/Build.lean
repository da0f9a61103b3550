import Shorthand.Fault
import Shorthand.Forest.Optimize
import Shorthand.Reading.Spine

/-! # Building a tree in a forest

In a forest the tree of an abbreviation is built with links. There is a current node; an operator goes from it to its
parent, if it has one, and adds a blank child, which becomes current. The inside of a group is built below a root of its
own, and then the children of that root are given to the current node; the root of the group is left behind and still
lists them.

* **`Item.link`** — what an item makes of a forest and its current node.
* **`Forest.parseRaw`** — the tree of an abbreviation before it is optimized.
* **`Forest.parse`** — the tree of an abbreviation, optimized in place. -/

namespace Shorthand

namespace Forest

/-- Add a blank child to a node, at the end. -/
def extend (f : Forest) (receiver : NodeId) : NodeId × Forest :=
  let (id, f) := f.create
  (id, f.addChild receiver id none)

/-- The parent of a node, or the node itself if it has none. -/
def parentOrSelf (f : Forest) (id : NodeId) : NodeId := (f.parent? id).getD id

/-- Give the children of one node to another, after those that it has. The first node still lists them. -/
def adopt (f : Forest) (receiver donor : NodeId) : Forest :=
  (f.children donor).foldl (fun f child => f.addChild receiver child none) f

end Forest

namespace Item

mutual
/-- What an item makes of a forest and its current node. -/
def link : Item → NodeId × Forest → NodeId × Forest
  | descend, (current, f) => f.extend current
  | sibling, (current, f) => f.extend (f.parentOrSelf current)
  | climb, (current, f) => f.extend (f.parentOrSelf (f.parentOrSelf current))
  | token _ _ said, (current, f) => (current, f.modifyContent current (·.assign said))
  | group inside multiplier, (current, f) =>
    let (root, f) := f.create
    let (_, f) := linkAll inside (f.extend root)
    (current, (f.modifyContent current (·.repeatBy multiplier)).adopt current root)

/-- What a list of items makes of a forest and its current node. -/
def linkAll : List Item → NodeId × Forest → NodeId × Forest
  | [], state => state
  | item :: rest, state => linkAll rest (link item state)
end

end Item

namespace Forest

/-- Build the tree that a list of items describes below a new root, which is given with the forest. -/
def build (f : Forest) (items : List Item) : NodeId × Forest :=
  let (root, f) := f.create
  (root, (Item.linkAll items (f.extend root)).2)

/-- Build the tree of an abbreviation before it is optimized, and give its root. -/
def parseRaw (f : Forest) (t : Text) : Except Fault (NodeId × Forest) :=
  let reading := readAbbreviation t
  match reading.fault with
  | some fault => .error fault
  | none => .ok (f.build reading.items)

/-- Optimize the tree below a root in place, unless it has too many levels. -/
def optimize (f : Forest) (root : NodeId) : Except (Fault ⊕ EditFault) Forest :=
  if (f.read root).height ≤ treeLimit then
    match (f.unroll root).squash root with
    | (f, none) => .ok f
    | (_, some fault) => .error (.inr fault)
  else .error (.inl AbbreviationFault.treeTooDeep)

/-- Build the tree of an abbreviation, optimize it in place, and give its root. -/
def parse (f : Forest) (t : Text) : Except (Fault ⊕ EditFault) (NodeId × Forest) :=
  match f.parseRaw t with
  | .error fault => .error (.inl fault)
  | .ok (root, f) => (f.optimize root).map fun f => (root, f)

end Forest

end Shorthand
