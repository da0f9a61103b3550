import Shorthand.Forest.Basic
import Shorthand.Node.Property

/-! # Editing a forest

The operations that change the links of nodes. In a well-formed forest each of them changes one list of children
and the links of the nodes that it moves.

* **`Forest.addChild`** — list a node among the children of another and link it to that node.
* **`Forest.remove`** — strike a node from its parent's list.
* **`Forest.replace`** — put nodes in the place of a node.
* **`Forest.clone`** — copy a node with everything below it. -/

namespace Shorthand

/-- Why an edit of a forest is refused. -/
inductive EditFault where
  /-- A node without a parent cannot be replaced. -/
  | noPlace
  /-- A node without a parent has no index. -/
  | noParent
  /-- The parent that the node is linked to does not list it. -/
  | notListed
  /-- There is no item at the place that is wanted. -/
  | outOfRange
  /-- The edit comes back to nodes where it has been and does not end. -/
  | endless
  deriving DecidableEq, Repr

namespace EditFault

/-- The message of a fault, for the faults that have one. -/
def message? : EditFault → Option Text
  | noPlace => some "Cannot replace a node without a parent".toList
  | noParent => some "Node has no parent".toList
  | notListed => some "Node is not among its parent's children".toList
  | outOfRange => none
  | endless => none

end EditFault

namespace Forest

/-- List a node among the children of a receiver, at a position or at the end, and link it to the receiver. The
node is not struck from where it is listed already. -/
def addChild (f : Forest) (receiver child : NodeId) (position : Option Int) : Forest :=
  (f.link child (some receiver)).modifyChildren receiver (insertAt position child)

/-- Strike a node from its parent's children and unlink it. A node without a parent stays as it is. -/
def remove (f : Forest) (id : NodeId) : Forest :=
  match f.parent? id with
  | none => f
  | some parent => (f.modifyChildren parent fun kids => kids.filter (· ≠ id)).link id none

/-- The place of a node among the children of its parent. -/
def index (f : Forest) (id : NodeId) : Except EditFault Nat :=
  match f.parent? id with
  | none => .error .noParent
  | some parent =>
    match (f.children parent).findIdx? (· == id) with
    | some k => .ok k
    | none => .error .notListed

/-- Put nodes in the place of a node and link them to its parent. The node itself is unlinked unless it is one
of them. -/
def replace (f : Forest) (id : NodeId) (items : List NodeId) : Except EditFault Forest :=
  match f.parent? id with
  | none => .error .noPlace
  | some parent =>
    match f.index id with
    | .error fault => .error fault
    | .ok k =>
      let f := f.modifyChildren parent fun kids => kids.take k ++ items ++ kids.drop (k + 1)
      let f := items.foldl (fun f item => f.link item (some parent)) f
      .ok (if items.contains id then f else f.link id none)

/-- Copy a node with everything below it. The copy is linked to no parent, and the slots of a renderer are
empty in it. -/
def clone (f : Forest) (id : NodeId) : NodeId × Forest :=
  plant none ((f.read id).mapAll Content.withoutSlots) f

/-- Change the content of a node and of everything below it. -/
def modifyAll (f : Forest) (id : NodeId) (change : Content → Content) : Forest :=
  (f.preorder id).foldl (fun f below => f.modifyContent below change) f

/-- Make an assignment to a node and to everything below it. -/
def update (f : Forest) (id : NodeId) (assignment : Assignment) : Forest :=
  f.modifyAll id (assignment.apply ·)

/-- Assign a token to a node, as far as it can be read, and give the fault that ends the reading. -/
def assign (f : Forest) (id : NodeId) (token : Text) : Forest × Option Fault :=
  let read := Token.read token
  (f.modifyContent id (·.assign read.1), read.2)

/-- Change the value of the attribute that a node has at a place. -/
def setAttributeValue (f : Forest) (id : NodeId) (place : Nat) (value : Text) :
    Except EditFault Forest :=
  if place < (f.content id).attributes.length then
    .ok (f.modifyContent id fun c =>
      { c with attributes := c.attributes.modify place fun a => { a with value } })
  else .error .outOfRange

end Forest

end Shorthand
