import Shorthand.Forest.Edit

/-! # Optimizing a forest in place

The two passes of the optimization on linked nodes: repeating children are followed by numbered copies, and groups
give their place to their children. Nodes keep their identities; only the copies are new.

* **`Forest.unroll`** — unroll everything below a node.
* **`Forest.squash`** — squash the groups below a node. -/

namespace Shorthand

namespace Forest

/-- Add a numbered copy of a child after the place `k` of a node. -/
def addCopy (id : NodeId) (k : Nat) (child : NodeId) (f : Forest) (number : Int) : Forest :=
  let (copy, f) := f.clone child
  (f.addChild id copy (some (k + 1 : Nat))).update copy (.counter number)

/-- Unroll the child at the place `k` of a node: it becomes the first copy, and the others are put right
after it, the last one first. -/
def unrollChild (id : NodeId) (f : Forest) (k : Nat) : Forest :=
  match (f.children id)[k]? with
  | none => f
  | some child =>
    let c := f.content child
    if c.isRepeating then
      let f := (f.modifyContent child Content.once).update child (.counter 1)
      ((List.range' 2 (c.repeatCount.toNat - 1)).reverse).foldl
        (fun f number => addCopy id k child f (number : Nat)) f
    else f

/-- Unroll everything below a node, down to the given number of levels. The children are unrolled from the
last one to the first, and then what is below them. -/
def unrollWithin : Nat → NodeId → Forest → Forest
  | 0, _, f => f
  | levels + 1, id, f =>
    let f := (List.range (f.children id).length).reverse.foldl (unrollChild id) f
    (f.children id).foldl (fun f child => unrollWithin levels child f) f

/-- Unroll everything below a node. -/
def unroll (f : Forest) (id : NodeId) : Forest := unrollWithin f.size id f

/-- Look at the children of a node from the place before `k` down to the first one. An empty child is removed; a
group is replaced by its children, which are looked at next. More looks than allowed are a fault. -/
def squashChildren (id : NodeId) : Nat → Nat → Forest → Forest × Option EditFault
  | _, 0, f => (f, none)
  | 0, _ + 1, f => (f, some .endless)
  | looks + 1, k + 1, f =>
    match (f.children id)[k]? with
    | none => (f, some .outOfRange)
    | some child =>
      if f.isEmpty child then squashChildren id looks k (f.remove child)
      else if (f.content child).isGroup then
        let grandchildren := f.children child
        match f.replace child grandchildren with
        | .error fault => (f, some fault)
        | .ok f => squashChildren id looks (k + grandchildren.length) f
      else squashChildren id looks k f

/-- Go on with the nodes of a list, up to the first fault. -/
def forEach (step : NodeId → Forest → Forest × Option EditFault) :
    List NodeId → Forest → Forest × Option EditFault
  | [], f => (f, none)
  | id :: rest, f =>
    match step id f with
    | (f, some fault) => (f, some fault)
    | (f, none) => forEach step rest f

/-- Squash the groups below a node, down to the given number of levels. One look at every descendant is
enough for its children; more looks or levels are a fault. -/
def squashWithin : Nat → NodeId → Forest → Forest × Option EditFault
  | 0, _, f => (f, some .endless)
  | levels + 1, id, f =>
    match squashChildren id (f.descendants id).length (f.children id).length f with
    | (f, some fault) => (f, some fault)
    | (f, none) => forEach (squashWithin levels) (f.children id) f

/-- Squash the groups below a node. A forest that is not well formed may end it with a fault; what was done
before stays done. -/
def squash (f : Forest) (id : NodeId) : Forest × Option EditFault := squashWithin f.size id f

end Forest

end Shorthand
