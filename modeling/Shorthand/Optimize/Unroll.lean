import Shorthand.Node.Basic

/-! # Unrolling repeated nodes

Unrolling replaces a repeating node by as many copies as its count says, and by one at least. A copy has the
count one, and its number is written on it and on everything below it, where repeated nodes below it are
unrolled in turn and numbered on their own. The first copy is the node itself; the others are new nodes, and
what a renderer had written into the slots of the node is not written into theirs.

* **`unroll`** — the tree with everything below its root unrolled. -/

namespace Shorthand

/-- What a copy writes on the nodes that belong to it. -/
structure CopyMark where
  /-- The number of the innermost copy, if there is one. -/
  number : Option Int := none
  /-- Whether the nodes are new: some copy around them is not the first. -/
  isNew : Bool := false

namespace Content

/-- The content with the mark of a copy on it. -/
def marked (mark : CopyMark) (c : Content) : Content :=
  let c := if mark.isNew then c.withoutSlots else c
  match mark.number with
  | none => c
  | some n => c.numbered n

/-- The numbers of the copies of a node. -/
def copyNumbers (c : Content) : List Int :=
  (List.range (max 1 c.repeatCount.toNat)).map fun (k : Nat) => (k : Int) + 1

/-- The contents that unrolling makes of a content, each with the mark for what is below it: a repeating
content gives the numbered copies, any other is only marked. -/
def copies (mark : CopyMark) (c : Content) : List (CopyMark × Content) :=
  if c.isRepeating then
    c.copyNumbers.map fun k =>
      let inner : CopyMark := ⟨some k, mark.isNew || 1 < k⟩
      (inner, c.once.marked inner)
  else [(mark, c.marked mark)]

@[simp] theorem marked_none (c : Content) : c.marked {} = c := rfl

end Content

namespace Node

/-- The nodes of a list unrolled, below a copy with the given mark. -/
def unrollAll (mark : CopyMark) : List Node → List Node
  | [] => []
  | mk content kids :: rest =>
    ((content.copies mark).map fun copy => mk copy.2 (unrollAll copy.1 kids)) ++
      unrollAll mark rest

/-- The tree with everything below its root unrolled. -/
def unroll (root : Node) : Node := root.withChildren (unrollAll {})

@[simp] theorem unrollAll_nil (mark : CopyMark) : unrollAll mark [] = [] := by rw [unrollAll]

@[simp] theorem unrollAll_cons (mark : CopyMark) (c : Content) (kids rest : List Node) :
    unrollAll mark (mk c kids :: rest) =
      ((c.copies mark).map fun copy => mk copy.2 (unrollAll copy.1 kids)) ++
        unrollAll mark rest := by rw [unrollAll]

@[simp] theorem unrollAll_append (mark : CopyMark) (before after : List Node) :
    unrollAll mark (before ++ after) = unrollAll mark before ++ unrollAll mark after := by
  induction before with
  | nil => simp
  | cons n rest ih => obtain ⟨c, kids⟩ := n; simp [ih]

@[simp] theorem unroll_mk (c : Content) (kids : List Node) :
    unroll (mk c kids) = mk c (unrollAll {} kids) := rfl

end Node

end Shorthand
