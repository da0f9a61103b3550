import Mathlib.Data.List.Basic
import Shorthand.Proofs.Optimize.Inert

/-! # The numbers of an optimized tree

Unrolling writes the numbers of copies on the nodes that belong to them, and squashing leaves some of these nodes. Which
numbers there are at the end can be read off the tree at the beginning: a repeating node numbers its copies from one on,
any other takes over the number of the copy that it belongs to, and groups are passed over.

* **`Node.numbers`** — the numbers of the nodes below a node.
* **`Node.numbersWithin`** — the numbers that are left of a list of nodes that belong to a copy.
* `Node.numbers_optimize` — the numbers of an optimized tree. -/

namespace Shorthand

namespace Content

/-- The content is as reading leaves it: it is wanted once at least, and it has no number yet. -/
structure IsUnnumbered (c : Content) : Prop where
  /-- The count is at least one. -/
  repeatCount_pos : 1 ≤ c.repeatCount
  /-- The number is the first one. -/
  counter_eq : c.counter = 1

/-- The numbers of the copies of a content that belongs to a copy with the number `n`. -/
def numbersWithin (n : Int) (c : Content) : List Int := if c.isRepeating then c.copyNumbers else [n]

/-- A mark leaves groups groups. -/
@[simp] theorem isGroup_marked (mark : CopyMark) (c : Content) : (c.marked mark).isGroup = c.isGroup := by
  rw [isGroup, (marked_isCopyOf mark c).abbreviation_eq, isGroup]

/-- Without a mark a content has the number one. -/
theorem IsUnnumbered.counter_marked {c : Content} (unnumbered : c.IsUnnumbered) (mark : CopyMark) :
    (c.marked mark).counter = mark.number.getD 1 := by
  obtain ⟨_ | number, isNew⟩ := mark
  · rw [Option.getD_none, ← unnumbered.counter_eq]
    cases isNew <;> rfl
  · rfl

end Content

namespace Node

/-- The numbers of the nodes below a node, in pre-order. -/
def numbers (n : Node) : List Int := (contentsAll n.children).map Content.counter

/-- The numbers that are left of a list of nodes that belong to a copy with the number `n`. -/
def numbersWithin (n : Int) : List Node → List Int
  | [] => []
  | mk c kids :: rest =>
    ((c.numbersWithin n).flatMap fun k => (if c.isGroup then [] else [k]) ++ numbersWithin k kids) ++
      numbersWithin n rest

@[simp] theorem numbersWithin_nil (n : Int) : numbersWithin n [] = [] := by rw [numbersWithin]

theorem numbersWithin_cons (n : Int) (c : Content) (kids rest : List Node) :
    numbersWithin n (mk c kids :: rest) =
      ((c.numbersWithin n).flatMap fun k => (if c.isGroup then [] else [k]) ++ numbersWithin k kids) ++
        numbersWithin n rest := by rw [numbersWithin]

/-- The contents of changed nodes are the changed contents. -/
theorem contentsAll_mapEach (f : Content → Content) (nodes : List Node) :
    contentsAll (mapEach f nodes) = (contentsAll nodes).map f := by
  induction nodes using Node.induction with
  | nil => rw [mapEach_nil, contentsAll_nil, List.map_nil]
  | cons c kids rest kidsInduction ih =>
    rw [mapEach_cons, contentsAll_cons, contentsAll_cons, List.map_cons, List.map_append, kidsInduction, ih]

/-- A change that leaves the numbers alone leaves those of a tree alone. -/
theorem numbers_mapAll {f : Content → Content} (counter_eq : ∀ c, (f c).counter = c.counter) (n : Node) :
    (n.mapAll f).numbers = n.numbers := by
  obtain ⟨c, kids⟩ := n
  rw [numbers, mapAll_mk, children_mk, contentsAll_mapEach, List.map_map]
  exact List.map_congr_left fun c _ => counter_eq c

/-- The numbers that are left of nodes in a row, each of them with its own nodes below it. -/
theorem numbers_squashAll_map {α : Type} (content : α → Content) (below : α → List Node) (items : List α) :
    (contentsAll (squashAll (items.map fun x => mk (content x) (below x)))).map Content.counter =
      items.flatMap fun x => (if (content x).isGroup then [] else [(content x).counter]) ++
        (contentsAll (squashAll (below x))).map Content.counter := by
  induction items with
  | nil => simp
  | cons x rest ih =>
    rw [List.map_cons, squashAll_cons, contentsAll_append, List.map_append, ih, List.flatMap_cons]
    congr 1
    by_cases group : (content x).isGroup = true
    · rw [if_pos group, if_pos group, List.nil_append]
    · rw [if_neg group, if_neg group, contentsAll_cons, contentsAll_nil, List.append_nil, List.map_cons,
        List.singleton_append]

/-- What unrolling and squashing leave of nodes under a mark has the numbers that belong to the number of the mark. -/
theorem numbers_squashAll_unrollAll {nodes : List Node} (unnumbered : ∀ c ∈ contentsAll nodes, c.IsUnnumbered)
    (mark : CopyMark) :
    (contentsAll (squashAll (unrollAll mark nodes))).map Content.counter =
      numbersWithin (mark.number.getD 1) nodes := by
  induction nodes using Node.induction generalizing mark with
  | nil => simp
  | cons c kids rest kidsInduction ih =>
    simp only [contentsAll_cons, List.mem_cons, List.mem_append, forall_eq_or_imp] at unnumbered
    obtain ⟨own, others⟩ := unnumbered
    have below := kidsInduction fun c inside => others c (.inl inside)
    have beside := ih fun c inside => others c (.inr inside)
    rw [unrollAll_cons, squashAll_append, contentsAll_append, List.map_append, beside, numbersWithin_cons,
      numbers_squashAll_map]
    congr 1
    -- the copies of a repeating content have numbers of their own, any other has that of the mark
    rw [Content.copies, Content.numbersWithin]
    by_cases repeating : c.isRepeating = true
    · rw [if_pos repeating, if_pos repeating, List.flatMap_map]
      refine List.flatMap_congr fun number _ => ?_
      rw [below, Content.isGroup_marked]
      rfl
    · rw [if_neg repeating, if_neg repeating, List.flatMap_singleton, List.flatMap_singleton, below,
        Content.isGroup_marked, own.counter_marked]

/-- The numbers of an optimized tree are those that belong to the first copy of its root. -/
theorem numbers_optimize {kids : List Node} (unnumbered : ∀ c ∈ contentsAll kids, c.IsUnnumbered) (c : Content) :
    (optimize (mk c kids)).numbers = numbersWithin 1 kids := numbers_squashAll_unrollAll unnumbered {}

end Node

end Shorthand
