import Shorthand.Proofs.Optimize.Numbers

/-! # The order of the passes

Unrolling multiplies what is below a repeated node, and squashing dissolves the groups among it. A group that is not
repeated takes part in the first pass only by handing the mark of the copy around it down to its children, and these
receive the same mark if they are in its place already. So the passes may change places, unless a group is repeated: its
count is lost if it is dissolved first.

* `Node.squashAll_unrollAll` — the passes may change places where no group is repeated. -/

namespace Shorthand

namespace Content

/-- Copies are groups exactly if the content is one. -/
theorem isGroup_of_mem_copies {mark : CopyMark} {c : Content} {copy : CopyMark × Content}
    (made : copy ∈ c.copies mark) : copy.2.isGroup = c.isGroup := by
  rw [isGroup, (isCopyOf_of_mem_copies made).abbreviation_eq, isGroup]

/-- A content that is not repeating is only marked. -/
theorem copies_of_not_isRepeating {c : Content} (single : c.isRepeating = false) (mark : CopyMark) :
    c.copies mark = [(mark, c.marked mark)] := by
  rw [copies, single]
  exact if_neg Bool.false_ne_true

/-- A group that is not to be repeated, so that nothing is lost if it is dissolved. -/
def IsLoose (c : Content) : Prop := c.isGroup = true → c.isRepeating = false

end Content

namespace Node

/-- Where no group is repeated, nodes may be squashed before or after they are unrolled below a copy. -/
theorem squashAll_unrollAll {nodes : List Node} (loose : ∀ c ∈ contentsAll nodes, c.IsLoose) (mark : CopyMark) :
    squashAll (unrollAll mark nodes) = unrollAll mark (squashAll nodes) := by
  induction nodes using Node.induction generalizing mark with
  | nil => rw [unrollAll_nil, squashAll_nil, unrollAll_nil]
  | cons c kids rest kidsInduction ih =>
    simp only [contentsAll_cons, List.mem_cons, List.mem_append, forall_eq_or_imp] at loose
    obtain ⟨own, others⟩ := loose
    have below := kidsInduction fun c inside => others c (.inl inside)
    have beside := ih fun c inside => others c (.inr inside)
    rw [unrollAll_cons, squashAll_append, squashAll_cons, unrollAll_append, beside]
    congr 1
    cases group : c.isGroup with
    | true =>
      -- the group hands its mark down, whether it is dissolved before or after
      rw [Content.copies_of_not_isRepeating (own group), List.map_singleton, squashAll_cons,
        Content.isGroup_marked, group, if_pos rfl, if_pos rfl, squashAll_nil, List.append_nil, below]
    | false =>
      -- the copies of another node stay, and each of them has a mark of its own for what is below it
      have named : ∀ copy ∈ c.copies mark, copy.2.isGroup = false := fun copy made =>
        (Content.isGroup_of_mem_copies made).trans group
      rw [squashAll_map, if_neg Bool.false_ne_true, unrollAll_cons, unrollAll_nil, List.append_nil,
        List.map_eq_flatMap]
      refine List.flatMap_congr fun copy made => ?_
      rw [squashAll_cons, named copy made, if_neg Bool.false_ne_true, squashAll_nil, List.append_nil, below]

/-- Where no group below a root is repeated, the passes may change places. -/
theorem squash_unroll {root : Node} (loose : ∀ c ∈ contentsAll root.children, c.IsLoose) :
    root.unroll.squash = root.squash.unroll := by
  obtain ⟨c, kids⟩ := root
  exact congrArg (mk c) (squashAll_unrollAll loose {})

/-- A repeated group over one node: if it is dissolved first, then nothing is repeated. -/
example :
    let root := mk {} [mk { repeatCount := 2 } [mk { abbreviation := ['a'] } []]]
    root.unroll.squash.descendants.length = 2 ∧ root.squash.unroll.descendants.length = 1 := by
  cbv

end Node

end Shorthand
