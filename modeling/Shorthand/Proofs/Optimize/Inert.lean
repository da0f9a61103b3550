import Shorthand.Proofs.Optimize.Unroll
import Shorthand.Optimize.Basic

/-! # Changes that optimizing does not notice

The passes look at the abbreviation of a content and at how it is repeated, and they write its count, its number and its
slots. A change of contents that leaves the former alone and does not get into the way of the latter can be made before
or after a pass, with the same result.

* **`Content.IsInert`** — the change leaves alone what the passes look at, and commutes with what they write.
* `Node.unrollAll_mapEach`, `Node.squashAll_mapEach` — such a change commutes with either pass.
* `optimize_mapBelow` — and with both. -/

namespace Shorthand

namespace Content

/-- A change of contents that the passes do not notice. -/
structure IsInert (f : Content → Content) : Prop where
  /-- Groups stay groups, and other nodes keep their abbreviations. -/
  abbreviation_eq : ∀ c, (f c).abbreviation = c.abbreviation
  /-- The count stays. -/
  repeatCount_eq : ∀ c, (f c).repeatCount = c.repeatCount
  /-- The flag of a bare multiplier stays. -/
  implicitRepeat_eq : ∀ c, (f c).implicitRepeat = c.implicitRepeat
  /-- The count may be taken as done before or after. -/
  once_comm : ∀ c, f c.once = (f c).once
  /-- The number may be written before or after. -/
  numbered_comm : ∀ n c, f (c.numbered n) = (f c).numbered n
  /-- The slots may be emptied before or after. -/
  withoutSlots_comm : ∀ c, f c.withoutSlots = (f c).withoutSlots

namespace IsInert

variable {f : Content → Content} (inert : IsInert f)
include inert

theorem isGroup_eq (c : Content) : (f c).isGroup = c.isGroup := by
  rw [isGroup, inert.abbreviation_eq, isGroup]

theorem isRepeating_eq (c : Content) : (f c).isRepeating = c.isRepeating := by
  rw [isRepeating, inert.repeatCount_eq, inert.implicitRepeat_eq, isRepeating]

theorem copyNumbers_eq (c : Content) : (f c).copyNumbers = c.copyNumbers := by
  rw [copyNumbers, inert.repeatCount_eq, copyNumbers]

/-- The mark of a copy may be written before or after. -/
theorem marked_comm (mark : CopyMark) (c : Content) : f (c.marked mark) = (f c).marked mark := by
  obtain ⟨number, isNew⟩ := mark
  cases number <;> cases isNew <;>
    simp [marked, inert.numbered_comm, inert.withoutSlots_comm]

/-- The copies of a changed content are the changed copies. -/
theorem copies_eq (mark : CopyMark) (c : Content) :
    (f c).copies mark = (c.copies mark).map fun copy => (copy.1, f copy.2) := by
  rw [copies, copies, inert.isRepeating_eq, inert.copyNumbers_eq]
  by_cases repeating : c.isRepeating = true
  · rw [if_pos repeating, if_pos repeating, List.map_map]
    refine List.map_congr_left ?_
    intro number _
    simp only [Function.comp_apply, inert.marked_comm, inert.once_comm]
  · rw [if_neg repeating, if_neg repeating, List.map_singleton, inert.marked_comm]

end IsInert

end Content

namespace Node

variable {f : Content → Content}

theorem mapEach_nil : mapEach f [] = [] := by rw [mapEach]

theorem mapEach_cons (c : Content) (kids rest : List Node) :
    mapEach f (mk c kids :: rest) = mk (f c) (mapEach f kids) :: mapEach f rest := by
  rw [mapEach, mapAll_mk]

theorem mapEach_append (before after : List Node) :
    mapEach f (before ++ after) = mapEach f before ++ mapEach f after := by
  rw [mapEach_eq_map, mapEach_eq_map, mapEach_eq_map, List.map_append]

/-- Changed nodes are unrolled to what the unrolled nodes are changed to. -/
theorem unrollAll_mapEach (inert : Content.IsInert f) (mark : CopyMark) (nodes : List Node) :
    unrollAll mark (mapEach f nodes) = mapEach f (unrollAll mark nodes) := by
  induction nodes using Node.induction generalizing mark with
  | nil => rw [mapEach_nil, unrollAll_nil, mapEach_nil]
  | cons c kids rest kidsInduction ih =>
    rw [mapEach_cons, unrollAll_cons, unrollAll_cons, mapEach_append, ih, inert.copies_eq,
      List.map_map, mapEach_eq_map f (List.map _ _), List.map_map]
    congr 1
    refine List.map_congr_left ?_
    intro copy _
    simp only [Function.comp_apply, mapAll_mk, kidsInduction]

/-- Changed nodes are squashed to what the squashed nodes are changed to, if groups stay groups. -/
theorem squashAll_mapEach (isGroup_eq : ∀ c, (f c).isGroup = c.isGroup) (nodes : List Node) :
    squashAll (mapEach f nodes) = mapEach f (squashAll nodes) := by
  induction nodes using Node.induction with
  | nil => rw [mapEach_nil, squashAll_nil, mapEach_nil]
  | cons c kids rest kidsInduction ih =>
    rw [mapEach_cons, squashAll_cons, squashAll_cons, mapEach_append, ih, isGroup_eq,
      kidsInduction]
    by_cases group : c.isGroup = true
    · rw [if_pos group, if_pos group]
    · rw [if_neg group, if_neg group, mapEach_cons, mapEach_nil]

/-- Changing contents below a node leaves the number of levels as it is. -/
theorem height_mapBelow (f : Content → Content) (root : Node) :
    (root.mapBelow f).height = root.height := by
  obtain ⟨c, kids⟩ := root
  rw [mapBelow, withChildren, height, height, heightAll_mapEach]

end Node

/-- A change that the passes do not notice is made before or after optimizing a tree. -/
theorem optimize_mapBelow {f : Content → Content} (inert : Content.IsInert f) (root : Node) :
    optimize (root.mapBelow f) = (optimize root).mapBelow f := by
  obtain ⟨c, kids⟩ := root
  show Node.mk c (Node.squashAll (Node.unrollAll {} (Node.mapEach f kids))) =
    Node.mk c (Node.mapEach f (Node.squashAll (Node.unrollAll {} kids)))
  rw [Node.unrollAll_mapEach inert, Node.squashAll_mapEach inert.isGroup_eq]

end Shorthand
