import Mathlib.Algebra.Order.Ring.Int
import Shorthand.Proofs.Grove.Unroll

/-! # How often unrolling copies a node

Where a label determines the roots of what is below it, each label occurs as often as its parent does, times the number
of its occurrences among the children of the parent. Unrolling multiplies these numbers by the numbers of copies.

* **`Grove.Lists`** — each label determines the roots of what is below it.
* `Grove.Lists.count_eq` — a label occurs once for each time that it is listed.
* **`Grove.CountsBelow`** — below the roots the contents are copied as often as a number says.
* `Grove.lists_unrollWithin` — the copies list the copies of the children. -/

namespace Shorthand.Grove

variable {α β : Type}

/-- The labels of the roots below each node are those that its own label lists. -/
def Lists (kids : α → List α) : Grove α → Prop
  | nil => True
  | cons a below rest => kids a = below.roots ∧ below.Lists kids ∧ rest.Lists kids

variable {kids : α → List α} {g h : Grove α}

@[simp] theorem lists_nil : (nil : Grove α).Lists kids := trivial

theorem lists_cons {a : α} {below rest : Grove α} :
    (cons a below rest).Lists kids ↔ kids a = below.roots ∧ below.Lists kids ∧ rest.Lists kids :=
  Iff.rfl

theorem lists_append : (g ++ h).Lists kids ↔ g.Lists kids ∧ h.Lists kids := by
  induction g with
  | nil => rw [nil_append, and_iff_right lists_nil]
  | cons a below rest _ ih => rw [cons_append, lists_cons, lists_cons, ih]; tauto

namespace Lists

/-- What a label lists is below it. -/
theorem sublist (lists : g.Lists kids) {a : α} (inside : a ∈ g.labels) :
    (kids a).Sublist g.labels := by
  induction g with
  | nil => exact absurd inside List.not_mem_nil
  | cons b below rest belowInduction ih =>
    obtain ⟨here, belowLists, restLists⟩ := lists
    rw [labels_cons]
    rcases List.mem_cons.1 inside with rfl | later
    · rw [here]
      exact (below.roots_sublist_labels.trans (List.sublist_append_left ..)).cons a
    · rcases List.mem_append.1 later with inBelow | inRest
      · exact ((belowInduction belowLists inBelow).trans (List.sublist_append_left ..)).cons b
      · exact ((ih restLists inRest).trans (List.sublist_append_right ..)).cons b

/-- The nodes are the roots and all the children. -/
theorem perm (lists : g.Lists kids) : g.labels.Perm (g.roots ++ g.labels.flatMap kids) := by
  classical
  induction g with
  | nil => exact List.Perm.refl []
  | cons a below rest belowInduction ih =>
    obtain ⟨here, belowLists, restLists⟩ := lists
    -- what the label of the root lists are the roots below it
    refine List.perm_iff_count.2 fun x => ?_
    have inBelow := (belowInduction belowLists).count_eq x
    have inRest := (ih restLists).count_eq x
    simp only [List.count_append] at inBelow inRest
    simp only [labels_cons, roots_cons, List.flatMap_cons, List.flatMap_append, here,
      List.cons_append, List.count_cons, List.count_append]
    omega

/-- If a grove and the same grove with other labels both determine what is listed, then the lists correspond. -/
theorem map_kids {kids' : β → List β} {change : α → β} (lists : g.Lists kids)
    (lists' : (g.map change).Lists kids') {a : α} (inside : a ∈ g.labels) :
    (kids a).map change = kids' (change a) := by
  induction g with
  | nil => exact absurd inside List.not_mem_nil
  | cons b below rest belowInduction ih =>
    obtain ⟨here, belowLists, restLists⟩ := lists
    obtain ⟨here', belowLists', restLists'⟩ := lists'
    rcases List.mem_cons.1 inside with rfl | later
    · rw [here, here', roots_map]
    · rcases List.mem_append.1 later with inBelow | inRest
      · exact belowInduction belowLists belowLists' inBelow
      · exact ih restLists restLists' inRest

variable [DecidableEq α] {root x p : α}

/-- Below a root that lists the roots of the grove, a node occurs once for each time that it is listed. -/
theorem count_eq (lists : g.Lists kids) (roots : kids root = g.roots) (x : α) :
    (root :: g.labels).count x =
      [root].count x + ((root :: g.labels).map fun a => (kids a).count x).sum := by
  have all : (root :: g.labels).Perm ([root] ++ (root :: g.labels).flatMap kids) := by
    rw [List.flatMap_cons, roots, List.singleton_append]
    exact lists.perm.cons root
  rw [all.count_eq, List.count_append, List.count_flatMap]
  rfl

end Lists

/-! ## Copies -/

/-- The labels of a list, each as often as a number says. -/
def times (number : α → Nat) (labels : List α) : List α :=
  labels.flatMap fun a => List.replicate (number a) a

@[simp] theorem times_nil (number : α → Nat) : times number [] = [] := rfl

/-- The origins of a grove. -/
def origins (v : Grove (α × Content)) : Grove α := v.map Prod.fst

@[simp] theorem origins_nil : (nil : Grove (α × Content)).origins = nil := rfl

@[simp] theorem origins_cons (l : α × Content) (below rest : Grove (α × Content)) :
    (cons l below rest).origins = cons l.1 below.origins rest.origins := rfl

@[simp] theorem origins_append (v w : Grove (α × Content)) :
    (v ++ w).origins = v.origins ++ w.origins := map_append ..

@[simp] theorem origins_mapContent (f : Content → Content) (v : Grove (α × Content)) :
    (v.mapContent f).origins = v.origins := by
  rw [origins, mapContent, map_map, origins]

variable {number : α → Nat}

/-- Copies of trees have the origins of the trees. -/
theorem Lists.copiesOf {v : Grove (α × Content)} (lists : v.origins.Lists kids) (numbers : List Int) :
    (v.copiesOf numbers).origins.Lists kids := by
  induction numbers with
  | nil => exact lists_nil
  | cons k rest ih =>
    rw [copiesOf_cons, origins_append, lists_append, origins_mapContent]
    exact ⟨lists, ih⟩

/-- Putting copies of the roots in their places moves nothing below them. -/
theorem Lists.expand {v : Grove (α × Content)} (lists : v.origins.Lists kids) :
    v.expand.origins.Lists kids := by
  induction v with
  | nil => exact lists_nil
  | cons l below rest _ ih =>
    obtain ⟨here, belowLists, restLists⟩ := lists
    rw [Grove.expand, origins_append, lists_append]
    refine ⟨?_, ih restLists⟩
    by_cases repeating : l.2.isRepeating = true
    · rw [if_pos repeating]
      exact Lists.copiesOf (v := cons (l.1, l.2.once) below nil) ⟨here, belowLists, lists_nil⟩ _
    · rw [if_neg repeating]
      exact ⟨here, belowLists, lists_nil⟩

/-- Below the roots the contents are copied as often as a number says. -/
def CountsBelow (number : α → Nat) : Grove (α × Content) → Prop
  | nil => True
  | cons _ below rest => (∀ l ∈ below.labels, l.2.copyCount = number l.1) ∧ rest.CountsBelow number

/-- If a change makes lists of copies from the lists of the children, and it copies the roots, then below the roots of
a grove it makes lists of copies. -/
theorem Lists.mapBelow {levels : Nat} {change : Grove (α × Content) → Grove (α × Content)}
    (copies : ∀ {u : Grove (α × Content)}, u.origins.Lists kids →
      (∀ l ∈ u.labels, l.2.copyCount = number l.1) → u.height ≤ levels →
      (change u).origins.roots = times number u.origins.roots ∧
        (change u).origins.Lists fun a => times number (kids a))
    {v : Grove (α × Content)} (lists : v.origins.Lists kids) (counts : v.CountsBelow number)
    (enough : v.height ≤ levels + 1) :
    (v.mapBelow change).origins.Lists fun a => times number (kids a) := by
  induction v with
  | nil => exact lists_nil
  | cons l below rest _ ih =>
    rw [origins_cons, lists_cons] at lists
    rw [height_cons] at enough
    obtain ⟨here, belowLists, restLists⟩ := lists
    obtain ⟨roots, belowCopies⟩ := copies belowLists counts.1 (by omega)
    rw [mapBelow_cons, origins_cons, lists_cons]
    refine ⟨?_, belowCopies, ih restLists counts.2 (by omega)⟩
    rw [roots, ← here]

end Shorthand.Grove
