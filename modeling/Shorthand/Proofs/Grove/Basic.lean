import Shorthand.Node.Basic
import Mathlib.Data.List.Nodup

/-! # Groves

A grove is an ordered list of trees whose nodes carry labels. It is written as its first tree, whose root stands over a
grove of its own, followed by the other trees, so that one induction goes through a list of trees and through what is
below their roots. With node identities as labels a grove lays out a part of a forest; with contents as labels it is
a list of nodes.

* **`Grove.roots`**, **`Grove.labels`** — the labels of the roots, and of all nodes in pre-order.
* **`Grove.map`** — the same trees with other labels.
* **`Grove.nodes`** — a grove of contents as a list of nodes.
* **`Grove.numbered`** — the same trees with identities that are counted up in pre-order. -/

namespace Shorthand

/-- An ordered list of trees with labels of a type. -/
inductive Grove (α : Type) where
  /-- No tree. -/
  | nil
  /-- A tree with the label of its root and what is below the root, followed by other trees. -/
  | cons (label : α) (below rest : Grove α)

namespace Grove

variable {α β γ : Type}

/-- The labels of the roots. -/
def roots : Grove α → List α
  | nil => []
  | cons a _ rest => a :: rest.roots

/-- The labels of all nodes in pre-order. -/
def labels : Grove α → List α
  | nil => []
  | cons a below rest => a :: (below.labels ++ rest.labels)

/-- The number of levels. -/
def height : Grove α → Nat
  | nil => 0
  | cons _ below rest => max (below.height + 1) rest.height

/-- The same trees with other labels. -/
def map (f : α → β) : Grove α → Grove β
  | nil => nil
  | cons a below rest => cons (f a) (below.map f) (rest.map f)

/-- The trees of one grove, followed by those of another. -/
def append : Grove α → Grove α → Grove α
  | nil, other => other
  | cons a below rest, other => cons a below (rest.append other)

instance : Append (Grove α) := ⟨append⟩

/-- A grove of contents as a list of nodes. -/
def nodes : Grove Content → List Node
  | nil => []
  | cons c below rest => .mk c below.nodes :: rest.nodes

/-- The same trees with identities that are counted up from a number in pre-order. -/
def numbered (first : Nat) : Grove α → Grove Nat
  | nil => nil
  | cons _ below rest =>
    cons first (below.numbered (first + 1)) (rest.numbered (first + 1 + below.labels.length))

@[simp] theorem roots_nil : (nil : Grove α).roots = [] := rfl

@[simp] theorem roots_cons (a : α) (below rest : Grove α) :
    (cons a below rest).roots = a :: rest.roots := rfl

@[simp] theorem labels_nil : (nil : Grove α).labels = [] := rfl

@[simp] theorem labels_cons (a : α) (below rest : Grove α) :
    (cons a below rest).labels = a :: (below.labels ++ rest.labels) := rfl

@[simp] theorem height_nil : (nil : Grove α).height = 0 := rfl

@[simp] theorem height_cons (a : α) (below rest : Grove α) :
    (cons a below rest).height = max (below.height + 1) rest.height := rfl

@[simp] theorem map_nil (f : α → β) : (nil : Grove α).map f = nil := rfl

@[simp] theorem map_cons (f : α → β) (a : α) (below rest : Grove α) :
    (cons a below rest).map f = cons (f a) (below.map f) (rest.map f) := rfl

@[simp] theorem nil_append (g : Grove α) : nil ++ g = g := rfl

@[simp] theorem cons_append (a : α) (below rest g : Grove α) :
    cons a below rest ++ g = cons a below (rest ++ g) := rfl

@[simp] theorem nodes_nil : (nil : Grove Content).nodes = [] := rfl

@[simp] theorem nodes_cons (c : Content) (below rest : Grove Content) :
    (cons c below rest).nodes = .mk c below.nodes :: rest.nodes := rfl

/-! ## Appending groves -/

@[simp] theorem append_nil (g : Grove α) : g ++ nil = g := by
  induction g with
  | nil => rfl
  | cons a below rest _ ih => rw [cons_append, ih]

theorem append_assoc (g h k : Grove α) : g ++ h ++ k = g ++ (h ++ k) := by
  induction g with
  | nil => rfl
  | cons a below rest _ ih => rw [cons_append, cons_append, cons_append, ih]

@[simp] theorem roots_append (g h : Grove α) : (g ++ h).roots = g.roots ++ h.roots := by
  induction g with
  | nil => rfl
  | cons a below rest _ ih => rw [cons_append, roots_cons, roots_cons, ih, List.cons_append]

@[simp] theorem labels_append (g h : Grove α) : (g ++ h).labels = g.labels ++ h.labels := by
  induction g with
  | nil => rfl
  | cons a below rest _ ih =>
    rw [cons_append, labels_cons, labels_cons, ih, List.cons_append, List.append_assoc]

@[simp] theorem height_append (g h : Grove α) : (g ++ h).height = max g.height h.height := by
  induction g with
  | nil => rw [nil_append, height_nil, Nat.zero_max]
  | cons a below rest _ ih => rw [cons_append, height_cons, height_cons, ih, Nat.max_assoc]

@[simp] theorem map_append (f : α → β) (g h : Grove α) : (g ++ h).map f = g.map f ++ h.map f := by
  induction g with
  | nil => rfl
  | cons a below rest _ ih => rw [cons_append, map_cons, map_cons, ih, cons_append]

@[simp] theorem nodes_append (g h : Grove Content) : (g ++ h).nodes = g.nodes ++ h.nodes := by
  induction g with
  | nil => rfl
  | cons c below rest _ ih => rw [cons_append, nodes_cons, nodes_cons, ih, List.cons_append]

/-! ## Changing labels -/

theorem map_map (f : α → β) (g : β → γ) (trees : Grove α) :
    (trees.map f).map g = trees.map fun a => g (f a) := by
  induction trees with
  | nil => rfl
  | cons a below rest belowInduction ih =>
    rw [map_cons, map_cons, map_cons, belowInduction, ih]

/-- Only what a change makes of the labels that occur matters. -/
theorem map_congr {f g : α → β} {trees : Grove α} (same : ∀ a ∈ trees.labels, f a = g a) :
    trees.map f = trees.map g := by
  induction trees with
  | nil => rfl
  | cons a below rest belowInduction ih =>
    simp only [labels_cons, List.mem_cons, List.mem_append, forall_eq_or_imp] at same
    rw [map_cons, map_cons, same.1, belowInduction fun x inside => same.2 x (.inl inside),
      ih fun x inside => same.2 x (.inr inside)]

/-- Changes that give the same grove agree on the labels that occur. -/
theorem eq_of_map_eq {f g : α → β} {trees : Grove α} (same : trees.map f = trees.map g) {a : α}
    (inside : a ∈ trees.labels) : f a = g a := by
  induction trees with
  | nil => exact absurd inside List.not_mem_nil
  | cons b below rest belowInduction ih =>
    simp only [map_cons, cons.injEq] at same
    rcases List.mem_cons.1 inside with rfl | later
    · exact same.1
    · rcases List.mem_append.1 later with inBelow | inRest
      · exact belowInduction same.2.1 inBelow
      · exact ih same.2.2 inRest

/-- A change that keeps all labels that occur keeps the grove. -/
theorem map_eq_self {f : α → α} {trees : Grove α} (same : ∀ a ∈ trees.labels, f a = a) :
    trees.map f = trees := by
  induction trees with
  | nil => rfl
  | cons a below rest belowInduction ih =>
    simp only [labels_cons, List.mem_cons, List.mem_append, forall_eq_or_imp] at same
    rw [map_cons, same.1, belowInduction fun x inside => same.2 x (.inl inside),
      ih fun x inside => same.2 x (.inr inside)]

/-- Two changes of labels may be seen at once. -/
theorem map_pair {δ : Type} {g : Grove α} {h : Grove β} {a : α → γ} {b : α → δ} {a' : β → γ}
    {b' : β → δ} (first : g.map a = h.map a') (second : g.map b = h.map b') :
    (g.map fun x => (a x, b x)) = h.map fun y => (a' y, b' y) := by
  induction g generalizing h with
  | nil =>
    cases h with
    | nil => rfl
    | cons y below rest => cases first
  | cons x below rest belowInduction ih =>
    cases h with
    | nil => cases first
    | cons y below' rest' =>
      simp only [map_cons, cons.injEq] at first second
      rw [map_cons, map_cons, first.1, second.1, belowInduction first.2.1 second.2.1,
        ih first.2.2 second.2.2]

@[simp] theorem roots_map (f : α → β) (trees : Grove α) :
    (trees.map f).roots = trees.roots.map f := by
  induction trees with
  | nil => rfl
  | cons a below rest _ ih => rw [map_cons, roots_cons, roots_cons, ih, List.map_cons]

@[simp] theorem labels_map (f : α → β) (trees : Grove α) :
    (trees.map f).labels = trees.labels.map f := by
  induction trees with
  | nil => rfl
  | cons a below rest belowInduction ih =>
    rw [map_cons, labels_cons, labels_cons, belowInduction, ih, List.map_cons, List.map_append]

@[simp] theorem height_map (f : α → β) (trees : Grove α) : (trees.map f).height = trees.height := by
  induction trees with
  | nil => rfl
  | cons a below rest belowInduction ih =>
    rw [map_cons, height_cons, height_cons, belowInduction, ih]

/-- Changing the contents below every node of a list goes through the grove. -/
theorem nodes_map (f : Content → Content) (trees : Grove Content) :
    (trees.map f).nodes = Node.mapEach f trees.nodes := by
  induction trees with
  | nil => rw [map_nil, nodes_nil, Node.mapEach]
  | cons c below rest belowInduction ih =>
    rw [map_cons, nodes_cons, nodes_cons, Node.mapEach, Node.mapAll_mk, belowInduction, ih]

/-! ## Labels and levels -/

/-- The roots are among all nodes, in the same order. -/
theorem roots_sublist_labels (g : Grove α) : g.roots.Sublist g.labels := by
  induction g with
  | nil => exact List.Sublist.refl _
  | cons a below rest _ ih =>
    rw [roots_cons, labels_cons]
    exact (ih.trans (List.sublist_append_right ..)).cons_cons a

/-- The roots are among all nodes. -/
theorem mem_labels_of_mem_roots {g : Grove α} {a : α} (h : a ∈ g.roots) : a ∈ g.labels :=
  g.roots_sublist_labels.subset h

/-- A grove without levels has no tree. -/
theorem eq_nil_of_height_le_zero {g : Grove α} (h : g.height ≤ 0) : g = nil := by
  cases g with
  | nil => rfl
  | cons a below rest =>
    rw [height_cons] at h
    omega

/-- There are at least as many nodes as levels. -/
theorem height_le_length_labels (g : Grove α) : g.height ≤ g.labels.length := by
  induction g with
  | nil => exact Nat.le_refl 0
  | cons a below rest belowInduction ih =>
    rw [height_cons, labels_cons, List.length_cons, List.length_append]
    omega

/-! ## Counted identities -/

/-- The identities are counted up without a gap. -/
theorem labels_numbered (first : Nat) (g : Grove α) :
    (g.numbered first).labels = List.range' first g.labels.length := by
  induction g generalizing first with
  | nil => rfl
  | cons a below rest belowInduction ih =>
    rw [numbered, labels_cons, labels_cons, belowInduction, ih, List.length_cons,
      List.length_append, List.range'_succ, List.range'_append_1]

/-- The identities depend on the shape of the trees alone. -/
theorem numbered_map (first : Nat) (f : α → β) (g : Grove α) :
    (g.map f).numbered first = g.numbered first := by
  induction g generalizing first with
  | nil => rfl
  | cons a below rest belowInduction ih =>
    rw [map_cons, numbered, numbered, belowInduction, ih, labels_map, List.length_map]

/-- Looking the counted identities up in the list of labels gives the labels back. -/
theorem map_numbered {first : Nat} {g : Grove α} {look : Nat → α}
    (found : ∀ i (h : i < g.labels.length), look (first + i) = g.labels[i]) :
    (g.numbered first).map look = g := by
  induction g generalizing first with
  | nil => rfl
  | cons a below rest belowInduction ih =>
    -- the first number belongs to the root, the next ones to what is below it, the last ones to the rest
    rw [numbered, map_cons]
    congr 1
    · have here := found 0 (by simp)
      simpa using here
    · refine belowInduction fun i h => ?_
      have there := found (i + 1) (by simp only [labels_cons, List.length_cons, List.length_append]; omega)
      rw [Nat.add_assoc, Nat.add_comm 1, there]
      simp [List.getElem_append_left h]
    · refine ih fun i h => ?_
      have there := found (below.labels.length + i + 1)
        (by simp only [labels_cons, List.length_cons, List.length_append]; omega)
      have place : first + 1 + below.labels.length + i = first + (below.labels.length + i + 1) := by
        omega
      rw [place, there]
      simp [List.getElem_append_right]

/-- The counted identities of a tree can be traced back to its labels, that of the root first. -/
theorem exists_map_numbered (first : Nat) (root : α) (g : Grove α) :
    ∃ look : Nat → α, look first = root ∧ (g.numbered (first + 1)).map look = g := by
  refine ⟨fun x => (root :: g.labels).getD (x - first) root, ?_, map_numbered fun i inside => ?_⟩
  · simp only [Nat.sub_self, List.getD_cons_zero]
  · rw [show first + 1 + i - first = i + 1 by omega, List.getD_cons_succ, List.getD_eq_getElem?_getD,
      List.getElem?_eq_getElem inside, Option.getD_some]

end Grove

end Shorthand
