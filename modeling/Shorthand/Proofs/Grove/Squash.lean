import Shorthand.Proofs.Grove.Basic
import Shorthand.Optimize.Squash

/-! # Squashing a grove

Squashing takes the nodes of a class out of a grove: each of them gives its place to what is below it. This goes in two
parts. Lifting takes the class out of the upper level only, where nodes that come up are looked at as well; then what
is below the roots that stay is squashed.

* **`Grove.lift`** — the class taken out of the upper level.
* **`Grove.squash`** — the class taken out everywhere.
* `Grove.mapBelow_squash_lift` — squashing is lifting, and squashing what is below the roots.
* `Grove.labels_squash` — the nodes of a squashed grove are the others, in the same order. -/

namespace Shorthand.Grove

variable {α β : Type}

/-- Change what is below each root. -/
def mapBelow (f : Grove α → Grove α) : Grove α → Grove α
  | nil => nil
  | cons a below rest => cons a (f below) (rest.mapBelow f)

/-- Take a class out of the upper level: what is below its nodes comes up and is looked at as well. -/
def lift (p : α → Bool) : Grove α → Grove α
  | nil => nil
  | cons a below rest => (if p a then below.lift p else cons a below nil) ++ rest.lift p

/-- Take a class out of a grove: what is below its nodes comes up. -/
def squash (p : α → Bool) : Grove α → Grove α
  | nil => nil
  | cons a below rest => (if p a then below.squash p else cons a (below.squash p) nil) ++ rest.squash p

@[simp] theorem mapBelow_nil (f : Grove α → Grove α) : mapBelow f nil = nil := rfl

@[simp] theorem mapBelow_cons (f : Grove α → Grove α) (a : α) (below rest : Grove α) :
    mapBelow f (cons a below rest) = cons a (f below) (rest.mapBelow f) := rfl

@[simp] theorem mapBelow_append (f : Grove α → Grove α) (g h : Grove α) :
    (g ++ h).mapBelow f = g.mapBelow f ++ h.mapBelow f := by
  induction g with
  | nil => rfl
  | cons a below rest _ ih => rw [cons_append, mapBelow_cons, mapBelow_cons, ih, cons_append]

@[simp] theorem roots_mapBelow (f : Grove α → Grove α) (g : Grove α) :
    (g.mapBelow f).roots = g.roots := by
  induction g with
  | nil => rfl
  | cons a below rest _ ih => rw [mapBelow_cons, roots_cons, roots_cons, ih]

variable {p : α → Bool}

@[simp] theorem lift_nil : (nil : Grove α).lift p = nil := rfl

/-- A node of the class gives its place to what comes up from below it. -/
theorem lift_cons_of_pos {a : α} (below rest : Grove α) (h : p a = true) :
    (cons a below rest).lift p = below.lift p ++ rest.lift p := by rw [lift, if_pos h]

/-- Another node keeps its place and what is below it. -/
theorem lift_cons_of_neg {a : α} (below rest : Grove α) (h : p a = false) :
    (cons a below rest).lift p = cons a below (rest.lift p) := by
  rw [lift, if_neg (by rw [h]; exact Bool.false_ne_true), cons_append, nil_append]

theorem lift_append (g h : Grove α) : (g ++ h).lift p = g.lift p ++ h.lift p := by
  induction g with
  | nil => rfl
  | cons a below rest _ ih => rw [cons_append, lift, lift, ih, append_assoc]

@[simp] theorem squash_nil : (nil : Grove α).squash p = nil := rfl

/-- A node of the class gives its place to what is below it, squashed. -/
theorem squash_cons_of_pos {a : α} (below rest : Grove α) (h : p a = true) :
    (cons a below rest).squash p = below.squash p ++ rest.squash p := by rw [squash, if_pos h]

/-- Another node keeps its place, and what is below it is squashed. -/
theorem squash_cons_of_neg {a : α} (below rest : Grove α) (h : p a = false) :
    (cons a below rest).squash p = cons a (below.squash p) (rest.squash p) := by
  rw [squash, if_neg (by rw [h]; exact Bool.false_ne_true), cons_append, nil_append]

/-- Squashing lifts the upper level and squashes what is below the roots that stay. -/
theorem mapBelow_squash_lift (g : Grove α) : (g.lift p).mapBelow (squash p) = g.squash p := by
  induction g with
  | nil => rfl
  | cons a below rest belowInduction ih =>
    cases class_a : p a with
    | true =>
      rw [lift_cons_of_pos _ _ class_a, squash_cons_of_pos _ _ class_a, mapBelow_append,
        belowInduction, ih]
    | false =>
      rw [lift_cons_of_neg _ _ class_a, squash_cons_of_neg _ _ class_a, mapBelow_cons, ih]

/-- Lifting adds no nodes. -/
theorem lift_labels_sublist (g : Grove α) : (g.lift p).labels.Sublist g.labels := by
  induction g with
  | nil => exact List.Sublist.refl _
  | cons a below rest belowInduction ih =>
    cases class_a : p a with
    | true =>
      rw [lift_cons_of_pos _ _ class_a, labels_append, labels_cons]
      exact (belowInduction.append ih).cons a
    | false =>
      rw [lift_cons_of_neg _ _ class_a, labels_cons, labels_cons]
      exact (ih.append_left below.labels).cons_cons a

/-- Lifting adds no levels. -/
theorem height_lift_le (g : Grove α) : (g.lift p).height ≤ g.height := by
  induction g with
  | nil => exact Nat.le_refl 0
  | cons a below rest belowInduction ih =>
    cases class_a : p a with
    | true =>
      rw [lift_cons_of_pos _ _ class_a, height_append, height_cons]
      omega
    | false =>
      rw [lift_cons_of_neg _ _ class_a, height_cons, height_cons]
      omega

/-- A squashed grove has the nodes outside of the class, in the same order. -/
theorem labels_squash (g : Grove α) : (g.squash p).labels = g.labels.filter fun a => !p a := by
  induction g with
  | nil => rfl
  | cons a below rest belowInduction ih =>
    cases class_a : p a with
    | true =>
      rw [squash_cons_of_pos _ _ class_a, labels_append, belowInduction, ih, labels_cons,
        List.filter_cons_of_neg (by simp [class_a]), List.filter_append]
    | false =>
      rw [squash_cons_of_neg _ _ class_a, labels_cons, belowInduction, ih, labels_cons,
        List.filter_cons_of_pos (by simp [class_a]), List.filter_append]

/-- A grove without nodes of the class stays as it is. -/
theorem squash_eq_self {g : Grove α} (none : ∀ a ∈ g.labels, p a = false) : g.squash p = g := by
  induction g with
  | nil => rfl
  | cons a below rest belowInduction ih =>
    simp only [labels_cons, List.mem_cons, List.mem_append, forall_eq_or_imp] at none
    rw [squash_cons_of_neg _ _ none.1, belowInduction fun x inside => none.2 x (.inl inside),
      ih fun x inside => none.2 x (.inr inside)]

/-- Squashing the nodes that a grove gives as contents is squashing the list of nodes. -/
theorem nodes_squash (f : α → Content) (g : Grove α) :
    ((g.squash fun a => (f a).isGroup).map f).nodes = Node.squashAll (g.map f).nodes := by
  induction g with
  | nil => rw [squash_nil, map_nil, nodes_nil, Node.squashAll_nil]
  | cons a below rest belowInduction ih =>
    -- nodes and groves are squashed by the same two cases
    rw [map_cons, nodes_cons, Node.squashAll_cons, ← belowInduction, ← ih]
    cases group : (f a).isGroup with
    | true =>
      rw [squash_cons_of_pos (p := fun a => (f a).isGroup) _ _ group, map_append, nodes_append,
        if_pos rfl]
    | false =>
      rw [squash_cons_of_neg (p := fun a => (f a).isGroup) _ _ group, map_cons, nodes_cons,
        if_neg Bool.false_ne_true, List.singleton_append]

/-- A grove has no tree, or it has a last one. -/
theorem eq_nil_or_append (g : Grove α) : g = nil ∨ ∃ front a below, g = front ++ cons a below nil := by
  induction g with
  | nil => exact .inl rfl
  | cons a below rest _ ih =>
    rcases ih with rfl | ⟨front, b, belowLast, rfl⟩
    · exact .inr ⟨nil, a, below, rfl⟩
    · exact .inr ⟨cons a below front, b, belowLast, rfl⟩

end Shorthand.Grove
