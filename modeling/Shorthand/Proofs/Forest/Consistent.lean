import Mathlib.Logic.Relation
import Shorthand.Proofs.Forest.Copies

/-! # Consistent forests

The parent of a node and the lists of children say the same thing twice. A forest is *consistent* if they agree for all
of its nodes, whichever trees these belong to, and no node is above itself. Then it is well formed below every node, and
the nodes that are met going down from a node are those from which the links to parents lead up to it.

* **`Forest.Up`** — the step from a node to its parent.
* **`Forest.IsConsistent`** — parents and lists agree, and no node is its own ancestor.
* `Forest.IsConsistent.wellFormed` — a consistent forest is well formed below every node.
* `Forest.IsConsistent.mem_preorder_iff` — the nodes that are met going down are those that lead up.
* `Forest.isConsistent_of_count` — consistency from one equation for all lists.
* `Forest.not_up_cycle` — linking nodes to a node that is not below them closes no cycle. -/

namespace Shorthand.Forest

/-- A node is linked to a parent. -/
def Up (f : Forest) (x p : NodeId) : Prop := f.parent? x = some p

/-- The links to parents and the lists of children of all nodes agree. -/
structure IsConsistent (f : Forest) : Prop where
  /-- A node with a parent is listed once by the parent, and by no other node. -/
  listed_once : ∀ x p, f.parent? x = some p → ∀ q, (f.children q).count x = if q = p then 1 else 0
  /-- A node without a parent is listed by no node. -/
  unlisted : ∀ x, f.parent? x = none → ∀ q, x ∉ f.children q
  /-- No node is its own ancestor. -/
  acyclic : ∀ x, ¬ Relation.TransGen f.Up x x

variable {f f' : Forest} {x y p q : NodeId} {levels : Nat}

/-- What is no node of the forest has no parent. -/
theorem parent?_of_size_le (outside : f.size ≤ x) : f.parent? x = none := by
  rw [parent?, cell_of_size_le outside]

/-- What is no node of the forest has no children. -/
theorem children_of_size_le (outside : f.size ≤ x) : f.children x = [] := by
  rw [children, cell_of_size_le outside]

/-- What has a parent is a node of the forest. -/
theorem lt_size_of_parent? (linked : f.parent? x = some p) : x < f.size :=
  Nat.lt_of_not_le fun outside => by cases (parent?_of_size_le outside).symm.trans linked

/-- What has children is a node of the forest. -/
theorem lt_size_of_mem_children (listed : x ∈ f.children p) : p < f.size :=
  Nat.lt_of_not_le fun outside => List.not_mem_nil (children_of_size_le outside ▸ listed)

/-! ## The lists of a consistent forest -/

namespace IsConsistent

variable (consistent : f.IsConsistent)

include consistent

/-- The lists follow from the parents. -/
theorem count_children (x q : NodeId) : (f.children q).count x = if f.parent? x = some q then 1 else 0 := by
  cases linked : f.parent? x with
  | none => rw [if_neg (by simp), List.count_eq_zero_of_not_mem (consistent.unlisted x linked q)]
  | some p =>
    rw [consistent.listed_once x p linked q]
    simp only [Option.some_inj, eq_comm]

/-- A node lists exactly the nodes that are linked to it. -/
theorem mem_children_iff : x ∈ f.children p ↔ f.parent? x = some p := by
  rw [← List.count_pos_iff, consistent.count_children]
  split <;> simp_all

/-- No list names a node twice. -/
theorem nodup_children (p : NodeId) : (f.children p).Nodup := by
  refine List.nodup_iff_count_le_one.2 fun x => ?_
  rw [consistent.count_children]
  split <;> simp

/-- A parent is a node of the forest. -/
theorem lt_size_of_up (linked : f.parent? x = some p) : p < f.size :=
  lt_size_of_mem_children (consistent.mem_children_iff.2 linked)

/-! ## Going down and going up -/

/-- What is met going down from a node leads up to it. -/
theorem up_of_mem_preorderWithin (inside : y ∈ f.preorderWithin levels x) : Relation.ReflTransGen f.Up y x := by
  induction levels generalizing x with
  | zero =>
    rw [List.mem_singleton.1 inside]
  | succ levels ih =>
    rcases List.mem_cons.1 inside with rfl | below
    · exact .refl
    · obtain ⟨child, listed, found⟩ := List.mem_flatMap.1 below
      exact (ih found).tail (consistent.mem_children_iff.1 listed)

/-- No child of a node is above another one. -/
theorem eq_of_up_sibling (first : f.parent? x = some p) (second : f.parent? y = some p)
    (up : Relation.ReflTransGen f.Up x y) : x = y := by
  rcases up.cases_head with same | ⟨parent, step, rest⟩
  · exact same
  · -- the way up would come back to the common parent
    have here : p = parent := Option.some_inj.1 (first.symm.trans step)
    have above : Relation.ReflTransGen f.Up p y := here ▸ rest
    have cycle : Relation.TransGen f.Up p p := .tail' above (show f.Up y p from second)
    exact absurd cycle (consistent.acyclic p)

/-- Going down meets no node twice. -/
theorem nodup_preorderWithin (levels : Nat) (x : NodeId) : (f.preorderWithin levels x).Nodup := by
  have unique : Relator.RightUnique f.Up := fun _ _ _ first second =>
    Option.some_inj.1 (first.symm.trans second)
  induction levels generalizing x with
  | zero => exact List.nodup_singleton x
  | succ levels ih =>
    refine List.nodup_cons.2 ⟨fun again => ?_, List.nodup_flatMap.2 ⟨fun child _ => ih child, ?_⟩⟩
    · obtain ⟨child, listed, found⟩ := List.mem_flatMap.1 again
      have up := consistent.up_of_mem_preorderWithin found
      exact consistent.acyclic x (.tail' up (consistent.mem_children_iff.1 listed))
    · refine (consistent.nodup_children x).imp_of_mem fun {a b} inA inB differ y belowA belowB => differ ?_
      have upA := consistent.mem_children_iff.1 inA
      have upB := consistent.mem_children_iff.1 inB
      -- of two nodes above a third one, one is above the other
      rcases Relation.ReflTransGen.total_of_right_unique unique (consistent.up_of_mem_preorderWithin belowA)
        (consistent.up_of_mem_preorderWithin belowB) with up | up
      · exact consistent.eq_of_up_sibling upA upB up
      · exact (consistent.eq_of_up_sibling upB upA up).symm

/-- A consistent forest is well formed below each of its nodes. -/
theorem wellFormed (inside : x < f.size) : f.WellFormed x := by
  refine ⟨fun y found => ?_, consistent.nodup_preorderWithin f.size x, fun y _ child listed =>
    consistent.mem_children_iff.1 listed⟩
  rcases (consistent.up_of_mem_preorderWithin found).cases_head with rfl | ⟨parent, step, -⟩
  · exact inside
  · exact lt_size_of_parent? step

/-- The nodes that are met going down from a node are those that lead up to it. -/
theorem mem_preorder_iff (inside : x < f.size) : y ∈ f.preorder x ↔ Relation.ReflTransGen f.Up y x := by
  refine ⟨consistent.up_of_mem_preorderWithin, fun up => ?_⟩
  obtain ⟨g, bears⟩ := wellFormed_iff_exists_bears.1 (consistent.wellFormed inside)
  rw [bears.preorder]
  induction up using Relation.ReflTransGen.head_induction_on with
  | refl => exact List.mem_cons_self
  | head step _ above => exact List.mem_cons_of_mem _ (bears.mem_of_listed above (consistent.mem_children_iff.2 step))

end IsConsistent

/-! ## Consistency of a changed forest -/

/-- A forest is consistent if the lists follow from the parents and no node is above itself. -/
theorem isConsistent_of_count
    (count : ∀ x q, (f.children q).count x = if f.parent? x = some q then 1 else 0)
    (acyclic : ∀ x, ¬ Relation.TransGen f.Up x x) : f.IsConsistent := by
  refine ⟨fun x p linked q => ?_, fun x free q listed => ?_, acyclic⟩
  · rw [count, linked]
    simp only [Option.some_inj, eq_comm]
  · have some := List.count_pos_iff.2 listed
    rw [count, free, if_neg (by simp)] at some
    exact Nat.lt_irrefl 0 some

/-- What has the same parents and lists is consistent as well. -/
theorem IsConsistent.of_links (consistent : f.IsConsistent) (parents : ∀ x, f'.parent? x = f.parent? x)
    (lists : ∀ x, f'.children x = f.children x) : f'.IsConsistent := by
  have up : f'.Up = f.Up := by
    funext x p
    rw [Up, Up, parents]
  refine isConsistent_of_count (fun x q => ?_) (up ▸ consistent.acyclic)
  rw [lists, parents, consistent.count_children]

section Relinking

variable {moved : List NodeId} (links : ∀ x q, f'.Up x q → f.Up x q ∨ x ∈ moved ∧ q = p)
  (apart : ∀ s ∈ moved, ¬ Relation.ReflTransGen f.Up p s)

include links

/-- A way up through new links goes through a node that was moved, and from there on up from its new parent. -/
theorem up_of_links (up : Relation.TransGen f'.Up x y) :
    Relation.TransGen f.Up x y ∨
      ∃ s ∈ moved, Relation.ReflTransGen f'.Up x s ∧ Relation.ReflTransGen f'.Up p y := by
  induction up with
  | single step =>
    rcases links _ _ step with old | ⟨new, rfl⟩
    · exact .inl (.single old)
    · exact .inr ⟨x, new, .refl, .refl⟩
  | tail up step ih =>
    rcases ih with before | ⟨s, new, lower, upper⟩
    · rcases links _ _ step with old | ⟨new, rfl⟩
      · exact .inl (before.tail old)
      · exact .inr ⟨_, new, up.to_reflTransGen, .refl⟩
    · exact .inr ⟨s, new, lower, upper.tail step⟩

include apart

/-- The way up from the new parent is an old one, for it does not come to a node that was moved. -/
theorem up_parent_of_links (up : Relation.ReflTransGen f'.Up p y) : Relation.ReflTransGen f.Up p y := by
  induction up with
  | refl => exact .refl
  | tail _ step ih =>
    rcases links _ _ step with old | ⟨new, -⟩
    · exact ih.tail old
    · exact absurd ih (apart _ new)

/-- Linking nodes to a node that is not below them closes no cycle. -/
theorem not_up_cycle (acyclic : ∀ x, ¬ Relation.TransGen f.Up x x) (x : NodeId) :
    ¬ Relation.TransGen f'.Up x x := by
  intro cycle
  rcases up_of_links links cycle with old | ⟨s, new, lower, upper⟩
  · exact acyclic x old
  · exact apart s new (up_parent_of_links links apart (upper.trans lower))

end Relinking

end Shorthand.Forest
