import Shorthand.Forest.Search
import Shorthand.Proofs.Forest.Copies

/-! # Searches and the traversal

The searches are recursions of their own, and so is the traversal of what is below a node. They meet the same nodes in
the same order: what is found is a part of the traversal, and always going to the last child leads to its end. In a
well-formed forest neither is cut off by the number of levels that it may go down.

* `Forest.Bears.preorder_eq` — the traversal goes through the children, one after the other.
* `Forest.findAllWithin_eq_filter`, `Forest.findWithin_eq_head?`, `Forest.lastWithin_eq_getLast?` — each search, level
  by level.
* `Forest.searches_of_wellFormed` — the searches below a node of a well-formed forest. -/

namespace Shorthand.Forest

variable {f : Forest} {id parent : NodeId} {g : Grove NodeId}

/-! ## The traversal -/

/-- Below a standing grove the traversals of its roots follow each other. -/
theorem Stands.flatMap_preorder (stands : f.Stands parent g) (distinct : g.labels.Nodup) :
    g.roots.flatMap f.preorder = g.labels := by
  induction g generalizing parent with
  | nil => rfl
  | cons x below rest _ ih =>
    have bears := stands.bears_below distinct
    rw [Grove.labels_cons, List.nodup_cons, List.nodup_append] at distinct
    rw [Grove.roots_cons, List.flatMap_cons, bears.preorder, ih stands.2.2.2.2 distinct.2.2.1, Grove.labels_cons,
      List.cons_append]

/-- The traversal meets the node, and then it goes through the children, one after the other. -/
theorem Bears.preorder_eq (bears : f.Bears id g) : f.preorder id = id :: (f.children id).flatMap f.preorder := by
  rw [bears.lists, bears.stands.flatMap_preorder bears.nodup, bears.preorder]

/-- The last of a node and of the grove that it lists has no children if that holds of the grove. -/
theorem children_getLast_cons (lists : f.children id = g.roots) (below : ∀ x ∈ g.labels.getLast?, f.children x = []) :
    ∀ x ∈ (id :: g.labels).getLast?, f.children x = [] := by
  intro x last
  rw [List.getLast?_cons] at last
  cases inner : g.labels.getLast? with
  | some y =>
    rw [inner, Option.getD_some, Option.mem_def, Option.some.injEq] at last
    exact last ▸ below y inner
  | none =>
    -- the node is alone, and lists nothing
    rw [inner, Option.getD_none, Option.mem_def, Option.some.injEq] at last
    have empty := g.roots_sublist_labels
    rw [List.getLast?_eq_none_iff.1 inner] at empty
    rw [← last, lists, List.sublist_nil.1 empty]

/-- The last node of a standing grove has no children. -/
theorem Stands.children_getLast (stands : f.Stands parent g) : ∀ x ∈ g.labels.getLast?, f.children x = [] := by
  induction g generalizing parent with
  | nil =>
    intro x last
    cases last
  | cons y below rest belowInduction ih =>
    obtain ⟨-, -, lists, belowStands, restStands⟩ := stands
    intro x last
    rw [Grove.labels_cons, ← List.cons_append, List.getLast?_append] at last
    cases after : rest.labels.getLast? with
    | some z =>
      rw [after, Option.some_or] at last
      exact ih restStands x (after.trans last)
    | none =>
      rw [after, Option.none_or] at last
      exact children_getLast_cons lists (belowInduction belowStands) x last

/-- The traversal ends at a node without children. -/
theorem Bears.children_getLast (bears : f.Bears id g) : ∀ x ∈ (f.preorder id).getLast?, f.children x = [] := by
  rw [bears.preorder]
  exact children_getLast_cons bears.lists bears.stands.children_getLast

/-! ## The searches, level by level -/

variable (f : Forest) (sort : NodeId → Bool)

/-- Searching for all nodes of a sort finds those that the traversal meets after the node. -/
theorem findAllWithin_eq_filter (levels : Nat) (id : NodeId) :
    f.findAllWithin sort levels id = (f.preorderWithin levels id).tail.filter sort := by
  induction levels generalizing id with
  | zero => rfl
  | succ levels ih =>
    rw [findAllWithin, preorderWithin, List.tail_cons, List.filter_flatMap]
    congr 1
    funext child
    rw [ih, preorderWithin_eq_cons, List.filter_cons, List.tail_cons]
    cases sort child <;> rfl

/-- Searching for the first node of a sort finds the first of all. -/
theorem findWithin_eq_head? (levels : Nat) (id : NodeId) :
    f.findWithin sort levels id = (f.findAllWithin sort levels id).head? := by
  induction levels generalizing id with
  | zero => rfl
  | succ levels ih =>
    rw [findWithin, findAllWithin, List.head?_flatMap]
    congr 1
    funext child
    rw [ih, List.head?_append]
    cases sort child <;> rfl

/-- Always going to the last child leads to the end of the traversal. -/
theorem lastWithin_eq_getLast? (levels : Nat) (id : NodeId) :
    some (f.lastWithin levels id) = (f.preorderWithin levels id).getLast? := by
  induction levels generalizing id with
  | zero => rfl
  | succ levels ih =>
    rw [lastWithin, preorderWithin]
    rcases List.eq_nil_or_concat (f.children id) with none | ⟨before, last, some⟩
    · rw [none]
      rfl
    · rw [some, List.concat_eq_append, List.getLast?_concat, List.flatMap_append, List.flatMap_singleton,
        List.getLast?_cons, List.getLast?_append, ← ih]
      rfl

/-! ## Searching a well-formed forest -/

/-- Below any node of a well-formed forest the traversal goes through the children, one after the other. All nodes of a
sort are those that it meets after the node itself, in this order, and the first node of a sort is the first of them; the
same holds of the nodes of a name, which is compared in lower case, a missing name being an empty one. The deepest child
is where the traversal ends; it has no children, and a node without children has no deepest child. -/
theorem searches_of_wellFormed {root : NodeId} (formed : f.WellFormed root) (inside : id ∈ f.preorder root)
    (name : Text) :
    f.preorder id = id :: (f.children id).flatMap f.preorder ∧
    f.findAll sort id = (f.preorder id).tail.filter sort ∧
    f.find? sort id = (f.findAll sort id).head? ∧
    f.findAllByName name id =
      (f.preorder id).tail.filter (fun x => ((f.content x).name?.getD []).lower = name.lower) ∧
    f.findByName? name id = (f.findAllByName name id).head? ∧
    f.deepestChild? id = (if f.children id = [] then none else (f.preorder id).getLast?) ∧
    ∀ x ∈ f.deepestChild? id, f.children x = [] := by
  obtain ⟨g, bears⟩ := wellFormed_iff_exists_bears.1 (formed.of_mem inside)
  have deepest : f.deepestChild? id = if f.children id = [] then none else (f.preorder id).getLast? := by
    rw [deepestChild?, lastWithin_eq_getLast?, preorder]
    cases f.children id <;> rfl
  refine ⟨bears.preorder_eq, f.findAllWithin_eq_filter sort f.size id, f.findWithin_eq_head? sort f.size id, ?_,
    f.findWithin_eq_head? _ f.size id, deepest, fun x found => ?_⟩
  · rw [findAllByName, findAll, findAllWithin_eq_filter, preorder]
    refine List.filter_congr fun x _ => ?_
    rw [isNamed, Content.isNamed, Content.nameText, beq_eq_decide]
  · rw [deepest] at found
    by_cases leaf : f.children id = []
    · rw [if_pos leaf] at found
      cases found
    · rw [if_neg leaf] at found
      exact bears.children_getLast x found

/-- A root over a list with an item and a nested list, whose items are not all named in lower case. -/
def listForest : Forest :=
  ⟨#[{ children := [1] },
    { parent := some 0, children := [2, 3], content := { elementName := some ['u', 'l'] } },
    { parent := some 1, content := { elementName := some ['l', 'i'] } },
    { parent := some 1, children := [4], content := { elementName := some ['O', 'L'] } },
    { parent := some 3, content := { elementName := some ['L', 'I'] } }]⟩

/-- Below the list both items are found, the outer one first, and the deepest child is the inner one. -/
theorem searches_listForest :
    listForest.WellFormed 0 ∧ listForest.findAllByName ['L', 'i'] 1 = [2, 4] ∧
      listForest.findByName? ['L', 'i'] 1 = some 2 ∧ listForest.deepestChild? 1 = some 4 := by
  have formed : listForest.WellFormed 0 := ⟨by decide, by decide, by decide⟩
  have inside : 1 ∈ listForest.preorder 0 := by decide
  obtain ⟨-, -, -, named, first, deepest, -⟩ :=
    searches_of_wellFormed listForest (fun _ => true) formed inside ['L', 'i']
  rw [deepest, first, named]
  exact ⟨formed, by decide, by decide, by decide⟩

end Shorthand.Forest
