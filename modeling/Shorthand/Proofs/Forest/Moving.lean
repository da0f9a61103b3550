import Shorthand.Proofs.Forest.Editing

/-! # Giving away a node that has a parent

A node that is given to another one is linked to it, but it is not struck from the list of the parent that it had. So it
is listed twice, be it by two nodes or by one, and the forest is not consistent any more. If the node is removed from its
parent first, then it is moved.

* **`Forest.IsListedTwice`** — a node is listed by its parent and, once more, by another node or the same one.
* **`Forest.IsMoved`** — a node is listed once, by its parent, and the forest is consistent.
* `Forest.attached_isListedTwice` — what giving a node away makes of it, with and without removing it first. -/

namespace Shorthand.Forest

variable {f f' : Forest} {x p q : NodeId} {front old back : List NodeId}

/-- A node is linked to the parent `p`, which lists it, but it is listed by the former parent `q` as well. -/
structure IsListedTwice (f : Forest) (x q p : NodeId) : Prop where
  /-- The node is linked to its new parent. -/
  linked : f.parent? x = some p
  /-- It is listed once by each of the two parents, twice if they are the same node, and by no other node. -/
  count_eq : ∀ r, (f.children r).count x = (if r = q then 1 else 0) + if r = p then 1 else 0
  /-- The forest is not consistent. -/
  inconsistent : ¬ f.IsConsistent

/-- A node is linked to the parent `p` in a consistent forest. -/
structure IsMoved (f : Forest) (x p : NodeId) : Prop where
  /-- The node is linked to its new parent. -/
  linked : f.parent? x = some p
  /-- It is listed once by this parent, and by no other node. -/
  count_eq : ∀ r, (f.children r).count x = if r = p then 1 else 0
  /-- The forest is consistent. -/
  consistent : f.IsConsistent

/-- A node that has a parent is put into a slot of another list, or of the same. -/
theorem Splices.isListedTwice (splices : Splices f f' p front old [x] back) (consistent : f.IsConsistent)
    (linked : f.parent? x = some q) (notOld : x ∉ old) : f'.IsListedTwice x q p := by
  have up : f'.parent? x = some p := by rw [splices.parent?_eq, if_pos (List.mem_singleton_self x)]
  have counts : ∀ r, (f'.children r).count x = (if r = q then 1 else 0) + if r = p then 1 else 0 := by
    intro r
    have count := splices.count_children x r
    rw [List.count_eq_zero.2 notOld, List.count_singleton_self, consistent.count_children, linked] at count
    simpa [eq_comm] using count
  refine ⟨up, counts, fun consistent' => ?_⟩
  -- the list of the former parent names the node once too often
  have former := counts q
  rw [consistent'.count_children, up, if_pos rfl] at former
  simp only [Option.some_inj, eq_comm (a := p)] at former
  split at former <;> omega

/-- A loose node is put into a slot of a list. -/
theorem Splices.isMoved (splices : Splices f f' p front old [x] back) (consistent : f.IsConsistent)
    (loose : f.IsLoose p x) : f'.IsMoved x p := by
  have up : f'.parent? x = some p := by rw [splices.parent?_eq, if_pos (List.mem_singleton_self x)]
  have consistent' : f'.IsConsistent := consistent.fill splices (List.nodup_singleton x)
    (List.forall_mem_singleton.2 loose)
  refine ⟨up, fun r => ?_, consistent'⟩
  rw [consistent'.count_children, up]
  simp only [Option.some_inj, eq_comm]

/-- A node that has been removed may be given to every node that is not below it. -/
theorem IsConsistent.isLoose_remove (consistent : f.IsConsistent) (linked : f.parent? x = some q)
    (apart : p ∉ f.preorder x) : (f.remove x).IsLoose p x := by
  obtain ⟨front, back, splices⟩ := consistent.exists_splices_remove linked
  have inside : x < f.size := lt_size_of_parent? linked
  have removedInside : x < (f.remove x).size := by rwa [size_remove]
  refine ⟨removedInside, ?_, fun below => apart ?_⟩
  · rw [splices.parent?_eq, if_neg List.not_mem_nil, if_pos (List.mem_singleton_self x)]
  · rw [(consistent.remove x).mem_preorder_iff removedInside] at below
    rw [consistent.mem_preorder_iff inside]
    -- removing makes no new link
    have up : ∀ a b, (f.remove x).Up a b → f.Up a b := fun a b step =>
      (splices.links a b step).resolve_right fun isNew => List.not_mem_nil isNew.1
    exact below.lift id up

/-- A node that has a parent is given to another one, as a child or in the place of a child. Then it is listed twice. If
it is removed from its parent first, then it is moved. -/
theorem attached_isListedTwice (consistent : f.IsConsistent) (linked : f.parent? x = some q) :
    (∀ receiver position, receiver < f.size → receiver ∉ f.preorder x →
      (f.addChild receiver x position).IsListedTwice x q receiver ∧
      ((f.remove x).addChild receiver x position).IsMoved x receiver) ∧
    ∀ n p, f.parent? n = some p → n ≠ x → p ∉ f.preorder x →
      (∃ f', f.replace n [x] = .ok f' ∧ f'.IsListedTwice x q p) ∧
      ∃ f', (f.remove x).replace n [x] = .ok f' ∧ f'.IsMoved x p := by
  have inside : x < f.size := lt_size_of_parent? linked
  have removed := consistent.remove x
  refine ⟨fun receiver position above apart => ?_, fun n p place other apart => ?_⟩
  · have loose := consistent.isLoose_remove linked apart
    obtain ⟨front, back, splices, -⟩ := exists_splices_addChild position above inside
    obtain ⟨front', back', splices', -⟩ :=
      exists_splices_addChild position (f := f.remove x) (by rwa [size_remove]) loose.inside
    exact ⟨splices.isListedTwice consistent linked List.not_mem_nil, splices'.isMoved removed loose⟩
  · have loose := consistent.isLoose_remove linked apart
    -- the node that is replaced keeps its parent when the other one is removed
    have place' : (f.remove x).parent? n = some p := by
      obtain ⟨front, back, splices⟩ := consistent.exists_splices_remove linked
      rw [splices.parent?_eq, if_neg List.not_mem_nil, if_neg (by simpa using other), place]
    obtain ⟨f', front, back, run, -, -, splices⟩ :=
      consistent.exists_splices_replace place (List.forall_mem_singleton.2 inside)
    obtain ⟨f'', front', back', run', -, -, splices'⟩ :=
      removed.exists_splices_replace place' (List.forall_mem_singleton.2 loose.inside)
    have notOld : x ∉ [n] := fun found => other (List.mem_singleton.1 found).symm
    exact ⟨⟨f', run, splices.isListedTwice consistent linked notOld⟩, f'', run', splices'.isMoved removed loose⟩

/-- Two parents with one child each. -/
def twoFamilies : Forest := Edit.applyAll ⟨#[]⟩ [.create, .create, .addNew 0 none, .addNew 1 none]

/-- The child of the first parent is given to the second one, as a child and in the place of its child. -/
theorem attached_isListedTwice_twoFamilies :
    twoFamilies.IsConsistent ∧ twoFamilies.parent? 2 = some 0 ∧
      (twoFamilies.addChild 1 2 none).IsListedTwice 2 0 1 ∧
      ∃ f', twoFamilies.replace 3 [2] = .ok f' ∧ f'.IsListedTwice 2 0 1 := by
  have consistent : twoFamilies.IsConsistent := isConsistent_empty.applyAll (by decide +kernel)
  have linked : twoFamilies.parent? 2 = some 0 := by decide +kernel
  have apart : 1 ∉ twoFamilies.preorder 2 := by decide +kernel
  obtain ⟨added, replaced⟩ := attached_isListedTwice consistent linked
  exact ⟨consistent, linked, (added 1 none (by decide +kernel) apart).1,
    (replaced 3 1 (by decide +kernel) (by decide) apart).1⟩

end Shorthand.Forest
