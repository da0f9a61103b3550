import Shorthand.Proofs.Forest.Consistent
import Shorthand.Proofs.Forest.Parse

/-! # Editing a consistent forest

Adding a child, removing a node and replacing a node all do the same: in the list of one node they put some nodes in the
place of others, and link them accordingly. Where the new nodes have no parent yet and are not above that node, the
forest stays consistent. So it does when a tree of new nodes joins it, and when contents are changed.

* **`Forest.Splices`** — one slot of one list has been filled anew.
* **`Forest.Edit`** — the edits of a forest.
* `Forest.IsConsistent.splice` — filling a slot keeps a forest consistent.
* `Forest.IsConsistent.join` — so does a tree of new nodes.
* `Forest.edits_keep_consistent` — runs of edits, and what each of them does. -/

namespace Shorthand.Forest

variable {f f' : Forest} {x y p q receiver child : NodeId} {front old new back items : List NodeId}

/-! ## Filling a slot -/

/-- In the list of a node some nodes have been put in the place of others, and all of them are linked accordingly. The
other lists, the other links and all contents are as they were. -/
structure Splices (f f' : Forest) (p : NodeId) (front old new back : List NodeId) : Prop where
  /-- What the node listed. -/
  was : f.children p = front ++ old ++ back
  /-- What it lists now. -/
  becomes : f'.children p = front ++ new ++ back
  /-- The other lists are as they were. -/
  others : ∀ q, q ≠ p → f'.children q = f.children q
  /-- The new nodes are linked to the node, and the old ones to none unless they are among the new ones. -/
  parent?_eq : ∀ x, f'.parent? x = if x ∈ new then some p else if x ∈ old then none else f.parent? x
  /-- Contents are as they were. -/
  content_eq : ∀ x, f'.content x = f.content x

namespace Splices

variable (splices : Splices f f' p front old new back)

include splices

/-- How often the lists name a node. -/
theorem count_children (x q : NodeId) :
    (f'.children q).count x + (if q = p then old.count x else 0) =
      (f.children q).count x + if q = p then new.count x else 0 := by
  by_cases here : q = p
  · rw [if_pos here, if_pos here, here, splices.was, splices.becomes]
    simp only [List.count_append]
    omega
  · rw [if_neg here, if_neg here, splices.others q here]

/-- Each new link is that of a new node to the node that lists it. -/
theorem links (x q : NodeId) (up : f'.Up x q) : f.Up x q ∨ x ∈ new ∧ q = p := by
  rw [Up, splices.parent?_eq] at up
  split at up
  · exact .inr ⟨‹_›, (Option.some_inj.1 up).symm⟩
  · split at up
    · cases up
    · exact .inl up

end Splices

/-- A slot has been filled if the cells of the changed forest are so. -/
theorem splices_of_cells {lists : NodeId → List NodeId} {links : NodeId → Option NodeId}
    (cells : ∀ x, f'.cell x = ⟨f.content x, links x, if x = p then lists x else f.children x⟩)
    (was : f.children p = front ++ old ++ back) (becomes : lists p = front ++ new ++ back)
    (linked : ∀ x, links x = if x ∈ new then some p else if x ∈ old then none else f.parent? x) :
    Splices f f' p front old new back := by
  refine ⟨was, ?_, fun q other => ?_, fun x => ?_, fun x => ?_⟩
  · rw [children, cells, if_pos rfl, becomes]
  · rw [children, cells, if_neg other]
  · rw [parent?, cells, linked]
  · rw [content, cells]

/-- Filling a slot with nodes that have no parent and are not above the node that lists them keeps a forest
consistent. -/
theorem IsConsistent.splice (consistent : f.IsConsistent) (splices : Splices f f' p front old new back)
    (distinct : new.Nodup) (free : ∀ x ∈ new, f.parent? x = none)
    (apart : ∀ x ∈ new, ¬ Relation.ReflTransGen f.Up p x) : f'.IsConsistent := by
  refine isConsistent_of_count (fun x q => ?_) (not_up_cycle splices.links apart consistent.acyclic)
  have count := splices.count_children x q
  have linked : x ∈ old → f.parent? x = some p := fun isOld => by
    rw [← consistent.mem_children_iff, splices.was]
    exact List.mem_append_left _ (List.mem_append_right _ isOld)
  rw [consistent.count_children] at count
  rw [splices.parent?_eq]
  by_cases isNew : x ∈ new
  · -- a new node was listed nowhere, and it occurs in the slot once
    have never : x ∉ old := fun isOld => by cases (free x isNew).symm.trans (linked isOld)
    rw [free x isNew, List.count_eq_one_of_mem distinct isNew, List.count_eq_zero.2 never] at count
    rw [if_pos isNew]
    simpa [eq_comm] using count
  · rw [List.count_eq_zero.2 isNew] at count
    rw [if_neg isNew]
    by_cases isOld : x ∈ old
    · -- an old node was listed in the slot alone
      have listed : 0 < old.count x := List.count_pos_iff.2 isOld
      have absent : (if none = some q then 1 else 0) = 0 := rfl
      rw [linked isOld] at count
      rw [if_pos isOld, absent]
      simp only [Option.some_inj, eq_comm (a := p)] at count
      split at count <;> omega
    · rw [List.count_eq_zero.2 isOld] at count
      rw [if_neg isOld]
      simpa using count

/-! ## A tree of new nodes -/

/-- What is met going down from a node is the node itself or below it. -/
theorem mem_preorder : x ∈ f.preorder p ↔ x = p ∨ x ∈ f.descendants p := by
  rw [descendants, preorder, preorderWithin_eq_groveWithin, List.mem_cons, List.tail_cons]

/-- From a node whose ancestors end at one without a parent, no way leads up to the node again. -/
theorem not_up_cycle_of_top (top : f.parent? p = none) (up : Relation.ReflTransGen f.Up x p) :
    ¬ Relation.TransGen f.Up x x := by
  induction up using Relation.ReflTransGen.head_induction_on with
  | refl =>
    intro cycle
    obtain ⟨y, step, -⟩ := Relation.TransGen.head'_iff.1 cycle
    cases top.symm.trans step
  | head step _ ih =>
    -- a cycle goes through the parent as well
    intro cycle
    obtain ⟨y, first, rest⟩ := Relation.TransGen.head'_iff.1 cycle
    cases Option.some_inj.1 (Eq.trans (Eq.symm first) step)
    exact ih (.tail' rest step)

/-- A tree of new nodes joins a forest, which stays consistent. -/
theorem IsConsistent.join (consistent : f.IsConsistent) (keeps : Keeps f f' [])
    (tree : f'.IsTree f.size) (new : ∀ x, x ∈ f'.preorder f.size ↔ f.size ≤ x ∧ x < f'.size) :
    f'.IsConsistent := by
  have oldLink : ∀ x < f.size, f'.parent? x = f.parent? x := fun x old => keeps.parent?_eq old List.not_mem_nil
  have oldList : ∀ x < f.size, f'.children x = f.children x := fun x old => keeps.children_eq old List.not_mem_nil
  -- what has a parent and is not old is below the root of the tree
  have below : ∀ x p, f'.parent? x = some p → f.size ≤ x → x ∈ f'.descendants f.size := by
    intro x p linked isNew
    have among := (new x).2 ⟨isNew, lt_size_of_parent? linked⟩
    rcases mem_preorder.1 among with rfl | among
    · cases tree.top.symm.trans linked
    · exact among
  refine isConsistent_of_count (fun x q => ?_) fun x => ?_
  · by_cases linked : f'.parent? x = some q
    · rw [if_pos linked]
      rcases Nat.lt_or_ge x f.size with old | isNew
      · have before : f.parent? x = some q := (oldLink x old).symm.trans linked
        rw [oldList q (consistent.lt_size_of_up before), consistent.count_children, if_pos before]
      · obtain ⟨p, above, up, count⟩ := tree.listed_once x (below x q linked isNew)
        cases Option.some_inj.1 (up.symm.trans linked)
        rw [count q above, if_pos rfl]
    · rw [if_neg linked]
      refine List.count_eq_zero.2 fun listed => linked ?_
      rcases Nat.lt_or_ge q f.size with old | isNew
      · rw [oldList q old] at listed
        have before := consistent.mem_children_iff.1 listed
        rw [oldLink x (lt_size_of_parent? before), before]
      · exact tree.formed.linked q ((new q).2 ⟨isNew, lt_size_of_mem_children listed⟩) x listed
  · intro cycle
    obtain ⟨p, linked, -⟩ := Relation.TransGen.head'_iff.1 cycle
    rcases Nat.lt_or_ge x f.size with old | isNew
    · -- the way up from an old node is as it was
      have before : ∀ y, Relation.TransGen f'.Up x y → Relation.TransGen f.Up x y ∧ y < f.size := by
        intro y up
        induction up with
        | single step =>
          rw [Up, oldLink x old] at step
          exact ⟨.single step, consistent.lt_size_of_up step⟩
        | tail _ step ih =>
          rw [Up, oldLink _ ih.2] at step
          exact ⟨ih.1.tail step, consistent.lt_size_of_up step⟩
      exact consistent.acyclic x (before x cycle).1
    · exact not_up_cycle_of_top tree.top (tree.reaches x (below x p linked isNew)).to_reflTransGen cycle

/-! ## What the operations do -/

/-- A position names a place among a number of items. Without a position the place is the end; a negative position
counts from the end, and what is beyond an end is brought back to it. -/
def IsPlace (position : Option Int) (k n : Nat) : Prop :=
  match position with
  | none => k = n
  | some i => (k : Int) = max 0 (min (n : Int) (if i < 0 then n + i else i))

/-- An item is inserted at its place, between the items that were there. -/
theorem exists_insertAt (position : Option Int) (x : NodeId) (items : List NodeId) :
    ∃ front back, items = front ++ back ∧ insertAt position x items = front ++ [x] ++ back ∧
      IsPlace position front.length items.length := by
  cases position with
  | none => exact ⟨items, [], by simp, by simp, rfl⟩
  | some i =>
    refine ⟨items.take (place items.length i), items.drop (place items.length i),
      (List.take_append_drop ..).symm, by rw [insertAt, List.append_assoc]; rfl, ?_⟩
    rw [List.length_take_of_le (place_le ..), IsPlace, place]
    split <;> omega

/-- Adding a child puts it between the children that were there. -/
theorem exists_splices_addChild (position : Option Int) (inside : receiver < f.size) (childInside : child < f.size) :
    ∃ front back, Splices f (f.addChild receiver child position) receiver front [] [child] back ∧
      IsPlace position front.length (front ++ back).length := by
  obtain ⟨front, back, was, becomes, place⟩ := exists_insertAt position child (f.children receiver)
  refine ⟨front, back, splices_of_cells (cell_addChild position inside childInside) ?_ becomes fun x => ?_, was ▸ place⟩
  · rw [was, List.append_nil]
  · simp only [List.mem_singleton, List.not_mem_nil, if_false]

namespace IsConsistent

variable (consistent : f.IsConsistent)

include consistent

/-- A node with a parent has one place among the children of the parent. -/
theorem exists_slot (linked : f.parent? x = some p) :
    x < f.size ∧ p < f.size ∧ ∃ front back, f.children p = front ++ x :: back ∧ x ∉ front ∧ x ∉ back := by
  obtain ⟨front, back, lists⟩ := List.append_of_mem (consistent.mem_children_iff.2 linked)
  have distinct := consistent.nodup_children p
  rw [lists, List.nodup_middle, List.nodup_cons, List.mem_append, not_or] at distinct
  exact ⟨lt_size_of_parent? linked, consistent.lt_size_of_up linked, front, back, lists, distinct.1.1, distinct.1.2⟩

/-- Removing a node takes it out of its place. -/
theorem exists_splices_remove (linked : f.parent? x = some p) :
    ∃ front back, Splices f (f.remove x) p front [x] [] back := by
  obtain ⟨inside, above, front, back, lists, notFront, notBack⟩ := consistent.exists_slot linked
  refine ⟨front, back, splices_of_cells (cell_remove linked inside above) (by simpa using lists) ?_ fun y => ?_⟩
  · rw [lists, filter_ne_middle notFront notBack, List.append_nil]
  · simp only [List.mem_singleton, List.not_mem_nil, if_false]

/-- Replacing a node puts others in its place. -/
theorem exists_splices_replace (linked : f.parent? x = some p) (known : ∀ y ∈ items, y < f.size) :
    ∃ f' front back, f.replace x items = .ok f' ∧ f'.size = f.size ∧ f.index x = .ok front.length ∧
      Splices f f' p front [x] items back := by
  obtain ⟨inside, above, front, back, lists, notFront, -⟩ := consistent.exists_slot linked
  obtain ⟨f', run, size, cells⟩ := replace_eq linked lists notFront inside above known
  refine ⟨f', front, back, run, size, index_eq linked lists notFront,
    splices_of_cells cells (by simpa using lists) rfl fun y => ?_⟩
  simp only [List.mem_singleton]

end IsConsistent

/-! ## Edits -/

/-- An edit of a forest. -/
inductive Edit where
  /-- Make a blank node. -/
  | create
  /-- Add a new blank node to a receiver. -/
  | addNew (receiver : NodeId) (position : Option Int)
  /-- Add a child to a receiver. -/
  | addChild (receiver child : NodeId) (position : Option Int)
  /-- Remove a node from its parent. -/
  | remove (id : NodeId)
  /-- Put nodes in the place of a node. -/
  | replace (id : NodeId) (items : List NodeId)
  /-- Copy a node with everything below it. -/
  | clone (id : NodeId)
  /-- Assign a token to a node. -/
  | assign (id : NodeId) (token : Text)
  /-- Apply a multiplier to a node. -/
  | repeatBy (id : NodeId) (multiplier : Multiplier)
  /-- Set a property of a node and of everything below it. -/
  | update (id : NodeId) (assignment : Assignment)

/-- A node may be given to a receiver: it has no parent, and the receiver is not below it. -/
structure IsLoose (f : Forest) (receiver child : NodeId) : Prop where
  /-- The node is a node of the forest. -/
  inside : child < f.size
  /-- It has no parent. -/
  free : f.parent? child = none
  /-- The receiver is neither the node nor below it. -/
  apart : receiver ∉ f.preorder child

instance (f : Forest) (receiver child : NodeId) : Decidable (f.IsLoose receiver child) :=
  decidable_of_iff (child < f.size ∧ f.parent? child = none ∧ receiver ∉ f.preorder child)
    ⟨fun ⟨inside, free, apart⟩ => ⟨inside, free, apart⟩, fun loose => ⟨loose.inside, loose.free, loose.apart⟩⟩

/-- Contents of some nodes have been changed, and nothing else. -/
structure Revises (f f' : Forest) (nodes : List NodeId) (change : Content → Content) : Prop where
  /-- No node is new. -/
  size_eq : f'.size = f.size
  /-- The contents of those nodes are changed; other contents and all links are as they were. -/
  cell_eq : ∀ x, f'.cell x =
    ⟨if x ∈ nodes then change (f.content x) else f.content x, f.parent? x, f.children x⟩

namespace Edit

/-- The forest after an edit. An edit that is refused leaves it as it is. -/
def apply (f : Forest) : Edit → Forest
  | create => f.create.2
  | addNew receiver position => f.create.2.addChild receiver f.create.1 position
  | addChild receiver child position => f.addChild receiver child position
  | remove id => f.remove id
  | replace id items =>
    match f.replace id items with
    | .ok f' => f'
    | .error _ => f
  | clone id => (f.clone id).2
  | assign id token => (f.assign id token).1
  | repeatBy id multiplier => f.modifyContent id (·.repeatBy multiplier)
  | update id assignment => f.update id assignment

/-- An edit is about nodes of the forest, and the nodes that it gives to another one are loose. -/
def Fits (f : Forest) : Edit → Prop
  | create => True
  | addNew receiver _ => receiver < f.size
  | addChild receiver child _ => receiver < f.size ∧ f.IsLoose receiver child
  | remove id => id < f.size
  | replace id items => items.Nodup ∧ ∃ p, f.parent? id = some p ∧ ∀ x ∈ items, f.IsLoose p x
  | clone id => id < f.size
  | assign id _ => id < f.size
  | repeatBy id _ => id < f.size
  | update id _ => id < f.size

instance (f : Forest) (edit : Edit) : Decidable (edit.Fits f) :=
  match edit with
  | create => inferInstanceAs (Decidable True)
  | addNew receiver _ => inferInstanceAs (Decidable (receiver < f.size))
  | addChild receiver child _ => inferInstanceAs (Decidable (receiver < f.size ∧ f.IsLoose receiver child))
  | remove id => inferInstanceAs (Decidable (id < f.size))
  | replace id items =>
    inferInstanceAs (Decidable (items.Nodup ∧ ∃ p ∈ f.parent? id, ∀ x ∈ items, f.IsLoose p x))
  | clone id => inferInstanceAs (Decidable (id < f.size))
  | assign id _ => inferInstanceAs (Decidable (id < f.size))
  | repeatBy id _ => inferInstanceAs (Decidable (id < f.size))
  | update id _ => inferInstanceAs (Decidable (id < f.size))

/-- What an edit makes of a forest. -/
def Does (f f' : Forest) : Edit → Prop
  | create => f'.size = f.size + 1 ∧ ∀ x, f'.cell x = f.cell x
  | addNew receiver position => f'.size = f.size + 1 ∧
    ∃ front back, Splices f f' receiver front [] [f.size] back ∧ IsPlace position front.length (front ++ back).length
  | addChild receiver child position => f'.size = f.size ∧
    ∃ front back, Splices f f' receiver front [] [child] back ∧ IsPlace position front.length (front ++ back).length
  | remove id => f'.size = f.size ∧ (f.parent? id = none → f' = f) ∧
    ∀ p, f.parent? id = some p → ∃ front back, Splices f f' p front [id] [] back
  | replace id items => f.replace id items = .ok f' ∧ f'.size = f.size ∧
    ∃ p front back, Splices f f' p front [id] items back ∧ f.index id = .ok front.length
  | clone id => f.clone id = (f.size, f') ∧ f'.parent? f.size = none ∧ (∀ x < f.size, f'.cell x = f.cell x) ∧
    f'.read f.size = (f.read id).mapAll Content.withoutSlots
  | assign id token => Revises f f' [id] (·.assign (Token.read token).1)
  | repeatBy id multiplier => Revises f f' [id] (·.repeatBy multiplier)
  | update id assignment => Revises f f' (f.preorder id) (assignment.apply ·)

/-- The forest after a list of edits. -/
def applyAll (f : Forest) (edits : List Edit) : Forest := edits.foldl apply f

/-- Each edit of a list fits when its turn comes. -/
def AllFit : Forest → List Edit → Prop
  | _, [] => True
  | f, edit :: rest => edit.Fits f ∧ AllFit (edit.apply f) rest

/-- Whether each edit of a list fits can be decided by making the edits. -/
def decideAllFit : (f : Forest) → (edits : List Edit) → Decidable (AllFit f edits)
  | _, [] => inferInstanceAs (Decidable True)
  | f, edit :: rest =>
    have := decideAllFit (edit.apply f) rest
    inferInstanceAs (Decidable (edit.Fits f ∧ AllFit (edit.apply f) rest))

instance (f : Forest) (edits : List Edit) : Decidable (AllFit f edits) := decideAllFit f edits

/-- Edits one after the other fit if the first ones do, and then the others where these have led. -/
theorem allFit_append {f : Forest} {done rest : List Edit} :
    AllFit f (done ++ rest) ↔ AllFit f done ∧ AllFit (applyAll f done) rest := by
  induction done generalizing f with
  | nil => exact ⟨fun fits => ⟨trivial, fits⟩, And.right⟩
  | cons edit done ih =>
    rw [List.cons_append, AllFit, AllFit, ih, and_assoc]
    rfl

end Edit

variable {edit : Edit} {edits done : List Edit}

/-- The root of a copy is new, and old nodes are as they were. -/
theorem IsConsistent.clone (consistent : f.IsConsistent) (inside : x < f.size) :
    ∃ f', f.clone x = (f.size, f') ∧ f'.IsConsistent ∧ f'.parent? f.size = none ∧
      (∀ y < f.size, f'.cell y = f.cell y) ∧ f'.read f.size = (f.read x).mapAll Content.withoutSlots := by
  obtain ⟨g, bears⟩ := wellFormed_iff_exists_bears.1 (consistent.wellFormed inside)
  obtain ⟨f', run, copy, size, root, contents, keeps⟩ := bears.clone
  have top : f'.parent? f.size = none := by rw [parent?, root]
  refine ⟨f', run, ?_, top, fun y old => keeps.cell_eq y old List.not_mem_nil, ?_⟩
  · refine consistent.join keeps (copy.isTree top) fun y => ?_
    rw [copy.preorder, Grove.labels_numbered, ← List.range'_succ, List.mem_range'_1, size, Nat.add_assoc,
      Nat.add_comm 1]
  · rw [copy.read, bears.read, content, root, contents, Node.mapAll_mk, ← Grove.map_map, Grove.nodes_map]

/-- Changing contents keeps a forest consistent. -/
theorem IsConsistent.revise {nodes : List NodeId} {change : Content → Content} (consistent : f.IsConsistent)
    (revises : Revises f f' nodes change) : f'.IsConsistent :=
  consistent.of_links (fun x => by rw [parent?, revises.cell_eq]) fun x => by rw [children, revises.cell_eq]

/-- Changing the content of a node changes no other. -/
theorem revises_modifyContent (inside : x < f.size) (change : Content → Content) :
    Revises f (f.modifyContent x change) [x] change := by
  have known : ∀ y ∈ [x], y < f.size := List.forall_mem_singleton.2 inside
  obtain ⟨size, cells⟩ := cell_foldl_modifyContent change known (List.nodup_singleton x)
  exact ⟨size, cells⟩

/-- Loose nodes are given a place where no cycle arises. -/
theorem IsConsistent.fill (consistent : f.IsConsistent) (splices : Splices f f' p front old new back)
    (distinct : new.Nodup) (loose : ∀ x ∈ new, f.IsLoose p x) : f'.IsConsistent :=
  consistent.splice splices distinct (fun x isNew => (loose x isNew).free) fun x isNew up =>
    (loose x isNew).apart ((consistent.mem_preorder_iff (loose x isNew).inside).2 up)

/-- Removing a node keeps a forest consistent. -/
theorem IsConsistent.remove (consistent : f.IsConsistent) (x : NodeId) : (f.remove x).IsConsistent := by
  cases linked : f.parent? x with
  | none =>
    rw [Forest.remove, linked]
    exact consistent
  | some p =>
    obtain ⟨front, back, splices⟩ := consistent.exists_splices_remove linked
    exact consistent.fill splices List.nodup_nil fun y isNew => absurd isNew List.not_mem_nil

/-- A new blank node keeps a forest consistent. -/
theorem IsConsistent.create (consistent : f.IsConsistent) : f.create.2.IsConsistent :=
  consistent.of_links (fun x => by rw [parent?, cell_create, parent?]) fun x => by
    rw [children, cell_create, children]

/-- A new blank node may be given to every old node. -/
theorem isLoose_create (inside : receiver < f.size) : f.create.2.IsLoose receiver f.size := by
  refine ⟨?_, ?_, ?_⟩
  · rw [size_create]
    exact Nat.lt_succ_self _
  · rw [parent?, create, cell_push_self]
  · rw [(bears_create f).preorder, Grove.labels_nil, List.mem_singleton]
    exact Nat.ne_of_lt inside

/-- Filling a slot after a blank node was made looks like filling it in the forest without that node. -/
theorem Splices.of_create (splices : Splices f.create.2 f' p front old new back) :
    Splices f f' p front old new back := by
  obtain ⟨was, becomes, others, parents, contents⟩ := splices
  simp only [children, parent?, content, cell_create] at was becomes others parents contents
  exact ⟨was, becomes, others, parents, contents⟩

/-- What an edit does to a consistent forest that it fits. -/
theorem IsConsistent.does (consistent : f.IsConsistent) (fits : edit.Fits f) :
    edit.Does f (edit.apply f) ∧ (edit.apply f).IsConsistent := by
  cases edit with
  | create => exact ⟨⟨size_create f, f.cell_create⟩, consistent.create⟩
  | addNew receiver position =>
    have loose := isLoose_create fits
    have inside : receiver < f.create.2.size := by
      rw [size_create]
      exact Nat.lt_succ_of_lt fits
    obtain ⟨front, back, splices, place⟩ := exists_splices_addChild position inside loose.inside
    refine ⟨⟨(size_addChild ..).trans (size_create f), front, back, splices.of_create, place⟩, ?_⟩
    exact consistent.create.fill splices (List.nodup_singleton _) (List.forall_mem_singleton.2 loose)
  | addChild receiver child position =>
    obtain ⟨inside, loose⟩ := fits
    obtain ⟨front, back, splices, place⟩ := exists_splices_addChild position inside loose.inside
    refine ⟨⟨size_addChild .., front, back, splices, place⟩, ?_⟩
    exact consistent.fill splices (List.nodup_singleton child) (List.forall_mem_singleton.2 loose)
  | remove id =>
    have stays : f.parent? id = none → f.remove id = f := fun top => by rw [Forest.remove, top]
    refine ⟨⟨size_remove f id, stays, fun p linked => consistent.exists_splices_remove linked⟩, consistent.remove id⟩
  | replace id items =>
    obtain ⟨distinct, p, linked, loose⟩ := fits
    obtain ⟨f', front, back, run, size, place, splices⟩ :=
      consistent.exists_splices_replace linked fun x found => (loose x found).inside
    have applied : Edit.apply f (.replace id items) = f' := by rw [Edit.apply, run]
    rw [applied]
    exact ⟨⟨run, size, p, front, back, splices, place⟩, consistent.fill splices distinct loose⟩
  | clone id =>
    obtain ⟨f', run, consistent', top, cells, tree⟩ := consistent.clone fits
    have applied : Edit.apply f (.clone id) = f' := by rw [Edit.apply, run]
    rw [applied]
    exact ⟨⟨run, top, cells, tree⟩, consistent'⟩
  | assign id token =>
    have revises := revises_modifyContent fits (·.assign (Token.read token).1)
    exact ⟨revises, consistent.revise revises⟩
  | repeatBy id multiplier =>
    have revises := revises_modifyContent fits (·.repeatBy multiplier)
    exact ⟨revises, consistent.revise revises⟩
  | update id assignment =>
    obtain ⟨g, bears⟩ := wellFormed_iff_exists_bears.1 (consistent.wellFormed fits)
    obtain ⟨size, cells⟩ := bears.cell_modifyAll (assignment.apply ·)
    rw [← bears.preorder] at cells
    have revises : Revises f (f.update id assignment) (f.preorder id) (assignment.apply ·) := ⟨size, cells⟩
    exact ⟨revises, consistent.revise revises⟩

/-! ## Runs of edits -/

/-- A run of edits that fit keeps a forest consistent. -/
theorem IsConsistent.applyAll (consistent : f.IsConsistent) (fits : Edit.AllFit f edits) :
    (Edit.applyAll f edits).IsConsistent := by
  induction edits generalizing f with
  | nil => exact consistent
  | cons edit rest ih => exact ih (consistent.does fits.1).2 fits.2

/-- In a run of edits that fit, each edit is made in a consistent forest, does what it is for, and leaves a consistent
forest. What has no parent has no index and cannot be replaced. -/
theorem edits_keep_consistent (consistent : f.IsConsistent) :
    (∀ done edit rest, Edit.AllFit f (done ++ edit :: rest) →
      (Edit.applyAll f done).IsConsistent ∧
      edit.Does (Edit.applyAll f done) (Edit.applyAll f (done ++ [edit])) ∧
      (Edit.applyAll f (done ++ [edit])).IsConsistent) ∧
    ∀ id, f.parent? id = none → f.index id = .error .noParent ∧
      ∀ items, f.replace id items = .error .noPlace ∧ Edit.apply f (.replace id items) = f := by
  refine ⟨fun done edit rest fits => ?_, fun id top => ⟨?_, fun items => ?_⟩⟩
  · obtain ⟨doneFit, here, -⟩ := Edit.allFit_append.1 fits
    have before := consistent.applyAll doneFit
    have after : Edit.applyAll f (done ++ [edit]) = edit.apply (Edit.applyAll f done) := by
      rw [Edit.applyAll, List.foldl_append]
      rfl
    rw [after]
    exact ⟨before, before.does here⟩
  · rw [index, top]
  · have refused : f.replace id items = .error .noPlace := by rw [Forest.replace, top]
    exact ⟨refused, by rw [Edit.apply, refused]⟩

/-- A forest without nodes is consistent. -/
theorem isConsistent_empty : IsConsistent ⟨#[]⟩ :=
  isConsistent_of_count (fun _ _ => rfl) fun x cycle => by
    obtain ⟨y, step, -⟩ := Relation.TransGen.head'_iff.1 cycle
    cases step

/-- A run with edits of all kinds. -/
def sampleEdits : List Edit :=
  [.create, .addNew 0 none, .addNew 0 (some (-1)), .create, .create, .replace 1 [3, 4], .addChild 3 1 (some 0), .clone 0,
    .assign 4 ['b', '*', '2'], .repeatBy 3 .bare, .update 0 (.counter 7)]

/-- The run fits, and so does removing a node afterwards. -/
theorem edits_keep_consistent_sample :
    IsConsistent ⟨#[]⟩ ∧ Edit.AllFit ⟨#[]⟩ (sampleEdits ++ [.remove 2]) ∧
      (Edit.applyAll ⟨#[]⟩ (sampleEdits ++ [.remove 2])).IsConsistent ∧
      (Edit.applyAll ⟨#[]⟩ (sampleEdits ++ [.remove 2])).children 0 = [3, 4] := by
  have fits : Edit.AllFit ⟨#[]⟩ (sampleEdits ++ [.remove 2]) := by decide +kernel
  obtain ⟨runs, -⟩ := edits_keep_consistent isConsistent_empty
  exact ⟨isConsistent_empty, fits, (runs sampleEdits (.remove 2) [] fits).2.2, by decide +kernel⟩

end Shorthand.Forest
