import Shorthand.Forest.Edit
import Shorthand.Proofs.Forest.WellFormed

/-! # Edits below a node that bears a grove

An edit that moves nodes among those below a node relinks some of them and leaves contents alone. What it makes of the
grove that the node bears tells the rest.

* **`Forest.Relinks`** — the links of some nodes may have changed, and nothing else.
* `Forest.cell_addChild`, `Forest.cell_remove`, `Forest.replace_eq` — what an edit makes of every cell.
* `Forest.Bears.addChild` — adding a child puts its tree into the grove.
* `Forest.Bears.remove` — removing a child takes its tree out of the grove.
* `Forest.Bears.replace` — replacing a child by its children lifts what is below it. -/

namespace Shorthand.Forest

/-- The links of some nodes below a node may have changed, and with them the list of the node; contents and all other
links are as they were. -/
structure Relinks (f f' : Forest) (id : NodeId) (touched : List NodeId) : Prop where
  /-- No node is new. -/
  size_eq : f'.size = f.size
  /-- Contents are as they were. -/
  content_eq : ∀ x, f'.content x = f.content x
  /-- The node itself is linked as it was. -/
  parent?_eq : f'.parent? id = f.parent? id
  /-- Other nodes are as they were. -/
  cell_eq : ∀ x, x ≠ id → x ∉ touched → f'.cell x = f.cell x

variable {f f' f'' : Forest} {id c : NodeId} {before below after g : Grove NodeId}

namespace Relinks

variable {touched : List NodeId}

/-- Nothing has changed. -/
theorem refl (f : Forest) (id : NodeId) (touched : List NodeId) : Relinks f f id touched :=
  ⟨rfl, fun _ => rfl, rfl, fun _ _ _ => rfl⟩

/-- Two changes one after the other. -/
theorem trans {later : List NodeId} (first : Relinks f f' id touched)
    (second : Relinks f' f'' id later) (known : later ⊆ touched) : Relinks f f'' id touched := by
  refine ⟨second.size_eq.trans first.size_eq, fun x => ?_, ?_, fun x other untouched => ?_⟩
  · rw [second.content_eq, first.content_eq]
  · rw [second.parent?_eq, first.parent?_eq]
  · rw [second.cell_eq x other fun inside => untouched (known inside),
      first.cell_eq x other untouched]

/-- More nodes may be allowed to be relinked. -/
theorem mono {more : List NodeId} (relinks : Relinks f f' id touched) (subset : touched ⊆ more) :
    Relinks f f' id more :=
  ⟨relinks.size_eq, relinks.content_eq, relinks.parent?_eq, fun x other untouched =>
    relinks.cell_eq x other fun inside => untouched (subset inside)⟩

/-- Other nodes are linked as they were. -/
theorem links_eq (relinks : Relinks f f' id touched) {x : NodeId} (other : x ≠ id)
    (untouched : x ∉ touched) : f'.parent? x = f.parent? x ∧ f'.children x = f.children x := by
  rw [parent?, children, relinks.cell_eq x other untouched]
  exact ⟨rfl, rfl⟩

/-- A grove none of whose nodes was relinked still stands. -/
theorem stands (relinks : Relinks f f' id touched) {parent : NodeId} (stands : f.Stands parent g)
    (other : id ∉ g.labels) (untouched : ∀ x ∈ g.labels, x ∉ touched) : f'.Stands parent g :=
  stands.of_links relinks.size_eq.ge fun x inside =>
    relinks.links_eq (fun same => other (same ▸ inside)) (untouched x inside)

end Relinks

/-! ## Adding a child -/

/-- Adding a child makes no new node. -/
@[simp] theorem size_addChild (f : Forest) (receiver child : NodeId) (position : Option Int) :
    (f.addChild receiver child position).size = f.size := by
  rw [addChild, size_modifyChildren, size_link]

/-- What a forest is after a child was added. -/
theorem cell_addChild {child : NodeId} (position : Option Int) (inside : id < f.size)
    (childInside : child < f.size) (x : NodeId) :
    (f.addChild id child position).cell x =
      ⟨f.content x, if x = child then some id else f.parent? x,
        if x = id then insertAt position child (f.children x) else f.children x⟩ := by
  have content : (f.addChild id child position).content x = f.content x := by
    rw [addChild, content_modifyChildren, content_link]
  have linked : (f.addChild id child position).parent? x =
      if x = child then some id else f.parent? x := by
    rw [addChild, parent?_modifyChildren, parent?_link _ _ childInside]
  have lists : (f.addChild id child position).children x =
      if x = id then insertAt position child (f.children x) else f.children x := by
    rw [addChild, children_modifyChildren _ _ (by rwa [size_link]), children_link]
  exact congr (congr (congrArg Cell.mk content) linked) lists

/-- Adding a child that bears a grove of other nodes puts its tree between the trees that were there. -/
theorem Bears.addChild {child : NodeId} {position : Option Int} (bears : f.Bears id (before ++ after))
    (childBears : f.Bears child g)
    (separate : ∀ x ∈ child :: g.labels, x ∉ id :: (before ++ after).labels)
    (place : insertAt position child (before.roots ++ after.roots) =
      before.roots ++ child :: after.roots) :
    (f.addChild id child position).Bears id (before ++ .cons child g after) := by
  have cells := cell_addChild position bears.inside childBears.inside
  have size := size_addChild f id child position
  simp only [List.mem_cons, forall_eq_or_imp, not_or, Grove.labels_append, List.mem_append]
    at separate
  obtain ⟨⟨ne, notBefore, notAfter⟩, others⟩ := separate
  obtain ⟨beforeStands, afterStands⟩ := stands_append.1 bears.stands
  -- apart from the child and the node, links are as they were
  have links : ∀ x, x ≠ child → x ≠ id → (f.addChild id child position).parent? x = f.parent? x ∧
      (f.addChild id child position).children x = f.children x := by
    intro x notChild notId
    rw [parent?, children, cells, if_neg notChild, if_neg notId]
    exact ⟨rfl, rfl⟩
  have notId : ∀ x ∈ (before ++ after).labels, x ≠ id := fun x inside same =>
    bears.not_mem (same ▸ inside)
  rw [Grove.labels_append] at notId
  refine ⟨size ▸ bears.inside, ?_, stands_append.2 ⟨?_, ?_, ?_, ?_, ?_, ?_⟩, ?_⟩
  · rw [children, cells, if_pos rfl, bears.lists, Grove.roots_append, place, Grove.roots_append,
      Grove.roots_cons]
  · refine beforeStands.of_links size.ge fun x inside => links x ?_ ?_
    · exact fun same => notBefore (same ▸ inside)
    · exact notId x (List.mem_append_left _ inside)
  · rw [size]
    exact childBears.inside
  · rw [parent?, cells, if_pos rfl]
  · rw [children, cells, if_neg ne, childBears.lists]
  · refine childBears.stands.of_links size.ge fun x inside => links x ?_ (others x inside).1
    exact fun same => childBears.not_mem (same ▸ inside)
  · refine afterStands.of_links size.ge fun x inside => links x ?_ ?_
    · exact fun same => notAfter (same ▸ inside)
    · exact notId x (List.mem_append_right _ inside)
  · have all := bears.distinct
    have below := childBears.distinct
    rw [Grove.labels_append] at all ⊢
    rw [Grove.labels_cons]
    grind

/-! ## Removing a node -/

/-- What a forest is after a node was removed from its parent. -/
theorem cell_remove (linked : f.parent? c = some id) (inside : c < f.size) (above : id < f.size) (x : NodeId) :
    (f.remove c).cell x =
      ⟨f.content x, if x = c then none else f.parent? x,
        if x = id then (f.children x).filter (· ≠ c) else f.children x⟩ := by
  have removed : f.remove c = (f.modifyChildren id fun kids => kids.filter (· ≠ c)).link c none := by
    rw [Forest.remove, linked]
  have content : (f.remove c).content x = f.content x := by
    rw [removed, content_link, content_modifyChildren]
  have parent : (f.remove c).parent? x = if x = c then none else f.parent? x := by
    rw [removed, parent?_link _ _ (by rwa [size_modifyChildren]), parent?_modifyChildren]
  have lists : (f.remove c).children x =
      if x = id then (f.children x).filter (· ≠ c) else f.children x := by
    rw [removed, children_link, children_modifyChildren _ _ above]
  exact congr (congr (congrArg Cell.mk content) parent) lists

/-- Striking a node that stands once in a list leaves the nodes around it. -/
theorem filter_ne_middle {front back : List NodeId} (notFront : c ∉ front) (notBack : c ∉ back) :
    (front ++ c :: back).filter (· ≠ c) = front ++ back := by
  have others : ∀ kids : List NodeId, c ∉ kids → kids.filter (· ≠ c) = kids := fun kids absent =>
    List.filter_eq_self.2 fun x found => decide_eq_true fun same : x = c => absent (same ▸ found)
  rw [List.filter_append, List.filter_cons_of_neg (by simp), others front notFront, others back notBack]

/-- Removing a node makes no new one. -/
theorem size_remove (f : Forest) (c : NodeId) : (f.remove c).size = f.size := by
  rw [Forest.remove]
  cases f.parent? c with
  | none => rfl
  | some p => exact (size_link ..).trans (size_modifyChildren ..)

/-! ## Linking several nodes -/

/-- Linking several nodes changes nothing but their links to a parent. -/
theorem foldl_link (items : List NodeId) (parent : Option NodeId) (f : Forest)
    (inside : ∀ x ∈ items, x < f.size) :
    (items.foldl (fun f item => f.link item parent) f).size = f.size ∧
      ∀ x, (items.foldl (fun f item => f.link item parent) f).cell x =
        ⟨f.content x, if x ∈ items then parent else f.parent? x, f.children x⟩ := by
  induction items generalizing f with
  | nil => exact ⟨rfl, fun x => by rw [if_neg List.not_mem_nil]; rfl⟩
  | cons item rest ih =>
    have restInside : ∀ x ∈ rest, x < (f.link item parent).size := fun x found => by
      rw [size_link]
      exact inside x (List.mem_cons_of_mem _ found)
    obtain ⟨size, cells⟩ := ih (f.link item parent) restInside
    refine ⟨size.trans (size_link ..), fun x => ?_⟩
    rw [List.foldl_cons, cells, content_link, children_link,
      parent?_link _ _ (inside item List.mem_cons_self)]
    by_cases later : x ∈ rest
    · rw [if_pos later, if_pos (List.mem_cons_of_mem _ later)]
    · rw [if_neg later]
      by_cases same : x = item
      · rw [if_pos same, if_pos (by rw [same]; exact List.mem_cons_self)]
      · rw [if_neg same, if_neg fun found => (List.mem_cons.1 found).elim same later]

/-! ## Replacing a node -/

section Replacing

variable {front back items : List NodeId} (linked : f.parent? c = some id)
  (lists : f.children id = front ++ c :: back) (first : c ∉ front)

include linked lists first

/-- The search for a node goes past the siblings before it. -/
theorem index_eq : f.index c = .ok front.length := by
  have absent : front.findIdx? (· == c) = none :=
    List.findIdx?_eq_none_iff.2 fun x found => beq_eq_false_iff_ne.2 fun same => first (same ▸ found)
  rw [Forest.index, linked]
  dsimp only
  rw [lists, List.findIdx?_append, absent, List.findIdx?_cons, beq_self_eq_true]
  simp

/-- What a forest is after nodes were put in the place of a node. -/
theorem replace_eq (inside : c < f.size) (above : id < f.size) (known : ∀ x ∈ items, x < f.size) :
    ∃ f', f.replace c items = .ok f' ∧ f'.size = f.size ∧ ∀ x, f'.cell x =
      ⟨f.content x, if x ∈ items then some id else if x = c then none else f.parent? x,
        if x = id then front ++ items ++ back else f.children x⟩ := by
  -- the list is changed, then the items are linked, then the node is unlinked
  let listed := f.modifyChildren id fun kids =>
    kids.take front.length ++ items ++ kids.drop (front.length + 1)
  let adopted := items.foldl (fun f item => f.link item (some id)) listed
  have listedSize : listed.size = f.size := size_modifyChildren ..
  obtain ⟨adoptedSize, adoptedCells⟩ := foldl_link items (some id) listed fun x found => by
    rw [listedSize]
    exact known x found
  have children : ∀ x, listed.children x = if x = id then front ++ items ++ back else f.children x := fun x => by
    rw [children_modifyChildren _ _ above]
    by_cases same : x = id
    · rw [if_pos same, if_pos same, same, lists]
      simp
    · rw [if_neg same, if_neg same]
  have replaced : f.replace c items =
      .ok (if items.contains c then adopted else adopted.link c none) := by
    rw [Forest.replace, linked]
    dsimp only
    rw [index_eq linked lists first]
  by_cases again : c ∈ items
  · refine ⟨adopted, ?_, adoptedSize.trans listedSize, fun x => ?_⟩
    · rw [replaced, if_pos (List.contains_iff_mem.2 again)]
    · rw [adoptedCells, children, content_modifyChildren, parent?_modifyChildren]
      by_cases item : x ∈ items
      · rw [if_pos item, if_pos item]
      · rw [if_neg item, if_neg item, if_neg fun same : x = c => item (same ▸ again)]
  · have here : c < adopted.size := by rwa [adoptedSize, listedSize]
    refine ⟨adopted.link c none, ?_, (size_link ..).trans (adoptedSize.trans listedSize), fun x => ?_⟩
    · rw [replaced, if_neg (by simpa using again)]
    · have content : (adopted.link c none).content x = f.content x := by
        rw [content_link, Forest.content, adoptedCells, content_modifyChildren]
      have parent : (adopted.link c none).parent? x =
          if x ∈ items then some id else if x = c then none else f.parent? x := by
        rw [parent?_link _ _ here, parent?, adoptedCells, parent?_modifyChildren]
        by_cases same : x = c
        · rw [if_pos same, if_pos same, if_neg (same ▸ again)]
        · rw [if_neg same, if_neg same]
      have kids : (adopted.link c none).children x =
          if x = id then front ++ items ++ back else f.children x := by
        rw [children_link, Forest.children, adoptedCells, children]
      exact congr (congr (congrArg Cell.mk content) parent) kids

end Replacing

/-! ## Moving a grove -/

/-- A grove stands below another node when its roots are linked to that node. -/
theorem Stands.moved {parent : NodeId} (stands : f.Stands c g) (size_le : f.size ≤ f'.size)
    (distinct : g.labels.Nodup)
    (linked : ∀ x ∈ g.labels, f'.parent? x = if x ∈ g.roots then some parent else f.parent? x)
    (lists : ∀ x ∈ g.labels, f'.children x = f.children x) : f'.Stands parent g := by
  induction g with
  | nil => exact stands_nil
  | cons a below rest _ ih =>
    obtain ⟨here, -, kids, belowStands, restStands⟩ := stands
    simp only [Grove.labels_cons, List.nodup_cons, List.nodup_append, List.mem_append, not_or]
      at distinct
    obtain ⟨⟨notBelow, notRest⟩, -, restDistinct, apart⟩ := distinct
    simp only [Grove.labels_cons, Grove.roots_cons, List.mem_cons, List.mem_append,
      forall_eq_or_imp] at linked lists
    refine ⟨Nat.lt_of_lt_of_le here size_le, by rw [linked.1, if_pos (.inl trivial)],
      by rw [lists.1, kids], belowStands.of_links size_le fun x inside => ?_,
      ih restStands restDistinct (fun x inside => ?_) fun x inside => lists.2 x (.inr inside)⟩
    · refine ⟨?_, lists.2 x (.inl inside)⟩
      rw [linked.2 x (.inl inside), if_neg]
      rintro (rfl | root)
      · exact notBelow inside
      · exact apart x inside x (Grove.mem_labels_of_mem_roots root) rfl
    · have different : x ≠ a := fun same => notRest (same ▸ inside)
      rw [linked.2 x (.inr inside)]
      simp only [different, false_or]

/-! ## One tree of a grove -/

/-- What it means for one tree of a grove, with the trees before and after it, that all nodes are different. -/
structure Apart (id c : NodeId) (before below after : Grove NodeId) : Prop where
  /-- The root of the tree is not the node that bears the grove. -/
  ne : c ≠ id
  /-- The root of the tree occurs nowhere else. -/
  root : c ∉ before.labels ∧ c ∉ below.labels ∧ c ∉ after.labels
  /-- Neither does the node that bears the grove. -/
  top : id ∉ before.labels ∧ id ∉ below.labels ∧ id ∉ after.labels
  /-- Nor does what is below the root. -/
  inner : ∀ x ∈ below.labels, x ∉ before.labels ∧ x ∉ after.labels
  /-- Below the root all nodes are different. -/
  nodup : below.labels.Nodup
  /-- All nodes are different when the root is left out. -/
  lifted : (id :: (before ++ (below ++ after)).labels).Nodup
  /-- All nodes are different when the tree is left out. -/
  rest : (id :: (before ++ after).labels).Nodup

/-- Where all nodes are different, one tree is apart from the others. -/
theorem Apart.of_nodup (distinct : (id :: (before ++ .cons c below after).labels).Nodup) :
    Apart id c before below after := by
  simp only [Grove.labels_append, Grove.labels_cons] at distinct
  have lifted : (id :: (before.labels ++ (below.labels ++ after.labels))).Nodup :=
    distinct.sublist (((List.sublist_cons_self ..).append_left _).cons_cons _)
  have rest : (id :: (before.labels ++ after.labels)).Nodup :=
    lifted.sublist (((List.sublist_append_right ..).append_left _).cons_cons _)
  refine ⟨?_, ?_, ?_, ?_, ?_, by rwa [Grove.labels_append, Grove.labels_append],
    by rwa [Grove.labels_append]⟩ <;> grind

/-- The nodes of one tree are apart from the others. -/
theorem Bears.apart (bears : f.Bears id (before ++ .cons c below after)) :
    Apart id c before below after :=
  .of_nodup bears.distinct

/-! ## Removing and replacing a child -/

namespace Bears

/-- Removing a child takes its tree out of the grove. -/
theorem remove (bears : f.Bears id (before ++ .cons c below after)) :
    (f.remove c).Bears id (before ++ after) ∧ Relinks f (f.remove c) id [c] := by
  have apart := bears.apart
  obtain ⟨beforeStands, here, linked, lists, belowStands, afterStands⟩ :=
    stands_append.1 bears.stands
  have cells := cell_remove linked here bears.inside
  have relinks : Relinks f (f.remove c) id [c] := by
    refine ⟨size_remove f c, fun x => ?_, ?_, fun x different untouched => ?_⟩
    · rw [content, cells]
    · rw [parent?, cells, if_neg apart.ne.symm]
    · rw [cells, if_neg different, if_neg fun same : x = c => untouched (List.mem_singleton.2 same)]
      rfl
  -- the child is not met again among its siblings
  have siblings : ∀ g : Grove NodeId, c ∉ g.labels → c ∉ g.roots := fun g absent found =>
    absent (Grove.mem_labels_of_mem_roots found)
  refine ⟨⟨relinks.size_eq ▸ bears.inside, ?_, stands_append.2 ⟨?_, ?_⟩, apart.rest⟩, relinks⟩
  · rw [children, cells, if_pos rfl, bears.lists, Grove.roots_append, Grove.roots_append, Grove.roots_cons,
      filter_ne_middle (siblings _ apart.root.1) (siblings _ apart.root.2.2)]
  · exact relinks.stands beforeStands apart.top.1 fun x found same =>
      apart.root.1 (List.mem_singleton.1 same ▸ found)
  · exact relinks.stands afterStands apart.top.2.2 fun x found same =>
      apart.root.2.2 (List.mem_singleton.1 same ▸ found)

/-- Replacing a child by its children lifts what is below it. -/
theorem replace (bears : f.Bears id (before ++ .cons c below after)) :
    ∃ f', f.replace c (f.children c) = .ok f' ∧ f'.Bears id (before ++ (below ++ after)) ∧
      Relinks f f' id (c :: below.labels) := by
  have apart := bears.apart
  obtain ⟨beforeStands, here, linked, lists, belowStands, afterStands⟩ :=
    stands_append.1 bears.stands
  have listed : f.children id = before.roots ++ c :: after.roots := by
    rw [bears.lists, Grove.roots_append, Grove.roots_cons]
  have notBefore : c ∉ before.roots := fun found => apart.root.1 (Grove.mem_labels_of_mem_roots found)
  have known : ∀ x ∈ below.roots, x < f.size := fun x found =>
    belowStands.lt_size (Grove.mem_labels_of_mem_roots found)
  obtain ⟨f', run, size, cells⟩ := replace_eq linked listed notBefore here bears.inside known
  have relinks : Relinks f f' id (c :: below.labels) := by
    refine ⟨size, fun x => ?_, ?_, fun x other untouched => ?_⟩
    · rw [content, cells]
    · have notItem : id ∉ below.roots := fun found => apart.top.2.1 (Grove.mem_labels_of_mem_roots found)
      rw [parent?, cells, if_neg notItem, if_neg apart.ne.symm]
    · rw [List.mem_cons, not_or] at untouched
      have notItem : x ∉ below.roots := fun found => untouched.2 (Grove.mem_labels_of_mem_roots found)
      rw [cells, if_neg notItem, if_neg untouched.1, if_neg other]
      rfl
  refine ⟨f', by rw [lists, run], ⟨size ▸ bears.inside, ?_, ?_, apart.lifted⟩, relinks⟩
  · rw [children, cells, if_pos rfl, Grove.roots_append, Grove.roots_append, List.append_assoc]
  · refine stands_append.2 ⟨?_, stands_append.2 ⟨?_, ?_⟩⟩
    · refine relinks.stands beforeStands apart.top.1 fun x found touched => ?_
      rcases List.mem_cons.1 touched with rfl | inside
      · exact apart.root.1 found
      · exact (apart.inner x inside).1 found
    -- what was below the child stands below the node now, and only its roots are linked anew
    · refine belowStands.moved size.ge apart.nodup (fun x found => ?_) fun x found => ?_
      · have other : x ≠ c := fun same => apart.root.2.1 (same ▸ found)
        rw [parent?, cells]
        simp only [if_neg other, parent?]
      · rw [children, cells, if_neg fun same : x = id => apart.top.2.1 (same ▸ found)]
    · refine relinks.stands afterStands apart.top.2.2 fun x found touched => ?_
      rcases List.mem_cons.1 touched with rfl | inside
      · exact apart.root.2.2 found
      · exact (apart.inner x inside).2 found

end Bears

end Shorthand.Forest
