import Shorthand.Node.View
import Shorthand.Proofs.Forest.Copies

/-! # What a copy keeps

A copy of a tree has new nodes in the same order, each with the content of the node that it was made from, apart from
the slots of a renderer, which are empty in the copy. So the copy has the same summary as the original, but it is
rendered as the same text only where nothing was written before and after the nodes.

* **`Forest.IsCopy`** — a forest holds a copy of what another one holds below a node.
* `Node.renderedAll_withoutSlots_iff` — when emptying the slots changes nothing in what is rendered.
* `Forest.clone_isCopy` — copying a node of a well-formed forest makes a copy of what is below it. -/

namespace Shorthand

/-! ## Emptying the slots -/

/-- Emptying the slots changes nothing exactly if they are empty. -/
theorem Content.withoutSlots_eq_self_iff {c : Content} :
    c.withoutSlots = c ↔ c.opening = [] ∧ c.closing = [] ∧ c.padding = [] := by
  obtain ⟨⟩ := c
  simp [withoutSlots, eq_comm]

namespace Node

/-- A summary does not tell what is in the slots. -/
theorem summaryAll_withoutSlots (nodes : List Node) :
    summaryAll (mapEach Content.withoutSlots nodes) = summaryAll nodes := by
  induction nodes using Node.induction with
  | nil => rw [mapEach]
  | cons c kids rest kidsInduction ih =>
    rw [mapEach, mapAll_mk, summaryAll, summaryAll, summary, summary, kidsInduction, ih]
    rfl

theorem summary_withoutSlots (n : Node) : (n.mapAll Content.withoutSlots).summary = n.summary := by
  obtain ⟨c, kids⟩ := n
  rw [mapAll_mk, summary, summary, summaryAll_withoutSlots]
  rfl

/-- Emptying the slots takes away what was written before and after the nodes. -/
theorem length_renderedAll (nodes : List Node) :
    (renderedAll nodes).length =
      (renderedAll (mapEach Content.withoutSlots nodes)).length +
        ((contentsAll nodes).map fun c => c.opening.length + c.closing.length).sum := by
  induction nodes using Node.induction with
  | nil => rw [mapEach, renderedAll, contentsAll_nil]; rfl
  | cons c kids rest kidsInduction ih =>
    rw [mapEach, mapAll_mk, renderedAll, renderedAll, rendered, rendered, contentsAll_cons]
    simp only [List.length_append, List.map_cons, List.map_append, List.sum_cons, List.sum_append,
      kidsInduction, ih, Content.withoutSlots, List.length_nil]
    omega

/-- Emptying the slots changes nothing in what is rendered exactly if nothing was written before and after the nodes. -/
theorem renderedAll_withoutSlots_iff (nodes : List Node) :
    renderedAll (mapEach Content.withoutSlots nodes) = renderedAll nodes ↔
      ∀ c ∈ contentsAll nodes, c.opening = [] ∧ c.closing = [] := by
  constructor
  · intro same c inside
    -- all that was written has length zero
    have lengths := length_renderedAll nodes
    rw [same] at lengths
    have none : ((contentsAll nodes).map fun c => c.opening.length + c.closing.length).sum = 0 := by omega
    have here := List.sum_eq_zero_iff_forall_eq_nat.1 none _ (List.mem_map.2 ⟨c, inside, rfl⟩)
    exact ⟨List.length_eq_zero_iff.1 (by omega), List.length_eq_zero_iff.1 (by omega)⟩
  · intro unwritten
    induction nodes using Node.induction with
    | nil => rw [mapEach]
    | cons c kids rest kidsInduction ih =>
      simp only [contentsAll_cons, List.mem_cons, List.mem_append, forall_eq_or_imp] at unwritten
      obtain ⟨⟨opening, closing⟩, others⟩ := unwritten
      rw [mapEach, mapAll_mk, renderedAll, renderedAll, rendered, rendered,
        kidsInduction fun c inside => others c (.inl inside), ih fun c inside => others c (.inr inside),
        opening, closing]
      rfl

theorem rendered_withoutSlots_iff (n : Node) :
    (n.mapAll Content.withoutSlots).rendered = n.rendered ↔
      ∀ c ∈ contentsAll [n], c.opening = [] ∧ c.closing = [] := by
  rw [← renderedAll_withoutSlots_iff]
  simp only [mapEach, renderedAll, List.append_nil]

end Node

/-! ## Copies in a forest -/

namespace Forest

/-- A forest holds, below a new node, a copy of what another forest holds below an old one. -/
structure IsCopy (f f' : Forest) (id copy : NodeId) (origin : NodeId → NodeId) : Prop where
  /-- The copy is linked to no parent. -/
  parent?_eq : f'.parent? copy = none
  /-- Below the copy children are linked to the node that lists them, and no node is met twice. -/
  formed : f'.WellFormed copy
  /-- The nodes of the copy are new. -/
  size_le : ∀ x ∈ f'.preorder copy, f.size ≤ x
  /-- They are made of the old nodes, in the same order. -/
  preorder_eq : (f'.preorder copy).map origin = f.preorder id
  /-- The children of a copied node are the copies of its children. -/
  children_eq : ∀ x ∈ f'.preorder copy, (f'.children x).map origin = f.children (origin x)
  /-- A copied node has the content of its origin without the slots. -/
  content_eq : ∀ x ∈ f'.preorder copy, f'.content x = (f.content (origin x)).withoutSlots
  /-- Old nodes are as they were. -/
  cell_eq : ∀ x < f.size, f'.cell x = f.cell x

variable {f f' : Forest} {id : NodeId} {g : Grove NodeId}

/-- What is read below a copy is what is read below the node, with its slots emptied. -/
theorem Bears.read_copy {copy : NodeId} {h : Grove NodeId} (bears : f.Bears id g) (bears' : f'.Bears copy h)
    (content : f'.content copy = (f.content id).withoutSlots)
    (contents : h.map f'.content = g.map fun x => (f.content x).withoutSlots) :
    f'.read copy = (f.read id).mapAll Content.withoutSlots := by
  rw [bears'.read, bears.read, Node.mapAll_mk, content, contents, ← Grove.nodes_map, Grove.map_map]

/-- Copying a node that bears a grove makes a copy of it, which is read as the tree of the node with its slots
emptied. -/
theorem Bears.isCopy (bears : f.Bears id g) :
    (∃ origin, f.IsCopy (f.clone id).2 id (f.clone id).1 origin) ∧ (f.clone id).2.read id = f.read id ∧
      (f.clone id).2.read (f.clone id).1 = (f.read id).mapAll Content.withoutSlots := by
  obtain ⟨f', run, bears', -, root, contents, keeps⟩ := bears.clone
  rw [run]
  obtain ⟨origin, top, back⟩ := g.exists_map_numbered f.size id
  have content : f'.content f.size = (f.content id).withoutSlots := by rw [Forest.content, root]
  -- both groves are the one of the copy, seen through the origins
  have lists := bears.stands.lists
  have below := contents
  rw [← back] at lists below
  rw [Grove.map_map, back] at below
  refine ⟨⟨origin, ?_, wellFormed_iff_exists_bears.2 ⟨_, bears'⟩, ?_, ?_, ?_, ?_, ?_⟩, ?_,
    bears.read_copy bears' content contents⟩
  · rw [parent?, root]
  · rw [bears'.preorder, Grove.labels_numbered, ← List.range'_succ]
    intro x inside
    exact (List.mem_range'_1.1 inside).1
  · rw [bears'.preorder, bears.preorder, List.map_cons, top, ← Grove.labels_map, back]
  · rw [bears'.preorder]
    intro x inside
    rcases List.mem_cons.1 inside with rfl | later
    · rw [bears'.lists, top, bears.lists, ← Grove.roots_map, back]
    · exact bears'.stands.lists.map_kids lists later
  · rw [bears'.preorder]
    intro x inside
    rcases List.mem_cons.1 inside with rfl | later
    · rw [content, top]
    · exact Grove.eq_of_map_eq below later
  · exact fun x old => keeps.cell_eq x old List.not_mem_nil
  · have again : f'.Bears id g := bears.of_links keeps.size_le (keeps.children_eq bears.inside List.not_mem_nil)
      fun x inside => ⟨keeps.parent?_eq (bears.stands.lt_size inside) List.not_mem_nil,
        keeps.children_eq (bears.stands.lt_size inside) List.not_mem_nil⟩
    rw [again.read, bears.read, keeps.content_eq bears.inside List.not_mem_nil,
      bears.stands.map_content_of_keeps keeps fun _ _ => List.not_mem_nil]

/-- Copying a node of a well-formed forest makes a tree of new nodes that has no parent, of the same shape, in which
each node has the content of its origin without the slots; it is the same content exactly if no slot was filled. The
original is as it was. Both trees have the same summary, and they are rendered as the same text exactly if nothing was written
before and after the nodes. -/
theorem clone_isCopy (formed : f.WellFormed id) :
    (∃ origin, f.IsCopy (f.clone id).2 id (f.clone id).1 origin ∧
      ∀ x ∈ (f.clone id).2.preorder (f.clone id).1, (f.clone id).2.content x = f.content (origin x) ↔
        (f.content (origin x)).opening = [] ∧ (f.content (origin x)).closing = [] ∧
          (f.content (origin x)).padding = []) ∧
    (f.clone id).2.read id = f.read id ∧
    ((f.clone id).2.read (f.clone id).1).summary = (f.read id).summary ∧
    (((f.clone id).2.read (f.clone id).1).rendered = (f.read id).rendered ↔
      ∀ x ∈ f.preorder id, (f.content x).opening = [] ∧ (f.content x).closing = []) := by
  obtain ⟨g, bears⟩ := wellFormed_iff_exists_bears.1 formed
  obtain ⟨⟨origin, copy⟩, original, read⟩ := bears.isCopy
  refine ⟨⟨origin, copy, fun x inside => ?_⟩, original, ?_, ?_⟩
  · rw [copy.content_eq x inside, Content.withoutSlots_eq_self_iff]
  · rw [read, Node.summary_withoutSlots]
  · rw [read, Node.rendered_withoutSlots_iff, bears.preorder, bears.read, Node.contentsAll_cons,
      Grove.contentsAll_nodes, Node.contentsAll_nil, List.append_nil, Grove.labels_map, ← List.map_cons,
      List.forall_mem_map]

/-- A root over a node with a filled slot and one below it. -/
def filledForest : Forest :=
  ⟨#[{ children := [1] },
    { parent := some 0, children := [2],
      content := { abbreviation := ['a'], elementName := some ['a'], opening := ['<', 'a', '>'] } },
    { parent := some 1, content := { abbreviation := ['b'], elementName := some ['b'], text := ['t'] } }]⟩

/-- A copy of it has the same summary, and it is rendered without what was in the slot. -/
theorem clone_filledForest :
    filledForest.WellFormed 0 ∧
      ((filledForest.clone 0).2.read (filledForest.clone 0).1).summary = (filledForest.read 0).summary ∧
      ((filledForest.clone 0).2.read (filledForest.clone 0).1).rendered ≠ (filledForest.read 0).rendered := by
  have formed : filledForest.WellFormed 0 := ⟨by decide, by decide, by decide⟩
  obtain ⟨-, -, summary, rendered⟩ := clone_isCopy formed
  refine ⟨formed, summary, fun same => ?_⟩
  have unwritten := (rendered.1 same 1 (by decide)).1
  exact absurd unwritten (by decide)

end Forest

end Shorthand
