import Shorthand.Forest.Build
import Shorthand.Proofs.Forest.Path

/-! # Building a tree with links

Step by step the linked tree below a root follows the spine of values: the current node stands at the end of a path that
ends at the right edge, and it is the current node of the spine. What is built is new, so that nothing else is touched;
a group is built below a root of its own, from where its trees are moved.

* **`Forest.Traces`** — the linked tree follows a spine.
* **`Forest.Builds`** — a tree has grown, and nothing else has changed.
* **`Forest.Follows`** — a step on the linked tree follows a step on the spine.
* `Forest.follows_linkAll` — so do the steps of a list of items.
* `Forest.build_built` — the linked tree is the tree of values. -/

namespace Shorthand

namespace Forest

variable {f f₁ f₂ : Forest} {root current c donor : NodeId} {g below finished : Grove NodeId}
  {path : List (NodeId × Grove NodeId)} {s : Spine}

/-! ## New children -/

/-- A new blank node changes no cell: what is not there counts as blank. -/
theorem cell_create (f : Forest) (x : NodeId) : f.create.2.cell x = f.cell x := by
  rw [create, cell_push]
  by_cases new : x = f.size
  · rw [if_pos new, new, cell_of_size_le (Nat.le_refl _)]
  · rw [if_neg new]

@[simp] theorem size_create (f : Forest) : f.create.2.size = f.size + 1 := size_push ..

/-- A new blank node bears nothing. -/
theorem bears_create (f : Forest) : f.create.2.Bears f.size .nil := by
  refine ⟨?_, ?_, stands_nil, List.nodup_singleton _⟩
  · rw [size_create]
    exact Nat.lt_succ_self _
  · rw [children, create, cell_push_self]
    rfl

/-- Nodes that were there bear the same groves. -/
theorem Bears.create (bears : f.Bears c g) : f.create.2.Bears c g := by
  refine bears.of_links (by rw [size_create]; exact Nat.le_succ _) ?_ fun x _ => ⟨?_, ?_⟩
  · rw [children, cell_create, children]
  · rw [parent?, cell_create, parent?]
  · rw [children, cell_create, children]

/-- A blank child is added to a node after what is below it. -/
theorem Bears.extend (bears : f.Bears c g) :
    ∃ f', f.extend c = (f.size, f') ∧ f'.Bears c (g ++ .cons f.size .nil .nil) ∧
      f'.size = f.size + 1 ∧ f'.content = f.content ∧
      (∀ x, x ≠ f.size → f'.parent? x = f.parent? x) ∧ ∀ x, x ≠ c → f'.children x = f.children x := by
  have created := bears.create
  have cells := cell_addChild none created.inside (bears_create f).inside
  rw [← Grove.append_nil g] at created
  -- the new node is not among those that were there
  have separate : ∀ x ∈ f.size :: (Grove.nil : Grove NodeId).labels, x ∉ c :: (g ++ .nil).labels := by
    intro x new among
    rw [Grove.labels_nil, List.mem_singleton] at new
    rw [Grove.append_nil] at among
    exact Nat.lt_irrefl _ (new ▸ bears.lt_size among)
  refine ⟨f.create.2.addChild c f.size none, rfl, created.addChild (bears_create f) separate ?_, ?_,
    funext fun x => ?_, fun x other => ?_, fun x other => ?_⟩
  · rw [insertAt_none, Grove.roots_nil, List.append_nil]
  · rw [size_addChild, size_create]
  · rw [content, cells, content, cell_create, content]
  · rw [parent?, cells, if_neg other, parent?, cell_create, parent?]
  · rw [children, cells, if_neg other, children, cell_create, children]

/-! ## Moved children -/

/-- The trees of a standing grove are moved to another node, after what is below it. -/
theorem Bears.foldl_addChild {moved : Grove NodeId} (bears : f.Bears c g) (stands : f.Stands donor moved)
    (distinct : moved.labels.Nodup) (separate : ∀ x ∈ moved.labels, x ∉ c :: g.labels) :
    ∃ f', moved.roots.foldl (fun f child => f.addChild c child none) f = f' ∧
      f'.Bears c (g ++ moved) ∧ f'.size = f.size ∧ f'.content = f.content ∧
      (∀ x, x ∉ moved.labels → f'.parent? x = f.parent? x) ∧
      ∀ x, x ≠ c → f'.children x = f.children x := by
  induction moved generalizing f g with
  | nil =>
    refine ⟨f, rfl, ?_, rfl, rfl, fun _ _ => rfl, fun _ _ => rfl⟩
    rwa [Grove.append_nil]
  | cons x below rest _ ih =>
    have childBears := stands.bears_below distinct
    have cells := cell_addChild none bears.inside childBears.inside
    have separateChild : ∀ y ∈ x :: below.labels, y ∉ c :: g.labels := fun y inside =>
      separate y (List.mem_cons.2 ((List.mem_cons.1 inside).imp_right (List.mem_append_left _)))
    have other : x ≠ c := fun same => separateChild x List.mem_cons_self (same ▸ List.mem_cons_self)
    -- the first tree is moved
    have bears₁ : (f.addChild c x none).Bears c (g ++ .cons x below .nil) := by
      rw [← Grove.append_nil g] at bears separateChild
      refine bears.addChild childBears separateChild ?_
      rw [insertAt_none, Grove.roots_nil, List.append_nil]
    have size := size_addChild f c x none
    have separateRest := distinct
    simp only [Grove.labels_cons, List.nodup_cons, List.mem_append, not_or, List.nodup_append]
      at separateRest
    obtain ⟨⟨-, notRest⟩, -, restDistinct, apart⟩ := separateRest
    have restOther : ∀ y ∈ rest.labels, y ≠ c := fun y inside same =>
      separate y (List.mem_cons_of_mem _ (List.mem_append_right _ inside)) (same ▸ List.mem_cons_self)
    -- the others stand where they stood
    have restStands : (f.addChild c x none).Stands donor rest := by
      refine stands.2.2.2.2.of_links size.ge fun y inside => ⟨?_, ?_⟩
      · rw [parent?, cells, if_neg fun same : y = x => notRest (same ▸ inside)]
      · rw [children, cells, if_neg (restOther y inside)]
    have restSeparate : ∀ y ∈ rest.labels, y ∉ c :: (g ++ .cons x below .nil).labels := by
      intro y inside among
      simp only [Grove.labels_append, Grove.labels_cons, Grove.labels_nil, List.append_nil,
        List.mem_cons, List.mem_append] at among
      rcases among with same | inG | same | inBelow
      · exact restOther y inside same
      · exact separate y (List.mem_cons_of_mem _ (List.mem_append_right _ inside))
          (List.mem_cons_of_mem _ inG)
      · exact notRest (same ▸ inside)
      · exact apart y inBelow y inside rfl
    obtain ⟨f₂, run, bears₂, size₂, content₂, parent₂, children₂⟩ :=
      ih bears₁ restStands restDistinct restSeparate
    refine ⟨f₂, ?_, ?_, size₂.trans size, ?_, fun y outside => ?_, fun y ne => ?_⟩
    · rw [Grove.roots_cons, List.foldl_cons, run]
    · rwa [Grove.append_assoc, Grove.cons_append, Grove.nil_append] at bears₂
    · rw [content₂]
      funext y
      rw [content, cells]
    · rw [Grove.labels_cons, List.mem_cons, List.mem_append, not_or, not_or] at outside
      rw [parent₂ y outside.2.2, parent?, cells, if_neg outside.1]
    · rw [children₂ y ne, children, cells, if_neg ne]

/-- The children of a node are moved to another node, after what is below it. -/
theorem Bears.adopt {moved : Grove NodeId} (bears : f.Bears c g) (donorBears : f.Bears donor moved)
    (separate : ∀ x ∈ moved.labels, x ∉ c :: g.labels) :
    ∃ f', f.adopt c donor = f' ∧ f'.Bears c (g ++ moved) ∧ f'.size = f.size ∧
      f'.content = f.content ∧ (∀ x, x ∉ moved.labels → f'.parent? x = f.parent? x) ∧
      ∀ x, x ≠ c → f'.children x = f.children x := by
  rw [Forest.adopt, donorBears.lists]
  exact bears.foldl_addChild donorBears.stands donorBears.nodup separate

/-! ## Following a spine -/

/-- The tree of a node as a value, by the grove that is below it. -/
def treeOf (f : Forest) (x : NodeId) (g : Grove NodeId) : Node := .mk (f.content x) (g.map f.content).nodes

/-- The spine of values for the path to a node. -/
def spineOf (f : Forest) (current : NodeId) (below : Grove NodeId)
    (path : List (NodeId × Grove NodeId)) (finished : Grove NodeId) : Spine :=
  ⟨f.treeOf current below, path.map fun step => f.treeOf step.1 step.2, (finished.map f.content).nodes⟩

/-- A node adopts the trees of a grove. -/
theorem adopt_treeOf (f : Forest) (x : NodeId) (g h : Grove NodeId) :
    (f.treeOf x g).adopt (h.map f.content).nodes = f.treeOf x (g ++ h) := by
  rw [treeOf, Node.adopt, Node.withChildren, treeOf, Grove.map_append, Grove.nodes_append]

/-- The nodes of a tree that stands alone. -/
theorem nodes_map_cons_nil (f : Forest) (x : NodeId) (g : Grove NodeId) :
    ((Grove.cons x g .nil).map f.content).nodes = [f.treeOf x g] := rfl

/-- Closing the spine gives the nodes of the whole grove. -/
theorem forest_spineOf (f : Forest) (current : NodeId) (below : Grove NodeId)
    (path : List (NodeId × Grove NodeId)) (finished : Grove NodeId) :
    (f.spineOf current below path finished).forest =
      ((finished ++ .enclose path (.cons current below .nil)).map f.content).nodes := by
  have closed : ∀ (path : List (NodeId × Grove NodeId)) (x : NodeId) (g : Grove NodeId),
      [Spine.close (f.treeOf x g) (path.map fun step => f.treeOf step.1 step.2)] =
        ((Grove.enclose path (.cons x g .nil)).map f.content).nodes := by
    intro path
    induction path with
    | nil => exact fun x g => rfl
    | cons step rest ih =>
      intro x g
      obtain ⟨a, left⟩ := step
      rw [List.map_cons, Spine.close_cons, ← nodes_map_cons_nil, adopt_treeOf, ih]
      rfl
  rw [Spine.forest, spineOf, closed, Grove.map_append, Grove.nodes_append]

/-- The linked tree below a root follows a spine: its current node stands at the end of a path at the right edge. -/
structure Traces (f : Forest) (root current : NodeId) (s : Spine) : Prop where
  /-- The root is linked to no parent. -/
  top : f.parent? root = none
  /-- The path and what is around it are those of the spine. -/
  along : ∃ finished path below,
    f.Bears root (finished ++ .enclose path (.cons current below .nil)) ∧
      s = f.spineOf current below path finished

/-- The tree below a root has grown, and nothing else has changed. -/
structure Builds (f f' : Forest) (root : NodeId) : Prop where
  /-- Nodes elsewhere are as they were. -/
  keeps : Keeps f f' (f.preorder root)
  /-- What is new in the tree is new in the forest. -/
  known : ∀ x ∈ f'.preorder root, x ∈ f.preorder root ∨ f.size ≤ x
  /-- The content of the root is as it was. -/
  content_eq : f'.content root = f.content root

namespace Builds

/-- Nothing has changed. -/
theorem refl (f : Forest) (root : NodeId) : Builds f f root :=
  ⟨.refl .., fun _ inside => .inl inside, rfl⟩

/-- Two steps one after the other. -/
theorem trans (first : Builds f f₁ root) (second : Builds f₁ f₂ root) : Builds f f₂ root := by
  refine ⟨first.keeps.trans second.keeps fun x inside old => ?_, fun x inside => ?_, ?_⟩
  · exact (first.known x inside).resolve_right (Nat.not_le_of_lt old)
  · rcases second.known x inside with early | new
    · exact first.known x early
    · exact .inr (Nat.le_trans first.keeps.size_le new)
  · rw [second.content_eq, first.content_eq]

end Builds

/-- What is above the end of a path is found by the link to the parent. -/
theorem Bears.parentOrSelf (bears : f.Bears root (finished ++ .enclose path (.cons current below .nil))) :
    f.parentOrSelf current = owner root path := by
  rw [Forest.parentOrSelf, (stands_append.1 bears.stands).2.hole.2.1, Option.getD_some]

/-- Replacing what is below the current node, without touching contents, builds the tree. -/
theorem Bears.refocus_builds {below' : Grove NodeId}
    (bears : f.Bears root (finished ++ .enclose path (.cons current below .nil)))
    (bears' : f₁.Bears current below') (size_le : f.size ≤ f₁.size)
    (contents : ∀ x < f.size, x ≠ current → f₁.content x = f.content x)
    (parent : f₁.parent? current = f.parent? current)
    (same : ∀ x < f.size, x ≠ current → x ∉ below.labels →
      f₁.parent? x = f.parent? x ∧ f₁.children x = f.children x)
    (known : ∀ x ∈ below'.labels, x ∈ below.labels ∨ f.size ≤ x) :
    f₁.Bears root (finished ++ .enclose path (.cons current below' .nil)) ∧ Builds f f₁ root := by
  have bears₁ := bears.refocus bears' size_le parent same known
  have ne : root ≠ current := fun same =>
    bears.not_mem (Grove.mem_labels_enclose.2 (.inl same))
  refine ⟨bears₁, ⟨size_le, fun x old outside => ?_⟩, ?_, contents root bears.inside ne⟩
  · simp only [bears.preorder, List.mem_cons, Grove.mem_labels_enclose, not_or] at outside
    obtain ⟨-, notCurrent, notBelow, -⟩ := outside
    obtain ⟨linked, lists⟩ := same x old notCurrent notBelow
    exact cell_ext (contents x old notCurrent) linked lists
  · rw [bears₁.preorder, bears.preorder]
    intro x inside
    simp only [List.mem_cons, Grove.mem_labels_enclose] at inside ⊢
    rcases inside with top | here | inBelow | elsewhere
    · exact .inl (.inl top)
    · exact .inl (.inr (.inl here))
    · exact (known x inBelow).imp_left fun early => .inr (.inr (.inl early))
    · exact .inl (.inr (.inr (.inr elsewhere)))

/-- What is not there counts as blank. -/
theorem content_of_size_le {x : NodeId} (outside : f.size ≤ x) : f.content x = {} := by
  rw [content, cell_of_size_le outside]

/-- A blank child of the node at the end of a path prolongs the path. -/
theorem Bears.extend_builds (bears : f.Bears root (finished ++ .enclose path (.cons current below .nil))) :
    ∃ f', f.extend current = (f.size, f') ∧ f'.content = f.content ∧
      f'.Bears root (finished ++ .enclose ((current, below) :: path) (.cons f.size .nil .nil)) ∧
      f'.parent? root = f.parent? root ∧ Builds f f' root := by
  obtain ⟨f', run, bears', size, contents, parents, lists⟩ := bears.focus.extend
  have old : current < f.size := bears.focus.inside
  obtain ⟨grown, builds⟩ := bears.refocus_builds bears' (by rw [size]; exact Nat.le_succ _)
    (fun x _ _ => by rw [contents]) (parents current (Nat.ne_of_lt old))
    (fun x inside ne _ => ⟨parents x (Nat.ne_of_lt inside), lists x ne⟩) fun x inside => by
      rw [Grove.labels_append, List.mem_append, Grove.labels_cons, Grove.labels_nil, List.append_nil,
        List.mem_singleton] at inside
      exact inside.imp_right fun new => new.ge
  exact ⟨f', run, contents, grown, parents root (Nat.ne_of_lt bears.inside), builds⟩

/-- A blank child of the root stands beside what was below the root. -/
theorem Bears.extend_root_builds (bears : f.Bears root g) :
    ∃ f', f.extend root = (f.size, f') ∧ f'.content = f.content ∧
      f'.Bears root (g ++ .cons f.size .nil .nil) ∧ f'.parent? root = f.parent? root ∧
      Builds f f' root := by
  obtain ⟨f', run, bears', size, contents, parents, lists⟩ := bears.extend
  refine ⟨f', run, contents, bears', parents root (Nat.ne_of_lt bears.inside), ⟨?_, fun x old outside => ?_⟩,
    fun x inside => ?_, by rw [contents]⟩
  · rw [size]
    exact Nat.le_succ _
  · rw [bears.preorder, List.mem_cons, not_or] at outside
    exact cell_ext (by rw [contents]) (parents x (Nat.ne_of_lt old)) (lists x outside.1)
  · rw [bears'.preorder, Grove.labels_append, Grove.labels_cons, Grove.labels_nil, List.append_nil,
      ← List.cons_append, List.mem_append, List.mem_singleton] at inside
    rw [bears.preorder]
    exact inside.imp_right fun new => new.ge

/-- A spine depends on the contents alone, and a new node is blank. -/
theorem spineOf_extend (contents : f₁.content = f.content) (path : List (NodeId × Grove NodeId))
    (finished : Grove NodeId) :
    f₁.spineOf f.size .nil path finished =
      ⟨.blank, path.map fun step => f.treeOf step.1 step.2, (finished.map f.content).nodes⟩ := by
  rw [spineOf, treeOf, contents, content_of_size_le (Nat.le_refl _)]
  simp only [treeOf, contents]
  rfl

namespace Traces

/-- An operator that goes down begins a blank node below the current one. -/
theorem descend (traces : f.Traces root current s) :
    ∃ f', f.extend current = (f.size, f') ∧ f'.Traces root f.size s.below ∧ Builds f f' root := by
  obtain ⟨top, finished, path, below, bears, rfl⟩ := traces
  obtain ⟨f', run, contents, bears', parent, builds⟩ := bears.extend_builds
  refine ⟨f', run, ⟨parent.trans top, finished, _, .nil, bears', ?_⟩, builds⟩
  rw [spineOf_extend contents]
  rfl

/-- A blank node below the owner of the path begins beside the current one. -/
theorem beside (top : f.parent? root = none)
    (bears : f.Bears root (finished ++ .enclose path (.cons current below .nil))) :
    ∃ f', f.extend (owner root path) = (f.size, f') ∧
      f'.Traces root f.size (f.spineOf current below path finished).beside ∧ Builds f f' root := by
  cases path with
  | nil =>
    -- at the top the current tree is finished, and the new node stands beside it
    obtain ⟨f', run, contents, bears', parent, builds⟩ := bears.extend_root_builds
    refine ⟨f', run, ⟨parent.trans top, finished ++ .cons current below .nil, [], .nil, bears', ?_⟩, builds⟩
    rw [spineOf_extend contents, Grove.map_append, Grove.nodes_append]
    rfl
  | cons step rest =>
    -- further down the current tree joins what is to the left of the path
    obtain ⟨a, left⟩ := step
    have bearsOwner : f.Bears root
        (finished ++ .enclose rest (.cons a (left ++ .cons current below .nil) .nil)) := bears
    obtain ⟨f', run, contents, bears', parent, builds⟩ := bearsOwner.extend_builds
    refine ⟨f', run, ⟨parent.trans top, finished, _, .nil, bears', ?_⟩, builds⟩
    rw [spineOf_extend contents, List.map_cons, ← adopt_treeOf]
    rfl

/-- An operator that stays on its level begins a blank node beside the current one. -/
theorem sibling (traces : f.Traces root current s) :
    ∃ f', f.extend (f.parentOrSelf current) = (f.size, f') ∧ f'.Traces root f.size s.beside ∧
      Builds f f' root := by
  obtain ⟨top, finished, path, below, bears, rfl⟩ := traces
  rw [bears.parentOrSelf]
  exact beside top bears

/-- An operator that goes up begins a blank node beside the parent of the current one, or beside the current one if it
is at the top. -/
theorem climb (traces : f.Traces root current s) :
    ∃ f', f.extend (f.parentOrSelf (f.parentOrSelf current)) = (f.size, f') ∧
      f'.Traces root f.size s.up.beside ∧ Builds f f' root := by
  obtain ⟨top, finished, path, below, bears, rfl⟩ := traces
  rw [bears.parentOrSelf]
  cases path with
  | nil =>
    -- the root has no parent, so that going up twice ends at the root
    have stays : f.parentOrSelf (owner root []) = owner root [] := by
      rw [owner, Forest.parentOrSelf, top, Option.getD_none]
    rw [stays]
    exact beside top bears
  | cons step rest =>
    obtain ⟨a, left⟩ := step
    have bearsOwner : f.Bears root
        (finished ++ .enclose rest (.cons a (left ++ .cons current below .nil) .nil)) := bears
    have up : (f.spineOf current below ((a, left) :: rest) finished).up =
        f.spineOf a (left ++ .cons current below .nil) rest finished := by
      rw [spineOf, Spine.up, List.map_cons, spineOf, ← adopt_treeOf]
      rfl
    rw [owner, bearsOwner.parentOrSelf, up]
    exact beside top bearsOwner

end Traces

/-! ## Tokens and groups -/

/-- A change of the content of the current node, with new trees below it, changes the current node of the spine. -/
theorem Bears.spineOf_eq (bears : f.Bears root (finished ++ .enclose path (.cons current below .nil)))
    (added : Grove NodeId) (change : Content → Content)
    (contents : ∀ x < f.size, x ≠ current → f₁.content x = f.content x)
    (changed : f₁.content current = change (f.content current)) :
    f₁.spineOf current (below ++ added) path finished =
      (f.spineOf current below path finished).change fun n =>
        (n.withContent change).adopt (added.map f₁.content).nodes := by
  -- the spine depends on the nodes of the tree alone, and the current one occurs there once
  have others : ∀ x, x ∈ below.labels ∨ x ∈ finished.labels ∨ x ∈ Grove.around path →
      f₁.content x = f.content x := fun x inside =>
    contents x (bears.focus_other inside).1 (bears.focus_other inside).2
  have here : f₁.treeOf current below = (f.treeOf current below).withContent change := by
    rw [treeOf, changed, Grove.map_congr fun x inside => others x (.inl inside)]
    rfl
  have left : (path.map fun step => f₁.treeOf step.1 step.2) =
      path.map fun step => f.treeOf step.1 step.2 := by
    refine List.map_congr_left fun step inside => ?_
    obtain ⟨node, below⟩ := Grove.mem_around inside
    rw [treeOf, others _ (.inr (.inr node)),
      Grove.map_congr fun x among => others x (.inr (.inr (below among))), treeOf]
  rw [spineOf, ← adopt_treeOf, here, left, Grove.map_congr fun x inside => others x (.inr (.inl inside))]
  rfl

/-- What building a tree below a new root makes. -/
structure Built (f f' : Forest) (nodes : List Node) : Prop where
  /-- The new root bears the nodes. -/
  bears : ∃ g, f'.Bears f.size g ∧ (g.map f'.content).nodes = nodes ∧ ∀ x ∈ g.labels, f.size ≤ x
  /-- The new root is linked to no parent. -/
  top : f'.parent? f.size = none
  /-- The new root is blank. -/
  content_eq : f'.content f.size = {}
  /-- No old node was touched. -/
  keeps : Keeps f f' []

namespace Traces

/-- A token describes the current node. -/
theorem modifyContent (traces : f.Traces root current s) (change : Content → Content) :
    (f.modifyContent current change).Traces root current (s.change (Node.withContent change)) ∧
      Builds f (f.modifyContent current change) root := by
  obtain ⟨top, finished, path, below, bears, rfl⟩ := traces
  have contents : ∀ x, (f.modifyContent current change).content x =
      if x = current then change (f.content x) else f.content x := fun x =>
    content_modifyContent f change bears.focus.inside
  have others : ∀ x < f.size, x ≠ current → (f.modifyContent current change).content x = f.content x :=
    fun x _ ne => by rw [contents, if_neg ne]
  obtain ⟨bears', builds⟩ := bears.refocus_builds
    (bears.focus.of_links (size_modifyContent ..).ge (children_modifyContent ..) fun x _ =>
      ⟨parent?_modifyContent .., children_modifyContent ..⟩)
    (size_modifyContent ..).ge others (parent?_modifyContent ..)
    (fun x _ _ _ => ⟨parent?_modifyContent .., children_modifyContent ..⟩) fun x inside => .inl inside
  refine ⟨⟨(parent?_modifyContent ..).trans top, finished, path, below, bears', ?_⟩, builds⟩
  have changed : (f.modifyContent current change).content current = change (f.content current) := by
    rw [contents, if_pos rfl]
  have spine := bears.spineOf_eq .nil change others changed
  rw [Grove.append_nil] at spine
  rw [spine]
  refine congrArg (fun step => Spine.change step _) (funext fun n => ?_)
  rw [Grove.map_nil, Grove.nodes_nil, Node.adopt_nil]

/-- A group gives its trees to the current node, and its multiplier. -/
theorem group {nodes : List Node} (traces : f.Traces root current s) (multiplier : Multiplier)
    (built : Built f f₁ nodes) :
    ((f₁.modifyContent current (·.repeatBy multiplier)).adopt current f.size).Traces root current
        (s.change fun n => (n.withContent (·.repeatBy multiplier)).adopt nodes) ∧
      Builds f ((f₁.modifyContent current (·.repeatBy multiplier)).adopt current f.size) root := by
  obtain ⟨top, finished, path, below, bears, rfl⟩ := traces
  obtain ⟨⟨inner, innerBears, rfl, new⟩, -, -, keeps⟩ := built
  have old : current < f.size := bears.focus.inside
  let f₂ := f₁.modifyContent current (·.repeatBy multiplier)
  have contents₂ : ∀ x, f₂.content x =
      if x = current then (f₁.content x).repeatBy multiplier else f₁.content x := fun x =>
    content_modifyContent f₁ (·.repeatBy multiplier) (Nat.lt_of_lt_of_le old keeps.size_le)
  -- the tree that is built elsewhere leaves the current one alone
  have currentBears : f₂.Bears current below := by
    refine bears.focus.of_links ?_ ?_ fun x inside => ?_
    · rw [size_modifyContent]
      exact keeps.size_le
    · rw [children_modifyContent, keeps.children_eq old List.not_mem_nil]
    · have inside := bears.focus.stands.lt_size inside
      rw [parent?_modifyContent, children_modifyContent, keeps.parent?_eq inside List.not_mem_nil,
        keeps.children_eq inside List.not_mem_nil]
      exact ⟨rfl, rfl⟩
  have innerBears₂ : f₂.Bears f.size inner :=
    innerBears.of_links (size_modifyContent ..).ge (children_modifyContent ..) fun x _ =>
      ⟨parent?_modifyContent .., children_modifyContent ..⟩
  -- its trees are moved below the current node
  obtain ⟨f₃, run₃, bears₃, size₃, contents₃, parents₃, lists₃⟩ := currentBears.adopt innerBears₂
    fun x inside among => Nat.not_lt_of_le (new x inside) (bears.focus.lt_size among)
  have contents : ∀ x < f.size, x ≠ current → f₃.content x = f.content x := fun x inside ne => by
    rw [contents₃, contents₂, if_neg ne, keeps.content_eq inside List.not_mem_nil]
  have parents : ∀ x < f.size, f₃.parent? x = f.parent? x := fun x inside => by
    rw [parents₃ x fun among => Nat.not_lt_of_le (new x among) inside, parent?_modifyContent,
      keeps.parent?_eq inside List.not_mem_nil]
  obtain ⟨bears', builds⟩ := bears.refocus_builds bears₃
    (by rw [size₃, size_modifyContent]; exact keeps.size_le) contents (parents current old)
    (fun x inside ne _ => by
      rw [parents x inside, lists₃ x ne, children_modifyContent,
        keeps.children_eq inside List.not_mem_nil]
      exact ⟨rfl, rfl⟩)
    fun x inside => by
      rw [Grove.labels_append, List.mem_append] at inside
      exact inside.imp_right (new x)
  rw [run₃]
  refine ⟨⟨(parents root bears.inside).trans top, finished, path, _, bears', ?_⟩, builds⟩
  have changed : f₃.content current = (f.content current).repeatBy multiplier := by
    rw [contents₃, contents₂, if_pos rfl, keeps.content_eq old List.not_mem_nil]
  have moved : inner.map f₃.content = inner.map f₁.content :=
    Grove.map_congr fun x inside => by
      rw [contents₃, contents₂, if_neg fun same : x = current => Nat.not_lt_of_le (new x inside) (same ▸ old)]
  rw [bears.spineOf_eq inner (·.repeatBy multiplier) contents changed, moved]

end Traces

/-! ## Item by item -/

/-- A step on a forest and its current node follows a step on a spine: what traced the spine before traces it after,
and only the tree has grown. -/
def Follows (link : NodeId × Forest → NodeId × Forest) (apply : Spine → Spine) : Prop :=
  ∀ ⦃f root current s⦄, f.Traces root current s → ∃ current' f', link (current, f) = (current', f') ∧
    f'.Traces root current' (apply s) ∧ Builds f f' root

/-- No item is no step. -/
theorem follows_nil : Follows (Item.linkAll []) (Item.applyAll []) := by
  intro f root current s traces
  refine ⟨current, f, ?_, ?_, .refl ..⟩
  · rw [Item.linkAll]
  · rwa [Item.applyAll_nil]

/-- If an item follows and so do the rest, then they do one after the other. -/
theorem Follows.cons {item : Item} {rest : List Item} (first : Follows (Item.link item) (Item.apply item))
    (others : Follows (Item.linkAll rest) (Item.applyAll rest)) :
    Follows (Item.linkAll (item :: rest)) (Item.applyAll (item :: rest)) := by
  intro f root current s traces
  obtain ⟨current₁, f₁, run₁, traces₁, builds₁⟩ := first traces
  obtain ⟨current₂, f₂, run₂, traces₂, builds₂⟩ := others traces₁
  refine ⟨current₂, f₂, ?_, ?_, builds₁.trans builds₂⟩
  · rw [Item.linkAll, run₁, run₂]
  · rwa [Item.applyAll_cons]

/-- An operator that goes down follows. -/
theorem follows_descend : Follows (Item.link .descend) (Item.apply .descend) := by
  intro f root current s traces
  obtain ⟨f', run, traces', builds⟩ := traces.descend
  refine ⟨f.size, f', ?_, ?_, builds⟩
  · rw [Item.link, run]
  · rwa [Item.apply]

/-- An operator that stays on its level follows. -/
theorem follows_sibling : Follows (Item.link .sibling) (Item.apply .sibling) := by
  intro f root current s traces
  obtain ⟨f', run, traces', builds⟩ := traces.sibling
  refine ⟨f.size, f', ?_, ?_, builds⟩
  · rw [Item.link, run]
  · rwa [Item.apply]

/-- An operator that goes up follows. -/
theorem follows_climb : Follows (Item.link .climb) (Item.apply .climb) := by
  intro f root current s traces
  obtain ⟨f', run, traces', builds⟩ := traces.climb
  refine ⟨f.size, f', ?_, ?_, builds⟩
  · rw [Item.link, run]
  · rwa [Item.apply]

/-- A token follows. -/
theorem follows_token (source : Text) (start : Nat) (said : Token) :
    Follows (Item.link (.token source start said)) (Item.apply (.token source start said)) := by
  intro f root current s traces
  obtain ⟨traces', builds⟩ := traces.modifyContent (·.assign said)
  refine ⟨current, f.modifyContent current (·.assign said), ?_, ?_, builds⟩
  · rw [Item.link]
  · rwa [Item.apply]

/-- If the items of a level follow, then they build the nodes that they describe below a new root. -/
theorem Follows.build {items : List Item} (follows : Follows (Item.linkAll items) (Item.applyAll items))
    (f : Forest) : ∃ f', f.build items = (f.size, f') ∧ Built f f' (Item.build items) := by
  have created := bears_create f
  -- a new root with one blank node below it is where a spine starts
  obtain ⟨f₁, run₁, contents₁, bears₁, parent₁, builds₁⟩ := created.extend_root_builds
  have orphan : f.create.2.parent? f.size = none := by
    rw [parent?, create, cell_push_self]
  have start : f₁.Traces f.size f.create.2.size .start := by
    refine ⟨parent₁.trans orphan, .nil, [], .nil, bears₁, ?_⟩
    rw [spineOf_extend contents₁]
    rfl
  obtain ⟨current, f₂, run₂, traces₂, builds₂⟩ := follows start
  have builds := builds₁.trans builds₂
  obtain ⟨top, finished, path, below, bears₂, spine⟩ := traces₂
  refine ⟨f₂, ?_, ⟨⟨_, bears₂, ?_, fun x inside => ?_⟩, top, ?_, ?_⟩⟩
  · show (f.size, (Item.linkAll items (f.create.2.extend f.size)).2) = _
    rw [run₁, run₂]
  · rw [← forest_spineOf, ← spine, Item.build]
  · rcases builds.known x (bears₂.preorder ▸ List.mem_cons_of_mem _ inside) with early | new
    · rw [created.preorder, Grove.labels_nil, List.mem_singleton] at early
      exact early.ge
    · rw [size_create] at new
      exact Nat.le_of_succ_le new
  · rw [builds.content_eq, content, cell_create]
    exact content_of_size_le (Nat.le_refl _)
  · refine (Keeps.push f {}).trans builds.keeps fun x early old => ?_
    rw [created.preorder, Grove.labels_nil, List.mem_singleton] at early
    exact absurd early (Nat.ne_of_lt old)

/-- A group follows if the items inside do. -/
theorem Follows.group {inside : List Item} (follows : Follows (Item.linkAll inside) (Item.applyAll inside))
    (multiplier : Multiplier) :
    Follows (Item.link (.group inside multiplier)) (Item.apply (.group inside multiplier)) := by
  intro f root current s traces
  obtain ⟨f₁, run, built⟩ := follows.build f
  obtain ⟨traces', builds⟩ := traces.group multiplier built
  have step : Item.link (.group inside multiplier) (current, f) =
      (current, ((f.build inside).2.modifyContent current (·.repeatBy multiplier)).adopt current
        (f.build inside).1) := by
    rw [Item.link]
    rfl
  rw [step, run]
  refine ⟨current, _, rfl, ?_, builds⟩
  rw [Item.apply]
  exact traces'

/-- The items of a level follow, from any node of any tree. -/
theorem follows_linkAll (items : List Item) : Follows (Item.linkAll items) (Item.applyAll items) := by
  -- a group builds its tree aside, so the items inside follow from another root
  induction items using Item.induction with
  | nil => exact follows_nil
  | descend rest ih => exact follows_descend.cons ih
  | sibling rest ih => exact follows_sibling.cons ih
  | climb rest ih => exact follows_climb.cons ih
  | token source start said rest ih => exact (follows_token source start said).cons ih
  | group inside multiplier rest insideFollows ih => exact (insideFollows.group multiplier).cons ih

/-- Building a level makes the tree of values that its items describe, below a new root. -/
theorem build_built (f : Forest) (items : List Item) :
    ∃ f', f.build items = (f.size, f') ∧ Built f f' (Item.build items) :=
  (follows_linkAll items).build f

end Forest

end Shorthand
