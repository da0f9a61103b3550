import Shorthand.Forest.Edit
import Shorthand.Proofs.Forest.WellFormed

/-! # Copying a tree in a forest

A tree is copied by planting new nodes. They get the identities that follow those of the forest, counted in pre-order,
and no old node is touched.

* **`Forest.Planted`** — a grove of contents has been planted.
* `Forest.plantAll_nodes` — planting nodes plants their grove.
* `Forest.Bears.clone` — a copy bears the grove of the node, with new identities.
* `Forest.Bears.cell_modifyAll` — changing contents below a node changes those of its grove. -/

namespace Shorthand.Forest

variable {f f' : Forest} {id : NodeId} {g : Grove NodeId}

/-! ## Planting -/

/-- A grove of contents stands below a parent, as new nodes that are counted in pre-order. -/
structure Planted (f f' : Forest) (parent : NodeId) (v : Grove Content) : Prop where
  /-- The nodes of the grove are new. -/
  size_eq : f'.size = f.size + v.labels.length
  /-- They stand below the parent. -/
  stands : f'.Stands parent (v.numbered f.size)
  /-- They have the contents of the grove. -/
  content_eq : (v.numbered f.size).map f'.content = v
  /-- No other node was touched. -/
  keeps : Keeps f f' []

/-- A new node with nodes planted below it. -/
theorem plant_mk {below : Grove Content}
    (plantBelow : ∀ (parent : NodeId) (f : Forest), ∃ f',
      plantAll parent below.nodes f = ((below.numbered f.size).roots, f') ∧ Planted f f' parent below)
    (parent : Option NodeId) (c : Content) (f : Forest) :
    ∃ f', plant parent (.mk c below.nodes) f = (f.size, f') ∧
      f'.size = f.size + 1 + below.labels.length ∧
      f'.cell f.size = ⟨c, parent, (below.numbered (f.size + 1)).roots⟩ ∧
      f'.Stands f.size (below.numbered (f.size + 1)) ∧
      (below.numbered (f.size + 1)).map f'.content = below ∧ Keeps f f' [] := by
  let pushed := (f.push { content := c, parent }).2
  have pushedSize : pushed.size = f.size + 1 := size_push ..
  obtain ⟨planted, run, ⟨size, stands, contents, keeps⟩⟩ := plantBelow f.size pushed
  rw [pushedSize] at run size stands contents
  have new : f.size < planted.size := by omega
  have root : planted.cell f.size = ⟨c, parent, []⟩ := by
    rw [keeps.cell_eq f.size (by omega) List.not_mem_nil, cell_push_self]
  -- the children are listed at the end, when all of them are there
  let listed := planted.modifyChildren f.size fun _ => (below.numbered (f.size + 1)).roots
  have listing : Keeps planted listed [f.size] := .modify ..
  have others : ∀ x ∈ (below.numbered (f.size + 1)).labels, x ∉ [f.size] := by
    intro x inside same
    rw [Grove.labels_numbered, List.mem_range'_1] at inside
    rw [List.mem_singleton] at same
    omega
  refine ⟨listed, ?_, ?_, ?_, stands.of_keeps listing others, ?_, ?_⟩
  · rw [plant]
    show (f.size, (plantAll f.size below.nodes pushed).2.modifyChildren f.size fun _ =>
      (plantAll f.size below.nodes pushed).1) = _
    rw [run]
  · rw [size_modifyChildren, size]
  · rw [show listed = planted.modify f.size _ from rfl, cell_modify_self _ _ new, root]
  · rw [stands.map_content_of_keeps listing others, contents]
  · refine ((Keeps.push f { content := c, parent }).trans keeps fun _ inside _ => inside).trans listing ?_
    intro x same old
    rw [List.mem_singleton] at same
    exact absurd same (Nat.ne_of_lt old)

/-- Planting the nodes of a grove plants the grove. -/
theorem plantAll_nodes (v : Grove Content) (parent : NodeId) (f : Forest) :
    ∃ f', plantAll parent v.nodes f = ((v.numbered f.size).roots, f') ∧ Planted f f' parent v := by
  induction v generalizing parent f with
  | nil =>
    refine ⟨f, ?_, rfl, stands_nil, rfl, .refl f []⟩
    rw [Grove.nodes_nil, plantAll]
    rfl
  | cons c below rest plantBelow ih =>
    -- the first tree takes the identities from the size of the forest on, and the others follow
    obtain ⟨f₁, run₁, size₁, root, belowStands, belowContent, keeps₁⟩ :=
      plant_mk plantBelow (some parent) c f
    obtain ⟨f₂, run₂, planted⟩ := ih parent f₁
    have new : f.size < f₁.size := by omega
    have rootContent : f₂.content f.size = c := by
      rw [planted.keeps.content_eq new List.not_mem_nil, content, root]
    refine ⟨f₂, ?_, ?_, ?_, ?_, ?_⟩
    · rw [Grove.nodes_cons, plantAll, run₁]
      dsimp only
      rw [run₂, size₁]
      rfl
    · rw [planted.size_eq, size₁, Grove.labels_cons, List.length_cons, List.length_append]
      omega
    · refine ⟨Nat.lt_of_lt_of_le new planted.keeps.size_le, ?_, ?_, ?_, ?_⟩
      · rw [planted.keeps.parent?_eq new List.not_mem_nil, parent?, root]
      · rw [planted.keeps.children_eq new List.not_mem_nil, children, root]
      · exact belowStands.of_keeps planted.keeps fun _ _ => List.not_mem_nil
      · rw [← size₁]
        exact planted.stands
    · rw [Grove.numbered, Grove.map_cons, rootContent,
        belowStands.map_content_of_keeps planted.keeps fun _ _ => List.not_mem_nil, belowContent,
        ← size₁, planted.content_eq]
    · exact keeps₁.trans planted.keeps fun _ inside _ => inside

/-- A copy of a node bears the same grove with new identities, without what a renderer wrote into the slots. It is
linked to no parent. -/
theorem Bears.clone (bears : f.Bears id g) :
    ∃ f', f.clone id = (f.size, f') ∧ f'.Bears f.size (g.numbered (f.size + 1)) ∧
      f'.size = f.size + 1 + g.labels.length ∧
      f'.cell f.size = ⟨(f.content id).withoutSlots, none, (g.numbered (f.size + 1)).roots⟩ ∧
      (g.numbered (f.size + 1)).map f'.content = g.map (fun x => (f.content x).withoutSlots) ∧
      Keeps f f' [] := by
  -- what is planted is the tree that is read, with its slots emptied
  let v := g.map fun x => (f.content x).withoutSlots
  have tree : (f.read id).mapAll Content.withoutSlots = .mk (f.content id).withoutSlots v.nodes := by
    rw [bears.read, Node.mapAll_mk, ← Grove.nodes_map, Grove.map_map]
  obtain ⟨f', run, size, root, stands, contents, keeps⟩ :=
    plant_mk (plantAll_nodes v) none (f.content id).withoutSlots f
  rw [Grove.numbered_map] at root stands contents
  rw [Grove.labels_map, List.length_map] at size
  have new : f.size < f'.size := by omega
  refine ⟨f', ?_, ⟨new, ?_, stands, ?_⟩, size, root, contents, keeps⟩
  · rw [Forest.clone, tree, run]
  · rw [children, root]
  · rw [Grove.labels_numbered, ← List.range'_succ]
    exact List.nodup_range'

/-! ## Changing contents -/

/-- Changing the contents of different nodes changes nothing else. -/
theorem cell_foldl_modifyContent {ids : List NodeId} (change : Content → Content)
    (inside : ∀ x ∈ ids, x < f.size) (distinct : ids.Nodup) :
    (ids.foldl (fun f x => f.modifyContent x change) f).size = f.size ∧
      ∀ x, (ids.foldl (fun f x => f.modifyContent x change) f).cell x =
        ⟨if x ∈ ids then change (f.content x) else f.content x, f.parent? x, f.children x⟩ := by
  induction ids generalizing f with
  | nil => exact ⟨rfl, fun x => by rw [if_neg List.not_mem_nil]; rfl⟩
  | cons id rest ih =>
    obtain ⟨notRest, restDistinct⟩ := List.nodup_cons.1 distinct
    have restInside : ∀ x ∈ rest, x < (f.modifyContent id change).size := fun x found => by
      rw [size_modifyContent]
      exact inside x (List.mem_cons_of_mem _ found)
    obtain ⟨size, cells⟩ := ih restInside restDistinct
    refine ⟨size.trans (size_modifyContent ..), fun x => ?_⟩
    rw [List.foldl_cons, cells, parent?_modifyContent, children_modifyContent,
      content_modifyContent _ _ (inside id List.mem_cons_self)]
    by_cases same : x = id
    · rw [if_pos same, if_neg (same ▸ notRest), if_pos (same ▸ List.mem_cons_self)]
    · rw [if_neg same]
      simp only [List.mem_cons, same, false_or]

/-- Changing the contents of a node and of everything below it changes those of its grove, and nothing else. -/
theorem Bears.cell_modifyAll (bears : f.Bears id g) (change : Content → Content) :
    (f.modifyAll id change).size = f.size ∧
      ∀ x, (f.modifyAll id change).cell x =
        ⟨if x ∈ id :: g.labels then change (f.content x) else f.content x, f.parent? x,
          f.children x⟩ := by
  rw [modifyAll, bears.preorder]
  exact cell_foldl_modifyContent change (fun x inside => bears.lt_size inside) bears.distinct

end Shorthand.Forest
