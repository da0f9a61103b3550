import Shorthand.Forest.Basic
import Shorthand.Proofs.Grove.Basic
import Mathlib.Data.List.Perm.Subperm
import Mathlib.Data.List.Range

/-! # Well-formed forests

Below a node a forest is *well formed* if going down meets every node once and every child is linked to the node that
lists it. Then the nodes below it are laid out as a grove: the node *bears* the grove. Operations are described by what
they make of the grove that a node bears, and by the nodes that they leave as they are.

* **`Forest.WellFormed`** — the forest is well formed below a node.
* **`Forest.Stands`**, **`Forest.Bears`** — a grove stands below a node; the node lists just its roots.
* **`Forest.Keeps`** — all nodes but some are as they were.
* `Forest.wellFormed_iff_exists_bears` — the forest is well formed below a node exactly if the node bears a grove.
* `Forest.Bears.read`, `Forest.Bears.preorder` — what is read off a node that bears a grove. -/

namespace Shorthand

namespace Forest

/-- Below a node no node is met twice, none is missing, and children are linked to the node that lists them. -/
structure WellFormed (f : Forest) (root : NodeId) : Prop where
  /-- The nodes are nodes of the forest. -/
  inside : ∀ x ∈ f.preorder root, x < f.size
  /-- Going down meets every node once. -/
  distinct : (f.preorder root).Nodup
  /-- A child is linked to the node that lists it. -/
  linked : ∀ x ∈ f.preorder root, ∀ child ∈ f.children x, f.parent? child = some x

/-- The trees of a grove stand below a node: their roots are linked to it, and each node lists the roots of what the
grove has below it. -/
def Stands (f : Forest) (parent : NodeId) : Grove NodeId → Prop
  | .nil => True
  | .cons id below rest =>
    id < f.size ∧ f.parent? id = some parent ∧ f.children id = below.roots ∧
      f.Stands id below ∧ f.Stands parent rest

/-- A node lists the roots of a grove that stands below it, and all these nodes are different. -/
structure Bears (f : Forest) (id : NodeId) (g : Grove NodeId) : Prop where
  /-- The node is a node of the forest. -/
  inside : id < f.size
  /-- The node lists the roots. -/
  lists : f.children id = g.roots
  /-- The grove stands below the node. -/
  stands : f.Stands id g
  /-- No node occurs twice. -/
  distinct : (id :: g.labels).Nodup

/-- No node is lost, and those that were there are as they were, apart from some that may have been touched. -/
structure Keeps (f f' : Forest) (touched : List NodeId) : Prop where
  /-- No node is lost. -/
  size_le : f.size ≤ f'.size
  /-- The others are as they were. -/
  cell_eq : ∀ x < f.size, x ∉ touched → f'.cell x = f.cell x

variable {f f' f'' : Forest} {id parent : NodeId} {g h : Grove NodeId}

/-! ## What is kept -/

namespace Keeps

variable {touched : List NodeId}

/-- Nothing has changed. -/
theorem refl (f : Forest) (touched : List NodeId) : Keeps f f touched :=
  ⟨Nat.le_refl _, fun _ _ _ => rfl⟩

/-- Two changes one after the other; what the second touches is new or was touched already. -/
theorem trans {later : List NodeId} (first : Keeps f f' touched) (second : Keeps f' f'' later)
    (known : ∀ x ∈ later, x < f.size → x ∈ touched) : Keeps f f'' touched := by
  refine ⟨Nat.le_trans first.size_le second.size_le, fun x old untouched => ?_⟩
  rw [second.cell_eq x (Nat.lt_of_lt_of_le old first.size_le)
    fun inside => untouched (known x inside old), first.cell_eq x old untouched]

/-- More nodes may be allowed to be touched. -/
theorem mono {more : List NodeId} (keeps : Keeps f f' touched) (subset : touched ⊆ more) :
    Keeps f f' more :=
  ⟨keeps.size_le, fun x old untouched => keeps.cell_eq x old fun inside => untouched (subset inside)⟩

theorem content_eq (keeps : Keeps f f' touched) {x : NodeId} (old : x < f.size)
    (untouched : x ∉ touched) : f'.content x = f.content x := by
  rw [content, keeps.cell_eq x old untouched, content]

theorem parent?_eq (keeps : Keeps f f' touched) {x : NodeId} (old : x < f.size)
    (untouched : x ∉ touched) : f'.parent? x = f.parent? x := by
  rw [parent?, keeps.cell_eq x old untouched, parent?]

theorem children_eq (keeps : Keeps f f' touched) {x : NodeId} (old : x < f.size)
    (untouched : x ∉ touched) : f'.children x = f.children x := by
  rw [children, keeps.cell_eq x old untouched, children]

/-- A change of one cell touches no other. -/
theorem modify (f : Forest) (id : NodeId) (change : Cell → Cell) :
    Keeps f (f.modify id change) [id] :=
  ⟨Nat.le_of_eq (size_modify ..).symm, fun _ _ untouched =>
    cell_modify_of_ne f change fun same => untouched (List.mem_singleton.2 same)⟩

/-- A new cell touches none. -/
theorem push (f : Forest) (cell : Cell) : Keeps f (f.push cell).2 [] :=
  ⟨by rw [size_push]; exact Nat.le_succ _, fun _ old _ => cell_push_of_lt f cell old⟩

end Keeps

/-! ## Standing groves -/

@[simp] theorem stands_nil : f.Stands parent .nil := trivial

theorem stands_cons {below rest : Grove NodeId} :
    f.Stands parent (.cons id below rest) ↔
      id < f.size ∧ f.parent? id = some parent ∧ f.children id = below.roots ∧
        f.Stands id below ∧ f.Stands parent rest := Iff.rfl

/-- Two groves stand side by side if each of them does. -/
theorem stands_append : f.Stands parent (g ++ h) ↔ f.Stands parent g ∧ f.Stands parent h := by
  induction g with
  | nil => rw [Grove.nil_append, and_iff_right stands_nil]
  | cons id below rest _ ih => rw [Grove.cons_append, stands_cons, stands_cons, ih]; tauto

namespace Stands

/-- The nodes of a standing grove are nodes of the forest. -/
theorem lt_size (stands : f.Stands parent g) {x : NodeId} (inside : x ∈ g.labels) :
    x < f.size := by
  induction g generalizing parent with
  | nil => exact absurd inside List.not_mem_nil
  | cons id below rest belowInduction ih =>
    obtain ⟨here, -, -, belowStands, restStands⟩ := stands
    rcases List.mem_cons.1 inside with rfl | later
    · exact here
    · rcases List.mem_append.1 later with inBelow | inRest
      · exact belowInduction belowStands inBelow
      · exact ih restStands inRest

/-- A grove still stands where the links of its nodes have not changed. -/
theorem of_links (stands : f.Stands parent g) (size_le : f.size ≤ f'.size)
    (same : ∀ x ∈ g.labels, f'.parent? x = f.parent? x ∧ f'.children x = f.children x) :
    f'.Stands parent g := by
  induction g generalizing parent with
  | nil => exact stands_nil
  | cons id below rest belowInduction ih =>
    obtain ⟨here, linked, lists, belowStands, restStands⟩ := stands
    simp only [Grove.labels_cons, List.mem_cons, List.mem_append, forall_eq_or_imp] at same
    refine ⟨Nat.lt_of_lt_of_le here size_le, ?_, ?_, ?_, ?_⟩
    · rw [same.1.1, linked]
    · rw [same.1.2, lists]
    · exact belowInduction belowStands fun x inside => same.2 x (.inl inside)
    · exact ih restStands fun x inside => same.2 x (.inr inside)

/-- A grove still stands where none of its nodes was touched. -/
theorem of_keeps (stands : f.Stands parent g) {touched : List NodeId} (keeps : Keeps f f' touched)
    (untouched : ∀ x ∈ g.labels, x ∉ touched) : f'.Stands parent g :=
  stands.of_links keeps.size_le fun x inside =>
    ⟨keeps.parent?_eq (stands.lt_size inside) (untouched x inside),
      keeps.children_eq (stands.lt_size inside) (untouched x inside)⟩

/-- The contents of a grove are as they were where none of its nodes was touched. -/
theorem map_content_of_keeps (stands : f.Stands parent g) {touched : List NodeId}
    (keeps : Keeps f f' touched) (untouched : ∀ x ∈ g.labels, x ∉ touched) :
    g.map f'.content = g.map f.content :=
  Grove.map_congr fun x inside => keeps.content_eq (stands.lt_size inside) (untouched x inside)

/-- The roots are linked to the node that the grove stands below. -/
theorem parent?_root (stands : f.Stands parent g) {x : NodeId} (root : x ∈ g.roots) :
    f.parent? x = some parent := by
  induction g with
  | nil => exact absurd root List.not_mem_nil
  | cons id below rest _ ih =>
    rcases List.mem_cons.1 root with rfl | later
    · exact stands.2.1
    · exact ih stands.2.2.2.2 later

/-- A tree of a standing grove bears what the grove has below it. -/
theorem bears_below {below rest : Grove NodeId} (stands : f.Stands parent (.cons id below rest))
    (distinct : (Grove.cons id below rest).labels.Nodup) : f.Bears id below := by
  refine ⟨stands.1, stands.2.2.1, stands.2.2.2.1, ?_⟩
  exact distinct.sublist (List.Sublist.cons_cons _ (List.sublist_append_left ..))

end Stands

/-! ## Reading a grove off -/

/-- Going down meets the node first. -/
theorem preorderWithin_eq_cons (f : Forest) (levels : Nat) (id : NodeId) :
    f.preorderWithin levels id = id :: (f.preorderWithin levels id).tail := by
  cases levels <;> rfl

/-- Going down from a node that lists the roots of a standing grove meets the nodes of the grove in pre-order, if the
levels suffice. -/
theorem preorderWithin_of_stands {levels : Nat} (stands : f.Stands id g)
    (lists : f.children id = g.roots) (enough : g.height ≤ levels) :
    f.preorderWithin levels id = id :: g.labels := by
  induction levels generalizing id g with
  | zero =>
    rw [Grove.eq_nil_of_height_le_zero enough]
    rfl
  | succ levels ih =>
    -- one level down the trees are met one after the other
    have trees : ∀ (g : Grove NodeId) (parent : NodeId), f.Stands parent g → g.height ≤ levels + 1 →
        g.roots.flatMap (f.preorderWithin levels) = g.labels := by
      intro g parent stands enough
      induction g with
      | nil => rfl
      | cons child below rest _ restInduction =>
        obtain ⟨-, -, lists, belowStands, restStands⟩ := stands
        rw [Grove.height_cons] at enough
        rw [Grove.roots_cons, List.flatMap_cons, ih belowStands lists (by omega),
          restInduction restStands (by omega), Grove.labels_cons, List.cons_append]
    rw [preorderWithin, lists, trees g id stands enough]

/-- The tree that is read below such a node is that of the grove. -/
theorem readWithin_of_stands {levels : Nat} (stands : f.Stands id g)
    (lists : f.children id = g.roots) (enough : g.height ≤ levels) :
    f.readWithin levels id = .mk (f.content id) (g.map f.content).nodes := by
  induction levels generalizing id g with
  | zero =>
    rw [Grove.eq_nil_of_height_le_zero enough]
    rfl
  | succ levels ih =>
    have trees : ∀ (g : Grove NodeId) (parent : NodeId), f.Stands parent g → g.height ≤ levels + 1 →
        g.roots.map (f.readWithin levels) = (g.map f.content).nodes := by
      intro g parent stands enough
      induction g with
      | nil => rfl
      | cons child below rest _ restInduction =>
        obtain ⟨-, -, lists, belowStands, restStands⟩ := stands
        rw [Grove.height_cons] at enough
        rw [Grove.roots_cons, List.map_cons, ih belowStands lists (by omega),
          restInduction restStands (by omega), Grove.map_cons, Grove.nodes_cons]
    rw [readWithin, lists, trees g id stands enough]

/-- Different nodes of a forest are not more than the forest has. -/
theorem length_le_size {ids : List NodeId} (distinct : ids.Nodup) (inside : ∀ x ∈ ids, x < f.size) :
    ids.length ≤ f.size := by
  have subset : ids ⊆ List.range f.size := fun x found => List.mem_range.2 (inside x found)
  simpa using (List.subperm_of_subset distinct subset).length_le

namespace Bears

/-- All nodes are nodes of the forest. -/
theorem lt_size (bears : f.Bears id g) {x : NodeId} (inside : x ∈ id :: g.labels) : x < f.size := by
  rcases List.mem_cons.1 inside with rfl | below
  · exact bears.inside
  · exact bears.stands.lt_size below

/-- The node is not below itself. -/
theorem not_mem (bears : f.Bears id g) : id ∉ g.labels := (List.nodup_cons.1 bears.distinct).1

/-- The nodes below are different. -/
theorem nodup (bears : f.Bears id g) : g.labels.Nodup := (List.nodup_cons.1 bears.distinct).2

/-- A node of the grove is another node of the forest. -/
theorem other (bears : f.Bears id g) {x : NodeId} (inside : x ∈ g.labels) : x < f.size ∧ x ≠ id :=
  ⟨bears.stands.lt_size inside, fun same => bears.not_mem (same ▸ inside)⟩

/-- The node still bears the grove where the links have not changed. -/
theorem of_links (bears : f.Bears id g) (size_le : f.size ≤ f'.size)
    (lists : f'.children id = f.children id)
    (same : ∀ x ∈ g.labels, f'.parent? x = f.parent? x ∧ f'.children x = f.children x) :
    f'.Bears id g :=
  ⟨Nat.lt_of_lt_of_le bears.inside size_le, lists.trans bears.lists,
    bears.stands.of_links size_le same, bears.distinct⟩

/-- The forest has more nodes than the grove has levels. -/
theorem height_lt_size (bears : f.Bears id g) : g.height < f.size := by
  -- each level has a node, and the node above all of them is one more
  have all := length_le_size bears.distinct fun x inside => bears.lt_size inside
  have levels := g.height_le_length_labels
  rw [List.length_cons] at all
  omega

/-- Going down meets the node and then the grove in pre-order. -/
theorem preorder (bears : f.Bears id g) : f.preorder id = id :: g.labels :=
  preorderWithin_of_stands bears.stands bears.lists bears.height_lt_size.le

/-- The nodes below are those of the grove. -/
theorem descendants (bears : f.Bears id g) : f.descendants id = g.labels := by
  rw [Forest.descendants, bears.preorder, List.tail_cons]

/-- The tree below the node is that of the grove. -/
theorem read (bears : f.Bears id g) : f.read id = .mk (f.content id) (g.map f.content).nodes :=
  readWithin_of_stands bears.stands bears.lists bears.height_lt_size.le

end Bears

/-! ## Well-formed forests as groves -/

/-- Below a standing grove children are linked to the node that lists them. -/
theorem Stands.linked (stands : f.Stands parent g) {x child : NodeId} (inside : x ∈ g.labels)
    (listed : child ∈ f.children x) : f.parent? child = some x := by
  induction g generalizing parent with
  | nil => exact absurd inside List.not_mem_nil
  | cons id below rest belowInduction ih =>
    obtain ⟨-, -, lists, belowStands, restStands⟩ := stands
    rcases List.mem_cons.1 inside with rfl | later
    · rw [lists] at listed
      exact belowStands.parent?_root listed
    · rcases List.mem_append.1 later with inBelow | inRest
      · exact belowInduction belowStands inBelow
      · exact ih restStands inRest

/-- What going down a number of levels from some nodes meets, laid out as a grove. -/
def groveWithin (f : Forest) : Nat → List NodeId → Grove NodeId
  | 0, _ => .nil
  | levels + 1, ids =>
    ids.foldr (fun id rest => .cons id (groveWithin f levels (f.children id)) rest) .nil

/-- The nodes of that grove are those that going down meets. -/
theorem preorderWithin_eq_groveWithin (f : Forest) (levels : Nat) (id : NodeId) :
    f.preorderWithin levels id = id :: (f.groveWithin levels (f.children id)).labels := by
  induction levels generalizing id with
  | zero => rfl
  | succ levels ih =>
    have trees : ∀ ids : List NodeId, ids.flatMap (f.preorderWithin levels) =
        (f.groveWithin (levels + 1) ids).labels := by
      intro ids
      induction ids with
      | nil => rfl
      | cons child rest restInduction =>
        rw [List.flatMap_cons, ih, restInduction]
        rfl
    rw [preorderWithin, trees]

/-- If the levels are not used up, then no node is cut off, and the grove stands where the children are linked to
the nodes that list them. -/
theorem stands_groveWithin {levels : Nat} {ids : List NodeId}
    (spare : (f.groveWithin levels ids).height < levels)
    (inside : ∀ x ∈ (f.groveWithin levels ids).labels, x < f.size)
    (linked : ∀ x ∈ (f.groveWithin levels ids).labels, ∀ child ∈ f.children x,
      f.parent? child = some x)
    (top : ∀ x ∈ ids, f.parent? x = some parent) :
    (f.groveWithin levels ids).roots = ids ∧ f.Stands parent (f.groveWithin levels ids) := by
  induction levels generalizing ids parent with
  | zero => exact absurd spare (Nat.not_lt_zero _)
  | succ levels ih =>
    induction ids with
    | nil => exact ⟨rfl, stands_nil⟩
    | cons id rest restInduction =>
      have split : f.groveWithin (levels + 1) (id :: rest) =
          .cons id (f.groveWithin levels (f.children id)) (f.groveWithin (levels + 1) rest) := rfl
      rw [split, Grove.height_cons] at spare
      simp only [split, Grove.labels_cons, List.mem_cons, List.mem_append, forall_eq_or_imp]
        at inside linked top
      have belowSpare : (f.groveWithin levels (f.children id)).height < levels := by omega
      obtain ⟨belowRoots, belowStands⟩ := ih belowSpare
        (fun x found => inside.2 x (.inl found)) (fun x found => linked.2 x (.inl found)) linked.1
      obtain ⟨restRoots, restStands⟩ := restInduction (by omega)
        (fun x found => inside.2 x (.inr found)) (fun x found => linked.2 x (.inr found)) top.2
      rw [split]
      refine ⟨?_, inside.1, top.1, ?_, belowStands, restStands⟩
      · rw [Grove.roots_cons, restRoots]
      · rw [belowRoots]

/-- The forest is well formed below a node exactly if the node bears a grove. -/
theorem wellFormed_iff_exists_bears : f.WellFormed id ↔ ∃ g, f.Bears id g := by
  constructor
  · intro formed
    obtain ⟨inside, distinct, linked⟩ := formed
    rw [Forest.preorder, preorderWithin_eq_groveWithin] at inside distinct linked
    simp only [List.mem_cons, forall_eq_or_imp] at inside linked
    -- a way down through all levels would need more different nodes than there are
    have spare : (f.groveWithin f.size (f.children id)).height < f.size := by
      have levels := (f.groveWithin f.size (f.children id)).height_le_length_labels
      have all := length_le_size distinct (by simpa using inside)
      rw [List.length_cons] at all
      omega
    obtain ⟨roots, stands⟩ := stands_groveWithin spare inside.2 linked.2 linked.1
    exact ⟨_, inside.1, roots.symm, stands, distinct⟩
  · rintro ⟨g, bears⟩
    refine ⟨?_, ?_, ?_⟩ <;> rw [bears.preorder]
    · exact fun x inside => bears.lt_size inside
    · exact bears.distinct
    · intro x inside child listed
      rcases List.mem_cons.1 inside with rfl | below
      · rw [bears.lists] at listed
        exact bears.stands.parent?_root listed
      · exact bears.stands.linked below listed

end Forest

end Shorthand
