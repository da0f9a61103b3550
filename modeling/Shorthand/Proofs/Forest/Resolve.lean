import Shorthand.Forest.Resolve
import Shorthand.Proofs.Forest.Copy
import Shorthand.Proofs.Resolver.Registered

/-! # What resolving changes in a forest

A resolver looks names up as the tokens gave them and never as the resources mean them. So what it writes on a node does
not depend on what it has written before, and once all nodes are resolved there is nothing left to do.

* **`Forest.IsResolved`** — the resources are attached to the nodes below a root, and nothing else has changed.
* `Forest.Bears.read_resolve` — the tree that is read is the resolved tree.
* `Forest.resolve_registered` — what a resolver finds after any registrations, and what it does to a well-formed
  forest. -/

namespace Shorthand.Forest

/-- The resources are attached to the nodes below a root whose names are registered, and nothing else has changed. -/
structure IsResolved (f f' : Forest) (r : Resolver) (root : NodeId) : Prop where
  /-- There are as many nodes as before. -/
  size_eq : f'.size = f.size
  /-- A node below the root whose name is registered has the resource of the name. -/
  resource_eq : ∀ x ∈ f.descendants root, ∀ resource ∈ r.lookup (f.content x).elementName,
    f'.cell x = { f.cell x with content := { f.content x with resource := some resource } }
  /-- Any other node is as it was. -/
  cell_eq : ∀ x, (x ∈ f.descendants root → r.lookup (f.content x).elementName = none) → f'.cell x = f.cell x

variable {f : Forest} {root : NodeId} {g : Grove NodeId} {r : Resolver}

/-- Resolving goes through the nodes of the grove below the root, and writes on their contents alone. -/
theorem Bears.cell_resolve (bears : f.Bears root g) (r : Resolver) :
    (f.resolve r root).size = f.size ∧
      ∀ x, (f.resolve r root).cell x =
        ⟨if x ∈ g.labels then r.attach (f.content x) else f.content x, f.parent? x, f.children x⟩ := by
  have below : (f.preorder root).filter (· ≠ root) = g.labels := by
    rw [bears.preorder, List.filter_cons_of_neg (by simp), List.filter_eq_self]
    intro x inside
    exact decide_eq_true (bears.other inside).2
  rw [resolve, below]
  exact cell_foldl_modifyContent r.attach (fun x inside => bears.stands.lt_size inside) bears.nodup

/-- Resolving leaves the grove below the root. -/
theorem Bears.resolve (bears : f.Bears root g) (r : Resolver) : (f.resolve r root).Bears root g := by
  obtain ⟨size, cells⟩ := bears.cell_resolve r
  refine bears.of_links size.ge ?_ fun x _ => ⟨?_, ?_⟩
  · rw [children, cells]
  · rw [parent?, cells]
  · rw [children, cells]

/-- Resolving a forest attaches the resources to the nodes below the root, and changes nothing else. -/
theorem Bears.isResolved (bears : f.Bears root g) : f.IsResolved (f.resolve r root) r root := by
  obtain ⟨size, cells⟩ := bears.cell_resolve r
  refine ⟨size, ?_, ?_⟩ <;> rw [bears.descendants]
  · intro x inside resource found
    rw [cells, if_pos inside, Resolver.attach, found]
    rfl
  · intro x unnamed
    rw [cells]
    by_cases inside : x ∈ g.labels
    · rw [if_pos inside, Resolver.attach, unnamed inside]
      rfl
    · rw [if_neg inside]
      rfl

/-- The tree that is read below the root is the resolved tree. -/
theorem Bears.read_resolve (bears : f.Bears root g) : (f.resolve r root).read root = r.resolve (f.read root) := by
  obtain ⟨-, cells⟩ := bears.cell_resolve r
  have contents : g.map (f.resolve r root).content = (g.map f.content).map r.attach := by
    rw [Grove.map_map]
    refine Grove.map_congr fun x inside => ?_
    rw [content, cells, if_pos inside]
  have top : (f.resolve r root).content root = f.content root := by
    rw [content, cells, if_neg bears.not_mem]
  rw [(bears.resolve r).read, bears.read, top, contents, Grove.nodes_map]
  rfl

/-- Resolving again changes nothing: the names that are looked up are those of the tokens, which stay. -/
theorem Bears.resolve_resolve (bears : f.Bears root g) :
    (f.resolve r root).resolve r root = f.resolve r root := by
  obtain ⟨-, cells⟩ := bears.cell_resolve r
  obtain ⟨again, cells'⟩ := (bears.resolve r).cell_resolve r
  refine ext_cell again fun x => ?_
  rw [cells']
  by_cases inside : x ∈ g.labels
  · rw [if_pos inside, content, parent?, children, cells, if_pos inside, Resolver.attach_attach]
  · rw [if_neg inside]
    rfl

/-- Whatever table a resolver is made of and whatever is registered after it: a name that is not empty stands for the
resource that was registered last under a key with the same lower-case form, a missing or empty name stands for none, and
there are as many names as lower-case forms of keys. Resolving a forest that is well formed below a root attaches the
resources to the nodes below the root whose element names are registered, and changes nothing else; resolving it again
changes nothing. The tree that is read is the resolved tree. -/
theorem resolve_registered (table : Table Resource) (calls : List (Text × Resource)) :
    let r := (Resolver.ofTable table).registerAll calls
    r.lookup none = none ∧ r.lookup (some []) = none ∧
    (∀ name : Text, name ≠ [] → r.lookup (some name) =
      ((table ++ calls).reverse.find? fun call => call.1.lower = name.lower).map (·.2)) ∧
    r.size = ((table ++ calls).map fun call => call.1.lower).eraseDups.length ∧
    ∀ (f : Forest) (root : NodeId), f.WellFormed root →
      f.IsResolved (f.resolve r root) r root ∧ (f.resolve r root).resolve r root = f.resolve r root ∧
        (f.resolve r root).read root = r.resolve (f.read root) := by
  intro r
  have registered : r = Resolver.registerAll {} (table ++ calls) := by
    rw [Resolver.registerAll_append, ← Resolver.ofTable_eq_registerAll]
  refine ⟨rfl, rfl, fun name named => ?_, ?_, fun f root formed => ?_⟩
  · rw [registered, Resolver.lookup_registerAll _ named]
  · rw [registered, Resolver.size_registerAll]
  · obtain ⟨g, bears⟩ := wellFormed_iff_exists_bears.1 formed
    exact ⟨bears.isResolved, bears.resolve_resolve, bears.read_resolve⟩

/-- A root over a quotation, which is a resource already, with a paragraph below it. -/
def quotingForest : Forest :=
  ⟨#[{ children := [1] },
    { parent := some 0, children := [2], content := { elementName := some ['B', 'q'] } },
    { parent := some 1, content := { elementName := some ['q'], resource := some ⟨['p'], [], ['x']⟩ } }]⟩

/-- Of two keys that differ in case the later one counts; it gives the node a name that is registered, too, but that name
is not looked up. The node below keeps its resource. -/
theorem resolve_registered_quotingForest :
    let table : Table Resource := [(['b', 'q'], { name := ['q'] }), (['B', 'Q'], { name := ['l', 'i'] })]
    let r := (Resolver.ofTable table).registerAll [(['L', 'I'], { name := ['u', 'l'] })]
    quotingForest.WellFormed 0 ∧ r.lookup (some ['b', 'Q']) = some { name := ['l', 'i'] } ∧ r.size = 2 ∧
      ((quotingForest.resolve r 0).content 1).name? = some ['l', 'i'] ∧
      (r.lookup (some ['l', 'i'])).isSome ∧
      (quotingForest.resolve r 0).resolve r 0 = quotingForest.resolve r 0 ∧
      (quotingForest.resolve r 0).cell 2 = quotingForest.cell 2 := by
  intro table r
  have formed : quotingForest.WellFormed 0 := ⟨by decide, by decide, by decide⟩
  obtain ⟨-, -, lookup, size, resolve⟩ := resolve_registered table [(['L', 'I'], { name := ['u', 'l'] })]
  obtain ⟨resolved, again, -⟩ := resolve quotingForest 0 formed
  have found := lookup ['b', 'Q'] (by decide)
  have quoted := resolved.resource_eq 1 (by decide) { name := ['l', 'i'] } (lookup ['B', 'q'] (by decide))
  refine ⟨formed, found, size, ?_, ?_, again, resolved.cell_eq 2 fun _ => ?_⟩
  · rw [content, quoted]
    rfl
  · rw [lookup ['l', 'i'] (by decide)]
    decide
  · exact lookup ['q'] (by decide)

end Shorthand.Forest
