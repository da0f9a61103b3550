import Shorthand.Node.Basic

/-! # Resolving element names

A resolver is a table of resources by name, where case is left aside. Applied to a tree it attaches to each node
below the root the resource that the element name of its token stands for; nodes whose name is not in the table
keep what they have.

* **`Resolver.lookup`** — the resource of a name.
* **`Resolver.resolve`** — the tree with the resources attached. -/

namespace Shorthand

/-- A table of resources by the lower-case forms of their names. -/
structure Resolver where
  /-- The resources with their keys in lower case. -/
  entries : Table Resource := []

namespace Resolver

/-- Register a resource under a key; an earlier one under the same key is replaced. -/
def register (r : Resolver) (key : Text) (resource : Resource) : Resolver :=
  ⟨Table.put key.lower resource r.entries⟩

/-- The resolver of a table of resources; of keys that differ only in case the last one counts. -/
def ofTable (table : Table Resource) : Resolver :=
  table.foldl (fun r entry => r.register entry.1 entry.2) {}

/-- The number of registered names. -/
def size (r : Resolver) : Nat := r.entries.length

/-- The resource of a name. A missing or empty name has none. -/
def lookup (r : Resolver) : Option Text → Option Resource
  | none => none
  | some name => if name = [] then none else Table.find? name.lower r.entries

/-- The content with the resource of its element name attached. -/
def attach (r : Resolver) (c : Content) : Content :=
  match r.lookup c.elementName with
  | none => c
  | some resource => { c with resource := some resource }

/-- The tree with the resources attached to the nodes below its root. -/
def resolve (r : Resolver) (root : Node) : Node := root.mapBelow r.attach

@[simp] theorem lookup_none (r : Resolver) : r.lookup none = none := rfl

@[simp] theorem lookup_nil (r : Resolver) : r.lookup (some []) = none := rfl

/-- The resource that was registered last under a name is found, whatever the case of the name. -/
theorem lookup_register (r : Resolver) (key name : Text) (resource : Resource) (h : name ≠ []) :
    (r.register key resource).lookup (some name) =
      if name.lower = key.lower then some resource else r.lookup (some name) := by
  simp [lookup, register, h, Table.find?_put]

/-- Attaching leaves the element name, so attaching again changes nothing. -/
@[simp] theorem attach_attach (r : Resolver) (c : Content) : r.attach (r.attach c) = r.attach c := by
  unfold attach
  cases found : r.lookup c.elementName <;> simp [found]

end Resolver

end Shorthand
