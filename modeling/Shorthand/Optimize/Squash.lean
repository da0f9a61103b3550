import Shorthand.Node.Basic

/-! # Squashing groups

Squashing takes the nodes without a token out of a tree: a node that groups others gives its place to its
children, and an empty one vanishes.

* **`squash`** — the tree with the groups below its root taken out. -/

namespace Shorthand

namespace Node

/-- The nodes of a list squashed, with the children of groups in place of the groups. -/
def squashAll : List Node → List Node
  | [] => []
  | mk content kids :: rest =>
    (if content.isGroup then squashAll kids else [mk content (squashAll kids)]) ++ squashAll rest

/-- The tree with the groups below its root taken out. -/
def squash (root : Node) : Node := root.withChildren squashAll

@[simp] theorem squashAll_nil : squashAll [] = [] := by rw [squashAll]

@[simp] theorem squashAll_cons (c : Content) (kids rest : List Node) :
    squashAll (mk c kids :: rest) =
      (if c.isGroup then squashAll kids else [mk c (squashAll kids)]) ++ squashAll rest := by
  rw [squashAll]

@[simp] theorem squashAll_append (before after : List Node) :
    squashAll (before ++ after) = squashAll before ++ squashAll after := by
  induction before with
  | nil => simp
  | cons n rest ih => obtain ⟨c, kids⟩ := n; simp [ih]

/-- The nodes of a list are squashed one by one. -/
theorem squashAll_map {α : Type} (f : α → Node) (items : List α) :
    squashAll (items.map f) = items.flatMap fun x => squashAll [f x] := by
  induction items with
  | nil => simp
  | cons x rest ih =>
    have first := squashAll_append [f x] (rest.map f)
    rw [List.singleton_append] at first
    rw [List.map_cons, first, ih, List.flatMap_cons]

@[simp] theorem squash_mk (c : Content) (kids : List Node) :
    squash (mk c kids) = mk c (squashAll kids) := rfl

end Node

end Shorthand
