import Shorthand.Node.View

/-! # Forests of linked nodes

Where trees are edited, nodes have identities: a forest holds cells, and a cell has the content of a node, the
list of its children and a link to its parent. Callers may set the links as they like, so that a forest is not
well formed by itself: a node may be listed by several nodes or linked to one that does not list it.

* **`Forest.cell`**, **`Forest.modify`** — look at a cell, change it.
* **`Forest.plant`** — the tree of a value as new cells.
* **`Forest.preorder`** — a node and everything below it, from left to right.
* **`Forest.read`** — the tree below a node as a value.

Going down from a node ends after as many levels as the forest has cells, for a longer way down would meet a
cell twice. -/

namespace Shorthand

/-- The identity of a node in a forest. -/
abbrev NodeId := Nat

/-- A node of a forest with its links. -/
structure Cell where
  /-- The content of the node. -/
  content : Content := {}
  /-- The parent that the node is linked to. -/
  parent : Option NodeId := none
  /-- The children of the node. -/
  children : List NodeId := []

instance : Inhabited Cell := ⟨{}⟩

/-- A collection of linked nodes. -/
structure Forest where
  /-- The cells by their identities. -/
  cells : Array Cell := #[]

namespace Forest

/-- The number of cells. -/
def size (f : Forest) : Nat := f.cells.size

/-- The cell of a node. -/
def cell (f : Forest) (id : NodeId) : Cell := f.cells[id]?.getD {}

/-- Change the cell of a node. -/
def modify (f : Forest) (id : NodeId) (change : Cell → Cell) : Forest :=
  ⟨f.cells.modify id change⟩

/-- The content of a node. -/
def content (f : Forest) (id : NodeId) : Content := (f.cell id).content

/-- The parent that a node is linked to. -/
def parent? (f : Forest) (id : NodeId) : Option NodeId := (f.cell id).parent

/-- The children of a node. -/
def children (f : Forest) (id : NodeId) : List NodeId := (f.cell id).children

/-- Change the content of a node. -/
def modifyContent (f : Forest) (id : NodeId) (change : Content → Content) : Forest :=
  f.modify id fun cell => { cell with content := change cell.content }

/-- Link a node to a parent, or to none. -/
def link (f : Forest) (id : NodeId) (parent : Option NodeId) : Forest :=
  f.modify id fun cell => { cell with parent }

/-- Change the list of children of a node. -/
def modifyChildren (f : Forest) (id : NodeId) (change : List NodeId → List NodeId) : Forest :=
  f.modify id fun cell => { cell with children := change cell.children }

/-- Add a cell. -/
def push (f : Forest) (cell : Cell) : NodeId × Forest := (f.size, ⟨f.cells.push cell⟩)

/-- Add a blank node without links. -/
def create (f : Forest) : NodeId × Forest := f.push {}

/-- A node has neither a token nor children. -/
def isEmpty (f : Forest) (id : NodeId) : Bool :=
  (f.content id).isGroup && (f.children id).isEmpty

mutual
/-- The nodes of a tree as new cells, its root linked to the given parent. -/
def plant (parent : Option NodeId) : Node → Forest → NodeId × Forest
  | .mk content kids, f =>
    let (id, f) := f.push { content, parent }
    let (ids, f) := plantAll id kids f
    (id, f.modifyChildren id fun _ => ids)

/-- The nodes of a list of trees as new cells, their roots linked to the given parent. -/
def plantAll (parent : NodeId) : List Node → Forest → List NodeId × Forest
  | [], f => ([], f)
  | n :: rest, f =>
    let (id, f) := plant (some parent) n f
    let (ids, f) := plantAll parent rest f
    (id :: ids, f)
end

/-- The tree below a node, down to the given number of levels. -/
def readWithin (f : Forest) : Nat → NodeId → Node
  | 0, id => .mk (f.content id) []
  | levels + 1, id => .mk (f.content id) ((f.children id).map (readWithin f levels))

/-- The tree below a node. -/
def read (f : Forest) (id : NodeId) : Node := f.readWithin f.size id

/-- A node and everything below it, down to the given number of levels. -/
def preorderWithin (f : Forest) : Nat → NodeId → List NodeId
  | 0, id => [id]
  | levels + 1, id => id :: (f.children id).flatMap (preorderWithin f levels)

/-- A node and everything below it. -/
def preorder (f : Forest) (id : NodeId) : List NodeId := f.preorderWithin f.size id

/-- The nodes below a node. -/
def descendants (f : Forest) (id : NodeId) : List NodeId := (f.preorder id).tail

/-- The topmost ancestor of a node, up to the given number of levels. -/
def topWithin (f : Forest) : Nat → NodeId → NodeId
  | 0, id => id
  | levels + 1, id =>
    match f.parent? id with
    | none => id
    | some parent => topWithin f levels parent

/-- The topmost ancestor of a node. -/
def top (f : Forest) (id : NodeId) : NodeId := f.topWithin f.size id

/-- The line that an outline shows for a node. -/
def describe (f : Forest) (id : NodeId) : Text :=
  let repeated :=
    match f.parent? id with
    | none => false
    | some parent => (f.children parent).any fun s => (f.content s).counter ≠ 1
  (f.content id).describe repeated

/-- A cell is given by its content and its links. -/
theorem cell_ext {f f' : Forest} {id : NodeId} (content : f'.content id = f.content id)
    (parent : f'.parent? id = f.parent? id) (children : f'.children id = f.children id) :
    f'.cell id = f.cell id := by
  cases left : f'.cell id
  cases right : f.cell id
  simp only [Forest.content, parent?, Forest.children, left, right] at content parent children
  rw [content, parent, children]

/-- What is no node of the forest counts as blank. -/
theorem cell_of_size_le {f : Forest} {id : NodeId} (outside : f.size ≤ id) : f.cell id = {} := by
  have absent : f.cells[id]? = none := Array.getElem?_eq_none outside
  rw [cell, absent, Option.getD_none]

/-- A forest is given by its cells. -/
theorem ext_cell {f f' : Forest} (size : f'.size = f.size) (cells : ∀ id, f'.cell id = f.cell id) :
    f' = f := by
  obtain ⟨left⟩ := f'
  obtain ⟨right⟩ := f
  congr 1
  refine Array.ext size fun i inLeft inRight => ?_
  simpa [cell, inLeft, inRight] using cells i

@[simp] theorem size_modify (f : Forest) (id : NodeId) (change : Cell → Cell) :
    (f.modify id change).size = f.size := by simp [size, modify]

/-- Changing a cell changes no other. -/
theorem cell_modify (f : Forest) (id other : NodeId) (change : Cell → Cell) :
    (f.modify id change).cell other =
      if id = other ∧ other < f.size then change (f.cell other) else f.cell other := by
  simp only [cell, modify, size, Array.getElem?_modify]
  by_cases same : id = other
  · by_cases inside : other < f.cells.size
    · simp [same, inside]
    · simp [same, inside]
  · simp [same]

/-- Changing a cell leaves the others as they are. -/
theorem cell_modify_of_ne (f : Forest) {id other : NodeId} (change : Cell → Cell)
    (different : other ≠ id) : (f.modify id change).cell other = f.cell other := by
  rw [cell_modify, if_neg fun both => different both.1.symm]

/-- A cell that is there is changed. -/
theorem cell_modify_self (f : Forest) {id : NodeId} (change : Cell → Cell) (inside : id < f.size) :
    (f.modify id change).cell id = change (f.cell id) := by
  rw [cell_modify, if_pos ⟨rfl, inside⟩]

@[simp] theorem size_push (f : Forest) (cell : Cell) : (f.push cell).2.size = f.size + 1 := by
  simp [size, push]

/-- A new cell holds what was put into it, and the others are as they were. -/
theorem cell_push (f : Forest) (c : Cell) (other : NodeId) :
    (f.push c).2.cell other = if other = f.size then c else f.cell other := by
  simp only [cell, push, size, Array.getElem?_push]
  split <;> simp_all

@[simp] theorem id_push (f : Forest) (c : Cell) : (f.push c).1 = f.size := rfl

/-- A new cell holds what was put into it. -/
@[simp] theorem cell_push_self (f : Forest) (c : Cell) : (f.push c).2.cell f.size = c := by
  rw [cell_push, if_pos rfl]

/-- A new cell leaves the others as they are. -/
theorem cell_push_of_lt (f : Forest) (c : Cell) {other : NodeId} (inside : other < f.size) :
    (f.push c).2.cell other = f.cell other := by
  rw [cell_push, if_neg (Nat.ne_of_lt inside)]

@[simp] theorem size_modifyContent (f : Forest) (id : NodeId) (change : Content → Content) :
    (f.modifyContent id change).size = f.size := size_modify ..

@[simp] theorem size_link (f : Forest) (id : NodeId) (parent : Option NodeId) :
    (f.link id parent).size = f.size := size_modify ..

@[simp] theorem size_modifyChildren (f : Forest) (id : NodeId)
    (change : List NodeId → List NodeId) : (f.modifyChildren id change).size = f.size :=
  size_modify ..

/-- Changing the content of a node leaves the links of all nodes as they are. -/
@[simp] theorem parent?_modifyContent (f : Forest) (id other : NodeId)
    (change : Content → Content) : (f.modifyContent id change).parent? other = f.parent? other := by
  simp only [parent?, modifyContent, cell_modify]
  split <;> rfl

@[simp] theorem children_modifyContent (f : Forest) (id other : NodeId)
    (change : Content → Content) :
    (f.modifyContent id change).children other = f.children other := by
  simp only [children, modifyContent, cell_modify]
  split <;> rfl

/-- Linking a node leaves all contents as they are. -/
@[simp] theorem content_link (f : Forest) (id other : NodeId) (parent : Option NodeId) :
    (f.link id parent).content other = f.content other := by
  simp only [content, link, cell_modify]
  split <;> rfl

@[simp] theorem children_link (f : Forest) (id other : NodeId) (parent : Option NodeId) :
    (f.link id parent).children other = f.children other := by
  simp only [children, link, cell_modify]
  split <;> rfl

/-- Changing a list of children leaves all contents as they are. -/
@[simp] theorem content_modifyChildren (f : Forest) (id other : NodeId)
    (change : List NodeId → List NodeId) :
    (f.modifyChildren id change).content other = f.content other := by
  simp only [content, modifyChildren, cell_modify]
  split <;> rfl

@[simp] theorem parent?_modifyChildren (f : Forest) (id other : NodeId)
    (change : List NodeId → List NodeId) :
    (f.modifyChildren id change).parent? other = f.parent? other := by
  simp only [parent?, modifyChildren, cell_modify]
  split <;> rfl

/-- The content of a node that is there is changed, and no other. -/
theorem content_modifyContent (f : Forest) {id other : NodeId} (change : Content → Content)
    (inside : id < f.size) :
    (f.modifyContent id change).content other =
      if other = id then change (f.content other) else f.content other := by
  by_cases same : other = id
  · rw [if_pos same, same, content, modifyContent, cell_modify_self f _ inside, content]
  · rw [if_neg same, content, modifyContent, cell_modify_of_ne f _ same, content]

/-- The parent of a node that is there is set, and no other. -/
theorem parent?_link (f : Forest) {id other : NodeId} (parent : Option NodeId)
    (inside : id < f.size) :
    (f.link id parent).parent? other = if other = id then parent else f.parent? other := by
  by_cases same : other = id
  · rw [if_pos same, same, parent?, link, cell_modify_self f _ inside]
  · rw [if_neg same, parent?, link, cell_modify_of_ne f _ same, parent?]

/-- The children of a node that is there are changed, and no others. -/
theorem children_modifyChildren (f : Forest) {id other : NodeId}
    (change : List NodeId → List NodeId) (inside : id < f.size) :
    (f.modifyChildren id change).children other =
      if other = id then change (f.children other) else f.children other := by
  by_cases same : other = id
  · rw [if_pos same, same, children, modifyChildren, cell_modify_self f _ inside, children]
  · rw [if_neg same, children, modifyChildren, cell_modify_of_ne f _ same, children]

end Forest

end Shorthand
