import Shorthand.Node.Content

/-! # Trees of nodes

A node is its content and the list of its children. The root of a tree has a blank content and is not itself
part of what the tree describes; its descendants are.

* **`Node.descendants`** — the nodes below a node in the order in which they are met going down from left to
  right.
* **`Node.mapAll`** — change the content of a node and of everything below it. -/

namespace Shorthand

/-- A node of a tree. -/
inductive Node where
  /-- A node with its content and its children. -/
  | mk (content : Content) (children : List Node)

namespace Node

/-- The content of a node. -/
def content : Node → Content
  | mk content _ => content

/-- The children of a node. -/
def children : Node → List Node
  | mk _ children => children

/-- A node without content and children. -/
def blank : Node := mk {} []

instance : Inhabited Node := ⟨blank⟩

@[simp] theorem content_mk (c : Content) (kids : List Node) : (mk c kids).content = c := rfl

@[simp] theorem children_mk (c : Content) (kids : List Node) : (mk c kids).children = kids := rfl

/-- Change the content of a node alone. -/
def withContent (f : Content → Content) : Node → Node
  | mk content kids => mk (f content) kids

/-- Change the children of a node. -/
def withChildren (f : List Node → List Node) : Node → Node
  | mk content kids => mk content (f kids)

/-- The node has neither a token nor children. -/
def isEmpty (n : Node) : Bool := n.content.isGroup && n.children.isEmpty

/-- The node is to be rendered as an element. -/
def isElement (n : Node) : Bool := !n.isEmpty && !n.content.isText

/-- Some child of the node is empty. -/
def hasEmptyChildren (n : Node) : Bool := n.children.any (·.isEmpty)

/-- Induction on a list of nodes and on what stands below them. -/
@[elab_as_elim] theorem induction {motive : List Node → Prop} (nil : motive [])
    (cons : ∀ content kids rest, motive kids → motive rest → motive (mk content kids :: rest)) :
    ∀ nodes, motive nodes
  | [] => nil
  | .mk content kids :: rest =>
    cons content kids rest (induction nil cons kids) (induction nil cons rest)

mutual
/-- The node and everything below it. -/
def preorder : Node → List Node
  | mk content kids => mk content kids :: preorderAll kids

/-- The nodes of a list, each followed by everything below it. -/
def preorderAll : List Node → List Node
  | [] => []
  | n :: rest => preorder n ++ preorderAll rest
end

/-- The nodes below a node. -/
def descendants (n : Node) : List Node := preorderAll n.children

mutual
/-- The node and everything below it, each with its distance from the given depth. -/
def levels (depth : Nat) : Node → List (Nat × Node)
  | mk content kids => (depth, mk content kids) :: levelsAll (depth + 1) kids

/-- The nodes of a list, each followed by everything below it, with their depths. -/
def levelsAll (depth : Nat) : List Node → List (Nat × Node)
  | [] => []
  | n :: rest => levels depth n ++ levelsAll depth rest
end

mutual
/-- The number of levels of a tree, its root included. -/
def height : Node → Nat
  | mk _ kids => heightAll kids + 1

/-- The greatest number of levels of the trees of a list. -/
def heightAll : List Node → Nat
  | [] => 0
  | n :: rest => max (height n) (heightAll rest)
end

mutual
/-- Change the content of a node and of everything below it. -/
def mapAll (f : Content → Content) : Node → Node
  | mk content kids => mk (f content) (mapEach f kids)

/-- Change the content of all nodes of a list and of everything below them. -/
def mapEach (f : Content → Content) : List Node → List Node
  | [] => []
  | n :: rest => mapAll f n :: mapEach f rest
end

/-- Change the content of everything below a node. -/
def mapBelow (f : Content → Content) (n : Node) : Node := n.withChildren (mapEach f)

mutual
/-- What a renderer wrote for a node: its slots around its text and its children. -/
def rendered : Node → Text
  | mk content kids => content.opening ++ content.text ++ renderedAll kids ++ content.closing

/-- What a renderer wrote for the nodes of a list. -/
def renderedAll : List Node → Text
  | [] => []
  | n :: rest => rendered n ++ renderedAll rest
end

@[simp] theorem preorder_mk (c : Content) (kids : List Node) :
    preorder (mk c kids) = mk c kids :: preorderAll kids := by rw [preorder]

@[simp] theorem preorderAll_nil : preorderAll [] = [] := by rw [preorderAll]

@[simp] theorem preorderAll_cons (n : Node) (rest : List Node) :
    preorderAll (n :: rest) = preorder n ++ preorderAll rest := by rw [preorderAll]

@[simp] theorem preorderAll_append (before after : List Node) :
    preorderAll (before ++ after) = preorderAll before ++ preorderAll after := by
  induction before with
  | nil => simp
  | cons n rest ih => simp [ih]

@[simp] theorem levels_mk (depth : Nat) (c : Content) (kids : List Node) :
    levels depth (mk c kids) = (depth, mk c kids) :: levelsAll (depth + 1) kids := by rw [levels]

@[simp] theorem levelsAll_nil (depth : Nat) : levelsAll depth [] = [] := by rw [levelsAll]

@[simp] theorem levelsAll_cons (depth : Nat) (n : Node) (rest : List Node) :
    levelsAll depth (n :: rest) = levels depth n ++ levelsAll depth rest := by rw [levelsAll]

@[simp] theorem levelsAll_append (depth : Nat) (before after : List Node) :
    levelsAll depth (before ++ after) = levelsAll depth before ++ levelsAll depth after := by
  induction before with
  | nil => simp
  | cons n rest ih => simp [ih]

@[simp] theorem mapAll_mk (f : Content → Content) (c : Content) (kids : List Node) :
    mapAll f (mk c kids) = mk (f c) (mapEach f kids) := by rw [mapAll]

/-- Changing the content below every node of a list goes node by node. -/
theorem mapEach_eq_map (f : Content → Content) (nodes : List Node) :
    mapEach f nodes = nodes.map (mapAll f) := by
  induction nodes with
  | nil => rw [mapEach]; rfl
  | cons n rest ih => rw [mapEach, ih]; rfl

end Node

end Shorthand
