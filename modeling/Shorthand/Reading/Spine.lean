import Shorthand.Reading.Scan
import Shorthand.Node.Basic

/-! # Building the tree of an abbreviation

The tree is built along its right edge. A spine holds the current node, its ancestors, and the finished nodes
at the top; all that was read before stands to the left of it. An operator moves along the spine and begins a
blank node, a token describes the current node, and a group gives its nodes to the current node.

* **`Spine.forest`** — the nodes at the top when the spine is closed.
* **`parseRaw`** — the tree of an abbreviation before it is optimized. -/

namespace Shorthand

namespace Node

/-- Give a node more children, after those that it has. -/
def adopt (n : Node) (kids : List Node) : Node := n.withChildren (· ++ kids)

@[simp] theorem adopt_nil (n : Node) : n.adopt [] = n := by
  obtain ⟨c, kids⟩ := n
  rw [adopt, withChildren, List.append_nil]

end Node

/-- A tree under construction, seen from its current node. -/
structure Spine where
  /-- The node that tokens, groups and multipliers belong to. -/
  current : Node
  /-- The ancestors of the current node, the nearest first, each with its finished children. -/
  ancestors : List Node
  /-- The finished nodes at the top. -/
  finished : List Node

namespace Spine

/-- The spine at the beginning of a level: one blank node. -/
def start : Spine := ⟨.blank, [], []⟩

/-- Move to the parent of the current node; a node at the top stays current. -/
def up (s : Spine) : Spine :=
  match s.ancestors with
  | [] => s
  | parent :: rest => ⟨parent.adopt [s.current], rest, s.finished⟩

/-- Begin a blank node beside the current one. -/
def beside (s : Spine) : Spine :=
  match s.ancestors with
  | [] => ⟨.blank, [], s.finished ++ [s.current]⟩
  | parent :: rest => ⟨.blank, parent.adopt [s.current] :: rest, s.finished⟩

/-- Begin a blank node below the current one. -/
def below (s : Spine) : Spine := ⟨.blank, s.current :: s.ancestors, s.finished⟩

/-- Change the current node. -/
def change (f : Node → Node) (s : Spine) : Spine := { s with current := f s.current }

/-- Close a node into its ancestors, the nearest first. -/
def close (n : Node) : List Node → Node
  | [] => n
  | parent :: rest => close (parent.adopt [n]) rest

/-- The nodes at the top when the spine is closed. -/
def forest (s : Spine) : List Node := s.finished ++ [close s.current s.ancestors]

@[simp] theorem close_nil (n : Node) : close n [] = n := rfl

@[simp] theorem close_cons (n parent : Node) (rest : List Node) :
    close n (parent :: rest) = close (parent.adopt [n]) rest := rfl

/-- Moving up does not change the tree. -/
@[simp] theorem forest_up (s : Spine) : s.up.forest = s.forest := by
  obtain ⟨current, ancestors, finished⟩ := s
  cases ancestors <;> rfl

end Spine

namespace Item

mutual
/-- What an item makes of a spine. -/
def apply : Item → Spine → Spine
  | descend, s => s.below
  | sibling, s => s.beside
  | climb, s => s.up.beside
  | token _ _ said, s => s.change (Node.withContent (·.assign said))
  | group inside multiplier, s =>
    s.change fun n =>
      (n.withContent (·.repeatBy multiplier)).adopt (applyAll inside .start).forest

/-- What a list of items makes of a spine. -/
def applyAll : List Item → Spine → Spine
  | [], s => s
  | item :: rest, s => applyAll rest (apply item s)
end

@[simp] theorem applyAll_nil (s : Spine) : applyAll [] s = s := by rw [applyAll]

@[simp] theorem applyAll_cons (item : Item) (rest : List Item) (s : Spine) :
    applyAll (item :: rest) s = applyAll rest (apply item s) := by rw [applyAll]

/-- The nodes that a list of items describes. -/
def build (items : List Item) : List Node := (applyAll items .start).forest

end Item

/-- The root of the tree that a list of items describes. -/
def Reading.tree (r : Reading) : Node := .mk {} (Item.build r.items)

/-- The tree of an abbreviation before it is optimized. -/
def parseRaw (t : Text) : Except Fault Node :=
  let reading := readAbbreviation t
  match reading.fault with
  | some fault => .error fault
  | none => .ok reading.tree

/-- An abbreviation is accepted exactly if no fault ends its reading. -/
theorem parseRaw_eq_ok_iff {t : Text} {root : Node} :
    parseRaw t = .ok root ↔
      (readAbbreviation t).fault = none ∧ root = (readAbbreviation t).tree := by
  unfold parseRaw
  cases fault : (readAbbreviation t).fault with
  | none => simp [fault, eq_comm]
  | some cause => simp [fault]

end Shorthand
