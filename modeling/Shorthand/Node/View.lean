import Shorthand.Node.Basic
import Shorthand.Value.Json

/-! # Views of a tree

What is shown of a tree: an outline with one line for each node below the root, and a summary of each node as
a value, which can be written as JSON.

* **`Node.outline`** — the outline of a tree.
* **`Node.summary`** — a node and everything below it as a value.
* **`Node.flags`** — the properties of a node as letters. -/

namespace Shorthand

namespace Content

/-- The name that an outline shows for a node: a node without a name is a text or unknown. -/
def shownName (c : Content) : Text :=
  if c.nameText = [] then (if c.isText then "#text".toList else ['?']) else c.nameText

/-- An attribute as an outline shows it. -/
def shownAttribute (a : Attribute) : Text := a.name ++ '=' :: '"' :: (a.value ++ ['"'])

/-- The line of a node: its name, attributes, text and number. The number is shown if it is not one, or if
a sibling has another number than one. -/
def describe (c : Content) (repeatedSibling : Bool) : Text :=
  let attributes := c.attributeList
  Text.joined [' '] ([c.shownName] ++
    (if attributes = [] then [] else [Text.joined [' '] (attributes.map shownAttribute)]) ++
    (if c.text = [] then [] else ['\x7b' :: (c.text ++ ['\x7d'])]) ++
    (if c.counter ≠ 1 || repeatedSibling then ['@' :: Text.ofInt c.counter] else []))

end Content

namespace Node

/-- Some node of a list is a numbered copy. -/
def hasCopies (nodes : List Node) : Bool := nodes.any fun n => n.content.counter ≠ 1

mutual
/-- The lines of a node and of everything below it. -/
def lines (indent : Int) (depth : Nat) (repeated : Bool) : Node → List Text
  | mk content kids =>
    (List.replicate (indent * depth).toNat ' ' ++ content.describe repeated) ::
      linesAll indent (depth + 1) (hasCopies kids) kids

/-- The lines of the nodes of a list and of everything below them. -/
def linesAll (indent : Int) (depth : Nat) (repeated : Bool) : List Node → List Text
  | [] => []
  | n :: rest => lines indent depth repeated n ++ linesAll indent depth repeated rest
end

/-- The outline of a tree: a line for each node below the root, indented by its depth. -/
def outline (indent : Int) (root : Node) : Text :=
  Text.joined ['\n'] (linesAll indent 0 (hasCopies root.children) root.children)

/-- A text as a value, where a missing text is the missing value. -/
def optionalText : Option Text → Value
  | none => .null
  | some t => .text t

/-- What a summary tells of the content of a node, before and after its children's place. -/
def summaryFields (c : Content) : Table Value :=
  [ ("name".toList, optionalText c.name?),
    ("abbreviation".toList, .text c.abbreviation),
    ("text".toList, .text c.text),
    ("attributes".toList, .list (c.attributeList.map fun a =>
      .table [("name".toList, .text a.name), ("value".toList, .text a.value)])),
    ("counter".toList, .integer c.counter),
    ("repeat_count".toList, .integer c.repeatCount),
    ("has_implicit_repeat".toList, .bool c.implicitRepeat) ]

mutual
/-- A node and everything below it as a value. -/
def summary : Node → Value
  | mk content kids =>
    .table (summaryFields content ++ [("children".toList, .list (summaryAll kids))])

/-- The nodes of a list as values. -/
def summaryAll : List Node → List Value
  | [] => []
  | n :: rest => summary n :: summaryAll rest
end

/-- The nodes below the root of a tree as a value. -/
def summaries (root : Node) : Value := .list (summaryAll root.children)

/-- The JSON text of the nodes below the root of a tree. -/
def json (indent : Option Int) (root : Node) : Text := root.summaries.json indent

/-- The properties of a node as letters: it groups, is empty, repeats, is a text, is an element, has an
empty child, leaves its name to the renderer. -/
def flags (n : Node) : Text :=
  let mark (letter : Char) (holds : Bool) : Text := if holds then [letter] else []
  mark 'G' n.content.isGroup ++ mark 'E' n.isEmpty ++ mark 'R' n.content.isRepeating ++
    mark 'T' n.content.isText ++ mark 'L' n.isElement ++ mark 'C' n.hasEmptyChildren ++
    mark 'I' n.content.hasImplicitName

end Node

end Shorthand
