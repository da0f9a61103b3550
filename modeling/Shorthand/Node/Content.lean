import Shorthand.Resource
import Shorthand.Token

/-! # What a node holds

The content of a node apart from its place in a tree: what its token said, the resource that its name stands
for, its number among the copies of a repeated node, and what renderers and other callers attach to it.

* **`Content.assign`** — what a token makes of the content.
* **`Content.name?`**, **`Content.attributeList`** — name and attributes as they are to be rendered: those of
  the resource come first. -/

namespace Shorthand

/-- The content of a node. -/
structure Content where
  /-- The token of the node without its multiplier. -/
  abbreviation : Text := []
  /-- The element name that the token gave. -/
  elementName : Option Text := none
  /-- The text of the node. -/
  text : Text := []
  /-- The attributes that the token gave. -/
  attributes : List Attribute := []
  /-- How often the node is to be repeated. -/
  repeatCount : Int := 1
  /-- Whether a multiplier without a number was given. -/
  implicitRepeat : Bool := false
  /-- The number of the node among its copies. -/
  counter : Int := 1
  /-- What callers attached to the node. -/
  data : Table Value := []
  /-- What the element name stands for. -/
  resource : Option Resource := none
  /-- What a renderer puts before the node. -/
  opening : Text := []
  /-- What a renderer puts after the node. -/
  closing : Text := []
  /-- What a renderer puts into the lines of the node. -/
  padding : Text := []

namespace Content

/-- Apply a multiplier: a number sets the count, a bare star only the flag. -/
def repeatBy (c : Content) : Multiplier → Content
  | .absent => c
  | .bare => { c with implicitRepeat := true }
  | .times n => { c with repeatCount := n }

/-- Apply what a token says. What it does not say stays as it is. -/
def assign (c : Content) (token : Token) : Content :=
  { c.repeatBy token.multiplier with
    abbreviation := token.abbreviation.getD c.abbreviation
    text := token.text.getD c.text
    attributes := token.attributes.getD c.attributes
    elementName :=
      match token.name with
      | none => c.elementName
      | some name => if name = [] then none else some name }

/-- The resource, if it stands for an element. -/
def elementResource? (c : Content) : Option Resource := c.resource.filter (·.isElement)

/-- The name of the element: the name that the resource means, else the name that the token gave. -/
def name? (c : Content) : Option Text :=
  match c.elementResource? with
  | some r => some r.name
  | none => c.elementName

/-- The name of the element, where a missing name counts as empty. -/
def nameText (c : Content) : Text := c.name?.getD []

/-- The attributes of the resource and then those of the token, merged. -/
def attributeList (c : Content) : List Attribute :=
  Attribute.merge ((c.elementResource?.map (·.attributes)).getD [] ++ c.attributes)

/-- The value of an attribute. -/
def attribute? (c : Content) (name : Text) : Option Text :=
  Attribute.valueOf? name c.attributeList

/-- The content belongs to a node that only groups its children: no token was given. -/
def isGroup (c : Content) : Bool := c.abbreviation.isEmpty

/-- The node is to be repeated. -/
def isRepeating (c : Content) : Bool := 1 < c.repeatCount || c.implicitRepeat

/-- The node has a text and no name. -/
def isText (c : Content) : Bool := c.nameText.isEmpty && !c.text.isEmpty

/-- The node has attributes and no name, so that a renderer chooses the name. -/
def hasImplicitName (c : Content) : Bool := c.nameText.isEmpty && !c.attributes.isEmpty

/-- Whether the name agrees with the given one in all but case. -/
def isNamed (name : Text) (c : Content) : Bool := c.nameText.lower == name.lower

/-- The content as the copy with the given number. -/
def numbered (n : Int) (c : Content) : Content := { c with counter := n }

/-- A content with nothing but a repetition count taken as done. -/
def once (c : Content) : Content := { c with repeatCount := 1 }

/-- The content without what a renderer wrote into its slots. -/
def withoutSlots (c : Content) : Content := { c with opening := [], closing := [], padding := [] }

@[simp] theorem repeatBy_absent (c : Content) : c.repeatBy .absent = c := rfl

@[simp] theorem repeatBy_bare (c : Content) : c.repeatBy .bare = { c with implicitRepeat := true } :=
  rfl

@[simp] theorem repeatBy_times (c : Content) (n : Int) :
    c.repeatBy (.times n) = { c with repeatCount := n } := rfl

@[simp] theorem numbered_counter (n : Int) (c : Content) : (c.numbered n).counter = n := rfl

@[simp] theorem once_repeatCount (c : Content) : c.once.repeatCount = 1 := rfl

end Content

end Shorthand
