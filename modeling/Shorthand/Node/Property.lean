import Shorthand.Node.Basic

/-! # Properties of nodes by name

A caller may set one property of a node, or of a node and of everything below it, by the name of the
property.

* **`Assignment.read`** — the assignment of a value to the property with a given name, or why there is none. -/

namespace Shorthand

/-- The assignment of a value to a property. -/
inductive Assignment where
  /-- Set the token of the node. -/
  | abbreviation (t : Text)
  /-- Set the element name of the node. -/
  | elementName (t : Option Text)
  /-- Set the text of the node. -/
  | text (t : Text)
  /-- Set how often the node is to be repeated. -/
  | repeatCount (n : Int)
  /-- Set whether the node is repeated without a number. -/
  | implicitRepeat (b : Bool)
  /-- Set the number of the node among its copies. -/
  | counter (n : Int)
  /-- Take the attributes away that the token gave. -/
  | noAttributes
  /-- Take away what callers attached to the node. -/
  | noData
  /-- Take away what the element name stands for. -/
  | noResource
  /-- Set what a renderer puts before the node. -/
  | opening (t : Text)
  /-- Set what a renderer puts after the node. -/
  | closing (t : Text)
  /-- Set what a renderer puts into the lines of the node. -/
  | padding (t : Text)
  deriving DecidableEq, Repr

/-- Why a property cannot be set. -/
inductive PropertyFault where
  /-- There is no property of that name. -/
  | unknown (name : Text)
  /-- The property follows from others and is not set itself. -/
  | derived
  /-- The value is of a kind that the property does not have. -/
  | unfit
  deriving DecidableEq, Repr

namespace PropertyFault

/-- The message of a fault, for the faults that have one. -/
def message? : PropertyFault → Option Text
  | unknown name => some ("AbbreviationNode has no property ".toList ++ name.quoted)
  | derived => none
  | unfit => none

end PropertyFault

namespace Assignment

/-- The content after the assignment. -/
def apply (c : Content) : Assignment → Content
  | abbreviation t => { c with abbreviation := t }
  | elementName t => { c with elementName := t }
  | text t => { c with text := t }
  | repeatCount n => { c with repeatCount := n }
  | implicitRepeat b => { c with implicitRepeat := b }
  | counter n => { c with counter := n }
  | noAttributes => { c with attributes := [] }
  | noData => { c with data := [] }
  | noResource => { c with resource := none }
  | opening t => { c with opening := t }
  | closing t => { c with closing := t }
  | padding t => { c with padding := t }

/-- The property names, each with the assignment that a value makes to it, if the value fits. -/
def byName : Table (Value → Option Assignment) :=
  let ofText (make : Text → Assignment) (v : Value) : Option Assignment := v.text?.map make
  let ofInteger (make : Int → Assignment) : Value → Option Assignment
    | .integer n => some (make n)
    | _ => none
  [ ("abbreviation".toList, ofText .abbreviation),
    ("element_name".toList, fun v =>
      match v with
      | .null => some (.elementName none)
      | v => ofText (fun t => .elementName (some t)) v),
    ("text".toList, ofText .text),
    ("repeat_count".toList, ofInteger .repeatCount),
    ("has_implicit_repeat".toList, fun v =>
      match v with
      | .bool b => some (.implicitRepeat b)
      | _ => none),
    ("counter".toList, ofInteger .counter),
    ("attributes".toList, fun v =>
      match v with
      | .list [] => some .noAttributes
      | _ => none),
    ("data".toList, fun v =>
      match v with
      | .table [] => some .noData
      | _ => none),
    ("resource".toList, fun v =>
      match v with
      | .null => some .noResource
      | _ => none),
    ("start".toList, ofText .opening),
    ("end".toList, ofText .closing),
    ("padding".toList, ofText .padding) ]

/-- The assignment of a value to the property with the given name. -/
def read (name : Text) (value : Value) : Except PropertyFault Assignment :=
  match Table.find? name byName with
  | some make =>
    match make value with
    | some assignment => .ok assignment
    | none => .error .unfit
  | none => .error (if name = "name".toList then .derived else .unknown name)

end Assignment

namespace Node

/-- Make an assignment to a node and to everything below it. -/
def update (assignment : Assignment) (n : Node) : Node := n.mapAll (assignment.apply ·)

end Node

end Shorthand
