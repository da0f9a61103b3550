import Shorthand.Attribute.Basic
import Shorthand.Value.Spelled

/-! # Resources

A resource tells what an element name stands for: the name and the attributes of the element that is meant, or
something else that only its kind tells. -/

namespace Shorthand

/-- What an element name stands for. -/
structure Resource where
  /-- The name that is meant. -/
  name : Text
  /-- The attributes that come with it. -/
  attributes : List Attribute := []
  /-- The kind of the resource. -/
  kind : Text := ['e', 'l', 'e', 'm', 'e', 'n', 't']
  deriving DecidableEq, Repr

namespace Resource

/-- The kind of the resources that stand for an element. -/
def elementKind : Text := ['e', 'l', 'e', 'm', 'e', 'n', 't']

/-- Whether the resource stands for an element. -/
def isElement (r : Resource) : Bool := r.kind == elementKind

/-- The resource that a settings entry describes: a table with a name (the key if it is missing), a table of
attributes and a kind. Whatever is no text is taken as it is spelled. -/
def ofEntry? (key : Text) (entry : Value) : Option Resource := do
  let members ← entry.members?
  let attributes ← ((Table.find? "attributes".toList members).getD (.table [])).members?
  return {
    name := ((Table.find? "name".toList members).map Value.spelled).getD key
    attributes := attributes.map fun a => ⟨a.1, a.2.spelled⟩
    kind := ((Table.find? "kind".toList members).map Value.spelled).getD elementKind }

/-- The values of a settings entry that are taken as they are spelled. -/
def spelledParts (entry : Value) : List Value :=
  let members := entry.members?.getD []
  let attributes := ((Table.find? "attributes".toList members).bind Value.members?).getD []
  (Table.find? "name".toList members).toList ++ attributes.map (·.2) ++
    (Table.find? "kind".toList members).toList

end Resource

end Shorthand
