import Shorthand.Text.Case

/-! # Attributes and their merging

An attribute is a name with a value. A list of attributes may name one attribute several times; merging
leaves one attribute for each name, at the place where the name stood first. A later value replaces the
earlier one, except that the values of a class attribute are joined by spaces. -/

namespace Shorthand

/-- A name with a value. -/
structure Attribute where
  /-- The name, compared exactly. -/
  name : Text
  /-- The value, empty if none was written. -/
  value : Text := []
  deriving DecidableEq, Repr

namespace Attribute

/-- Whether the values of an attribute are joined instead of replaced: its name is `class` in any case. -/
def isClassName (name : Text) : Bool := name.lower == ['c', 'l', 'a', 's', 's']

/-- The value that a later value leaves of an earlier one. An empty class value leaves no space before what
follows it. -/
def mergeValue (name earlier later : Text) : Text :=
  if isClassName name then (if earlier = [] then later else earlier ++ ' ' :: later) else later

/-- Add an attribute to a list that names each attribute once. -/
def addTo (a : Attribute) : List Attribute → List Attribute
  | [] => [a]
  | e :: rest =>
    if e.name = a.name then { e with value := mergeValue e.name e.value a.value } :: rest
    else e :: addTo a rest

/-- Merge the attributes of the same name. -/
def merge (attributes : List Attribute) : List Attribute :=
  attributes.foldl (fun merged a => addTo a merged) []

/-- The value of the first attribute with the given name. -/
def valueOf? (name : Text) (attributes : List Attribute) : Option Text :=
  (attributes.find? fun a => a.name == name).map (·.value)

@[simp] theorem addTo_nil (a : Attribute) : addTo a [] = [a] := rfl

@[simp] theorem merge_nil : merge [] = [] := rfl

/-- Merging goes from left to right: the last attribute is added to what the others give. -/
theorem merge_concat (attributes : List Attribute) (a : Attribute) :
    merge (attributes ++ [a]) = addTo a (merge attributes) := by simp [merge]

/-- Adding an attribute adds its name at the end, unless the name is there already. -/
theorem map_name_addTo (a : Attribute) (attributes : List Attribute) :
    (addTo a attributes).map (·.name) =
      if a.name ∈ attributes.map (·.name) then attributes.map (·.name)
      else attributes.map (·.name) ++ [a.name] := by
  induction attributes with
  | nil => simp
  | cons e rest ih =>
    by_cases same : e.name = a.name
    · simp [addTo, same]
    · have differ : ¬ a.name = e.name := fun h => same h.symm
      simp only [addTo, same, if_false, List.map_cons, ih, List.mem_cons, differ, false_or]
      split <;> simp

end Attribute

end Shorthand
