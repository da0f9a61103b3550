import Mathlib.Tactic.SplitIfs
import Shorthand.Node.View
import Shorthand.Proofs.Text.Lines
import Shorthand.Proofs.Text.Quoted

/-! # Line feeds in the description of a node

The description of a node shows its name, its attributes, its text and its number, and it shows texts and attribute
values as they are. Where the names hold no line feed, the line feeds of the description are those of the text and of
the values.

* **`Content.lineFeeds`** — the number of line feeds in the text and in the attribute values of a node.
* `Content.count_describe` — the description has just these line feeds. -/

namespace Shorthand

/-- A number is written without line feeds, with or without a sign. -/
theorem Text.lineFeed_not_mem_ofInt (n : Int) : '\n' ∉ Text.ofInt n := by
  cases n with
  | ofNat n => exact Text.lineFeed_not_mem_ofNat n
  | negSucc n => exact List.not_mem_cons_of_ne_of_not_mem (by decide) (Text.lineFeed_not_mem_ofNat (n + 1))

namespace Content

variable {c : Content}

/-- The number of line feeds in the text and in the attribute values of a node. -/
def lineFeeds (c : Content) : Nat := c.text.count '\n' + (c.attributeList.map (·.value.count '\n')).sum

/-- Neither the name of a node nor that of an attribute holds a line feed. -/
structure HasPlainNames (c : Content) : Prop where
  /-- The name holds none. -/
  name : '\n' ∉ c.nameText
  /-- The names of the attributes hold none. -/
  attributes : ∀ a ∈ c.attributeList, '\n' ∉ a.name

/-- There are none exactly if none stands in the text or in an attribute value. -/
theorem lineFeeds_eq_zero_iff : c.lineFeeds = 0 ↔ '\n' ∉ c.text ∧ ∀ a ∈ c.attributeList, '\n' ∉ a.value := by
  have values : (c.attributeList.map (·.value.count '\n')).sum = 0 ↔ ∀ a ∈ c.attributeList, '\n' ∉ a.value := by
    rw [← Nat.le_zero, ← Nat.not_lt, List.sum_pos_iff_exists_pos_nat]
    simp [List.count_pos_iff]
  rw [lineFeeds, Nat.add_eq_zero_iff, List.count_eq_zero, values]

/-- The line feeds of a shown attribute are those of its value, if its name holds none. -/
theorem count_shownAttribute {a : Attribute} (plain : '\n' ∉ a.name) :
    (shownAttribute a).count '\n' = a.value.count '\n' := by
  have none := List.count_eq_zero.2 plain
  simp [shownAttribute, none]

/-- The shown name holds no line feed, if the name holds none. -/
theorem count_shownName (plain : '\n' ∉ c.nameText) : c.shownName.count '\n' = 0 := by
  refine List.count_eq_zero.2 ?_
  rw [shownName]
  split
  · split <;> decide
  · exact plain

/-- The line feeds of a description are those of the text and of the attribute values. -/
theorem count_describe (plain : c.HasPlainNames) (repeated : Bool) :
    (c.describe repeated).count '\n' = c.lineFeeds := by
  have name := count_shownName plain.name
  have number := List.count_eq_zero.2 (Text.lineFeed_not_mem_ofInt c.counter)
  have values : (Text.joined [' '] (c.attributeList.map shownAttribute)).count '\n' =
      (c.attributeList.map (·.value.count '\n')).sum := by
    rw [Text.count_joined (by decide), List.map_map]
    exact congrArg List.sum (List.map_congr_left fun a among => count_shownAttribute (plain.attributes a among))
  -- a part that is not shown has nothing to be counted
  have attributes : c.attributeList = [] → (c.attributeList.map (·.value.count '\n')).sum = 0 := fun none => by
    rw [none]
    rfl
  have text : c.text = [] → c.text.count '\n' = 0 := fun none => by
    rw [none]
    rfl
  rw [describe, Text.count_joined (by decide), lineFeeds]
  simp only [List.map_append, List.sum_append, List.map_singleton, List.sum_singleton, name]
  split_ifs <;> simp [*] <;> omega

end Content

end Shorthand
