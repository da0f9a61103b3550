import Mathlib.Data.List.Induction
import Mathlib.Data.List.Nodup
import Shorthand.Node.Content

/-! # What merging leaves of attributes

Merging adds one attribute after the other to a list that names each of them once. In the end each name stands where it
stood first, and its value is decided by the values that the list gives to this name, whatever stands between them.

* **`Attribute.valuesOf`** — the values that a list gives to a name.
* **`Attribute.mergedValue`** — what is left of the values of a name.
* `Attribute.merge_eq` — merging as one map over the distinct names.
* `attributes_merged` — the merged list of any attributes, and that of a node with a resource. -/

namespace Shorthand

namespace Text

variable {separator t : Text} {texts : List Text}

/-- Joining texts the first of which is not empty gives a text that is not empty. -/
theorem joined_ne_nil (some : t ≠ []) : joined separator (t :: texts) ≠ [] := by
  cases texts with
  | nil => exact some
  | cons u rest =>
    rw [joined, List.append_assoc]
    exact List.append_ne_nil_of_left_ne_nil some _

/-- The last of several texts is joined to the others by the separator. -/
theorem joined_concat (several : texts ≠ []) (t : Text) :
    joined separator (texts ++ [t]) = joined separator texts ++ separator ++ t := by
  induction texts with
  | nil => exact absurd rfl several
  | cons u rest ih =>
    cases rest with
    | nil => rfl
    | cons v rest =>
      have others := ih (List.cons_ne_nil v rest)
      rw [List.cons_append] at others
      rw [List.cons_append, List.cons_append, joined, others, joined]
      simp only [List.append_assoc]

end Text

/-- The distinct items of a list with one more at its end are those before, and the last one if it is new. -/
theorem eraseDups_concat {α : Type} [BEq α] [LawfulBEq α] (items : List α) (a : α) :
    (items ++ [a]).eraseDups = if a ∈ items then items.eraseDups else items.eraseDups ++ [a] := by
  rw [List.eraseDups_append, List.removeAll]
  split
  · next known =>
    rw [List.filter_cons_of_neg (by simpa using known), List.filter_nil, List.eraseDups_nil, List.append_nil]
  · next new =>
    rw [List.filter_cons_of_pos (by simpa using new), List.filter_nil]
    rfl

namespace Attribute

variable {name : Text} {values : List Text} {attributes : List Attribute}

/-- An attribute is a class if the lower-case form of its name is that of a class. -/
theorem isClassName_iff : isClassName name = true ↔ name.lower = "class".toList := by
  rw [isClassName, beq_iff_eq]
  rfl

/-- The values that a list gives to a name, in order. -/
def valuesOf (name : Text) (attributes : List Attribute) : List Text :=
  (attributes.filter (·.name = name)).map (·.value)

/-- What is left of the values of a name: those of a class are joined by spaces from the first one on that is not empty,
and of others the last one is left. -/
def mergedValue (name : Text) (values : List Text) : Text :=
  if isClassName name then Text.joined [' '] (values.dropWhile (·.isEmpty)) else values.getLast?.getD []

/-! ## Values -/

@[simp] theorem valuesOf_append (name : Text) (first second : List Attribute) :
    valuesOf name (first ++ second) = valuesOf name first ++ valuesOf name second := by
  rw [valuesOf, List.filter_append, List.map_append, valuesOf, valuesOf]

theorem valuesOf_singleton (name : Text) (a : Attribute) :
    valuesOf name [a] = if a.name = name then [a.value] else [] := by
  by_cases same : a.name = name <;> simp [valuesOf, same]

/-- A name has a value exactly if it occurs. -/
theorem valuesOf_eq_nil_iff : valuesOf name attributes = [] ↔ name ∉ attributes.map (·.name) := by
  simp [valuesOf, List.filter_eq_nil_iff]

/-- A further value is merged into what is left of the values before it. -/
theorem mergedValue_concat (name : Text) (values : List Text) (value : Text) :
    mergedValue name (values ++ [value]) = mergeValue name (mergedValue name values) value := by
  unfold mergedValue mergeValue
  by_cases isClass : isClassName name
  · rw [if_pos isClass, if_pos isClass, if_pos isClass, List.dropWhile_append]
    cases kept : values.dropWhile (·.isEmpty) with
    | nil =>
      -- all values so far were empty
      rw [List.isEmpty_nil, if_pos rfl, Text.joined, if_pos rfl]
      cases value <;> rfl
    | cons first rest =>
      have notEmpty : first ≠ [] := by
        have head := List.head?_dropWhile_not (·.isEmpty) values
        rw [kept] at head
        simpa using head
      rw [if_neg (by simp), Text.joined_concat (by simp), if_neg (Text.joined_ne_nil notEmpty),
        List.append_assoc]
      rfl
  · rw [if_neg isClass, if_neg isClass, List.getLast?_concat]
    rfl

/-- A value that stands alone is left. -/
theorem mergedValue_singleton (name value : Text) : mergedValue name [value] = value := by
  unfold mergedValue
  split
  · cases value <;> rfl
  · rfl

/-! ## Adding one attribute -/

/-- Where all names are different, adding an attribute whose name is there changes the value of that name alone. -/
theorem addTo_eq_map (a : Attribute) (distinct : (attributes.map (·.name)).Nodup)
    (present : a.name ∈ attributes.map (·.name)) :
    addTo a attributes = attributes.map fun e =>
      if e.name = a.name then ⟨e.name, mergeValue e.name e.value a.value⟩ else e := by
  induction attributes with
  | nil => exact absurd present List.not_mem_nil
  | cons e rest ih =>
    rw [List.map_cons, List.nodup_cons] at distinct
    by_cases same : e.name = a.name
    · -- the name does not occur again
      have others : ∀ x ∈ rest, (if x.name = a.name then ⟨x.name, mergeValue x.name x.value a.value⟩ else x) = x :=
        fun x inside => if_neg fun again => distinct.1 (by
          rw [same, ← again]
          exact List.mem_map_of_mem inside)
      rw [addTo, if_pos same, List.map_cons, if_pos same, List.map_congr_left others, List.map_id']
    · rw [List.map_cons, List.mem_cons] at present
      rw [addTo, if_neg same, List.map_cons, if_neg same,
        ih distinct.2 (present.resolve_left fun here => same here.symm)]

/-- An attribute whose name is not there is added at the end. -/
theorem addTo_eq_concat (a : Attribute) (absent : a.name ∉ attributes.map (·.name)) :
    addTo a attributes = attributes ++ [a] := by
  induction attributes with
  | nil => rfl
  | cons e rest ih =>
    rw [List.map_cons, List.mem_cons, not_or] at absent
    rw [addTo, if_neg fun same => absent.1 same.symm, ih absent.2, List.cons_append]

/-! ## Merging -/

/-- The names of a merged list are the distinct names, in the order in which they come first. -/
theorem map_name_merge (attributes : List Attribute) :
    (merge attributes).map (·.name) = (attributes.map (·.name)).eraseDups := by
  induction attributes using List.reverseRecOn with
  | nil => rfl
  | append_singleton before a ih =>
    rw [merge_concat, map_name_addTo, ih, List.map_append, List.map_singleton, eraseDups_concat]
    by_cases known : a.name ∈ before.map (·.name)
    · rw [if_pos (List.mem_eraseDups.2 known), if_pos known]
    · rw [if_neg fun found => known (List.mem_eraseDups.1 found), if_neg known]

/-- No name occurs twice in a merged list. -/
theorem nodup_merge (attributes : List Attribute) : ((merge attributes).map (·.name)).Nodup := by
  induction attributes using List.reverseRecOn with
  | nil => exact List.nodup_nil
  | append_singleton before a ih =>
    rw [merge_concat, map_name_addTo]
    split
    · exact ih
    · next new =>
      rw [← List.concat_eq_append]
      exact ih.concat new

/-- Each attribute of a merged list has what is left of the values of its name. -/
theorem value_of_mem_merge {e : Attribute} (inside : e ∈ merge attributes) :
    e.value = mergedValue e.name (valuesOf e.name attributes) := by
  induction attributes using List.reverseRecOn generalizing e with
  | nil => exact absurd inside List.not_mem_nil
  | append_singleton before a ih =>
    rw [merge_concat] at inside
    rw [valuesOf_append, valuesOf_singleton]
    by_cases known : a.name ∈ (merge before).map (·.name)
    · rw [addTo_eq_map a (nodup_merge before) known] at inside
      obtain ⟨old, found, rfl⟩ := List.mem_map.1 inside
      by_cases same : old.name = a.name
      · rw [if_pos same]
        dsimp only
        rw [if_pos same.symm, mergedValue_concat, ← ih found]
      · rw [if_neg same, if_neg fun new => same new.symm, List.append_nil]
        exact ih found
    · rw [addTo_eq_concat a known, List.mem_append, List.mem_singleton] at inside
      rcases inside with old | rfl
      · have different : a.name ≠ e.name := fun same => known (same ▸ List.mem_map_of_mem old)
        rw [if_neg different, List.append_nil]
        exact ih old
      · have none : valuesOf e.name before = [] := by
          rw [valuesOf_eq_nil_iff, ← List.mem_eraseDups, ← map_name_merge]
          exact known
        rw [if_pos rfl, none, List.nil_append, mergedValue_singleton]

/-- Merging gives each distinct name, in the order in which the names come first, what is left of its values. -/
theorem merge_eq (attributes : List Attribute) :
    merge attributes =
      (attributes.map (·.name)).eraseDups.map fun name => ⟨name, mergedValue name (valuesOf name attributes)⟩ := by
  have values : ∀ e ∈ merge attributes,
      (⟨e.name, mergedValue e.name (valuesOf e.name attributes)⟩ : Attribute) = e := fun e inside => by
    rw [← value_of_mem_merge inside]
  rw [← map_name_merge, List.map_map]
  exact ((List.map_congr_left values).trans (List.map_id' _)).symm

/-- Where all names are different, the value of a name is that of its only attribute. -/
theorem valueOf?_eq_some_iff (distinct : (attributes.map (·.name)).Nodup) {value : Text} :
    valueOf? name attributes = some value ↔ ⟨name, value⟩ ∈ attributes := by
  induction attributes with
  | nil => simp [valueOf?]
  | cons e others ih =>
    rw [List.map_cons, List.nodup_cons] at distinct
    have rest := ih distinct.2
    rw [valueOf?] at rest ⊢
    by_cases same : e.name = name
    · -- the name does not occur again
      have absent : (⟨name, value⟩ : Attribute) ∉ others := fun inside => by
        refine distinct.1 (List.mem_map.2 ⟨_, inside, ?_⟩)
        exact same.symm
      rw [List.find?_cons_of_pos (by simp [same]), Option.map_some, Option.some_inj, List.mem_cons]
      constructor
      · rintro rfl
        exact .inl (by rw [← same])
      · rintro (rfl | later)
        · rfl
        · exact absurd later absent
    · have other : (⟨name, value⟩ : Attribute) ≠ e := fun here => same (here ▸ rfl)
      rw [List.find?_cons_of_neg (by simpa using same), rest, List.mem_cons, or_iff_right other]

/-- A name without an attribute has no value. -/
theorem valueOf?_eq_none_iff : valueOf? name attributes = none ↔ name ∉ attributes.map (·.name) := by
  simp [valueOf?]

/-- Merging leaves one attribute for each name, with the last value of the name or with all its class values. -/
theorem values_merge {e : Attribute} (inside : e ∈ merge attributes) :
    (e.name.lower ≠ "class".toList → (valuesOf e.name attributes).getLast? = some e.value) ∧
      (e.name.lower = "class".toList →
        e.value = Text.joined [' '] ((valuesOf e.name attributes).dropWhile (·.isEmpty))) := by
  have value := value_of_mem_merge inside
  have several : valuesOf e.name attributes ≠ [] := by
    rw [Ne, valuesOf_eq_nil_iff, not_not, ← List.mem_eraseDups, ← map_name_merge]
    exact List.mem_map_of_mem inside
  constructor
  · intro other
    rw [mergedValue, if_neg (isClassName_iff.not.2 other), List.getLast?_eq_some_getLast several] at value
    rw [List.getLast?_eq_some_getLast several, value]
    rfl
  · intro same
    rw [value, mergedValue, if_pos (isClassName_iff.2 same)]

end Attribute

namespace Content

variable {c : Content} {r : Resource}

/-- With a resource that stands for an element, its attributes are merged with those of the token. -/
theorem attributeList_of_resource (attached : c.resource = some r) (element : r.isElement = true) :
    c.attributeList = Attribute.merge (r.attributes ++ c.attributes) := by
  rw [attributeList, elementResource?, attached, Option.filter_some, if_pos element]
  rfl

/-- No name occurs twice among the attributes of a node. -/
theorem nodup_attributeList (c : Content) : (c.attributeList.map (·.name)).Nodup := Attribute.nodup_merge _

end Content

open Attribute in
/-- Merging any attributes gives their distinct names in the order in which they come first, once each, with the last
value of a name or with its class values joined from the first one on that is not empty. So a node with a resource that
stands for an element has the names of the resource and then those that only the token gave; the values of the token come
after those of the resource. The value of an attribute is that of the only one with its name. -/
theorem attributes_merged :
    (∀ attributes : List Attribute,
      (merge attributes).map (·.name) = (attributes.map (·.name)).eraseDups ∧
      ((merge attributes).map (·.name)).Nodup ∧
      ∀ e ∈ merge attributes,
        (e.name.lower ≠ "class".toList → (valuesOf e.name attributes).getLast? = some e.value) ∧
        (e.name.lower = "class".toList →
          e.value = Text.joined [' '] ((valuesOf e.name attributes).dropWhile (·.isEmpty)))) ∧
    (∀ (c : Content) (r : Resource), c.resource = some r → r.isElement = true →
      c.attributeList.map (·.name) = (r.attributes.map (·.name)).eraseDups ++
        ((c.attributes.map (·.name)).filter (· ∉ r.attributes.map (·.name))).eraseDups ∧
      ∀ e ∈ c.attributeList,
        (e.name.lower ≠ "class".toList →
          (valuesOf e.name c.attributes).getLast?.or (valuesOf e.name r.attributes).getLast? = some e.value) ∧
        (e.name.lower = "class".toList →
          e.value = Text.joined [' ']
            ((valuesOf e.name r.attributes ++ valuesOf e.name c.attributes).dropWhile (·.isEmpty)))) ∧
    ∀ (c : Content) (name : Text),
      (c.attributeList.map (·.name)).Nodup ∧
      (∀ value, c.attribute? name = some value ↔ ⟨name, value⟩ ∈ c.attributeList) ∧
      (c.attribute? name = none ↔ name ∉ c.attributeList.map (·.name)) := by
  refine ⟨fun attributes => ?_, fun c r attached element => ?_, fun c name => ?_⟩
  · exact ⟨map_name_merge attributes, nodup_merge attributes, fun e inside => values_merge inside⟩
  · rw [Content.attributeList_of_resource attached element]
    refine ⟨?_, fun e inside => ?_⟩
    · have new : ∀ names : List Text, names.removeAll (r.attributes.map (·.name)) =
          names.filter (· ∉ r.attributes.map (·.name)) := fun names =>
        List.filter_congr fun name _ => by rw [List.elem_eq_mem, decide_not]
      rw [map_name_merge, List.map_append, List.eraseDups_append, new]
    · have values := values_merge inside
      rw [valuesOf_append, List.getLast?_append] at values
      exact values
  · exact ⟨c.nodup_attributeList, fun value => valueOf?_eq_some_iff c.nodup_attributeList, valueOf?_eq_none_iff⟩

/-- A link whose resource brings a class after an empty one, and whose token replaces the target and adds a class. -/
theorem attributes_merged_link :
    let r : Resource :=
      ⟨"a".toList, [⟨"href".toList, []⟩, ⟨"class".toList, []⟩, ⟨"class".toList, "btn".toList⟩], Resource.elementKind⟩
    let c : Content :=
      { resource := some r
        attributes := [⟨"id".toList, "top".toList⟩, ⟨"class".toList, "big".toList⟩, ⟨"href".toList, ['#']⟩] }
    r.isElement = true ∧ c.attributeList.map (·.name) = ["href".toList, "class".toList, "id".toList] ∧
      c.attribute? "class".toList = some "btn big".toList ∧ c.attribute? "href".toList = some ['#'] := by
  intro r c
  have element : r.isElement = true := by decide
  have names := (attributes_merged.2.1 c r rfl element).1
  have value := fun name value => ((attributes_merged.2.2 c name).2.1 value).2
  have merged : c.attributeList =
      [⟨"href".toList, ['#']⟩, ⟨"class".toList, "btn big".toList⟩, ⟨"id".toList, "top".toList⟩] := by cbv
  exact ⟨element, names.trans (by cbv), value _ _ (by simp [merged]), value _ _ (by simp [merged])⟩

end Shorthand
