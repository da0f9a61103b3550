import Mathlib
import Shorthand.Proofs.Attribute.Merge
import Shorthand.Proofs.Reading.Scan
import Shorthand.Proofs.Token

/-! # Merging in stages

A list of attributes may be merged part by part. The first part may always be merged before the rest is added, for merging
goes from left to right. A later part may be merged on its own if it gives a class no empty value: merged on its own, the
part drops the empty values that stand before its first class, and in the whole they would leave a space each.

* `Attribute.merge_of_nodup` — merging leaves a list alone that names each attribute once.
* `Attribute.mergedValue_append` — values may be merged part by part.
* **`Token.AttributesWritten`** — the attributes that the markers of a token give, before they are merged.
* `merge_in_stages` — both parts of a list, and the attributes of a node with a resource. -/

namespace Shorthand

/-- The distinct items of two lists do not depend on whether an item occurs several times in the second. -/
theorem eraseDups_append_eraseDups {α : Type} [BEq α] [LawfulBEq α] (first second : List α) :
    (first ++ second.eraseDups).eraseDups = (first ++ second).eraseDups := by
  induction second using List.reverseRecOn with
  | nil => rfl
  | append_singleton before a ih =>
    rw [eraseDups_concat, ← List.append_assoc, eraseDups_concat]
    by_cases known : a ∈ before
    · rw [if_pos known, if_pos (List.mem_append_right first known), ih]
    · rw [if_neg known, ← List.append_assoc, eraseDups_concat, ih]
      simp [known]

namespace Attribute

variable {name : Text} {a b : List Attribute}

/-! ## Values -/

/-- Of a value, one that is not empty and one after it, the first two or the last two may be merged first. -/
theorem mergeValue_assoc {second : Text} (full : isClassName name = true → second ≠ []) (first third : Text) :
    mergeValue name first (mergeValue name second third) = mergeValue name (mergeValue name first second) third := by
  unfold mergeValue
  by_cases isClass : isClassName name = true
  · simp only [if_pos isClass, if_neg (full isClass)]
    by_cases empty : first = []
    · rw [if_pos empty, if_pos empty, if_neg (full isClass)]
    · rw [if_neg empty, if_neg empty, if_neg (List.append_ne_nil_of_left_ne_nil empty _), List.append_assoc,
        List.cons_append]
  · simp only [if_neg isClass]

/-- Values none of which is an empty class leave no empty class. -/
theorem mergedValue_ne_nil {values : List Text} (several : values ≠ []) (isClass : isClassName name = true)
    (full : ∀ value ∈ values, value ≠ []) : mergedValue name values ≠ [] := by
  cases values with
  | nil => exact absurd rfl several
  | cons value rest =>
    have first := full value List.mem_cons_self
    rw [mergedValue, if_pos isClass, List.dropWhile_cons_of_neg (by simpa using first)]
    exact Text.joined_ne_nil first

/-- Values that stand last may be merged on their own, unless one of them is an empty class. -/
theorem mergedValue_append {later : List Text} (several : later ≠ [])
    (full : isClassName name = true → ∀ value ∈ later, value ≠ []) (earlier : List Text) :
    mergedValue name (earlier ++ [mergedValue name later]) = mergedValue name (earlier ++ later) := by
  induction later using List.reverseRecOn with
  | nil => exact absurd rfl several
  | append_singleton before value ih =>
    by_cases alone : before = []
    · rw [alone, List.nil_append, mergedValue_singleton]
    · have fullBefore : isClassName name = true → ∀ value ∈ before, value ≠ [] := fun isClass value inside =>
        full isClass value (List.mem_append_left _ inside)
      have some : isClassName name = true → mergedValue name before ≠ [] := fun isClass =>
        mergedValue_ne_nil alone isClass (fullBefore isClass)
      calc mergedValue name (earlier ++ [mergedValue name (before ++ [value])])
        _ = mergeValue name (mergedValue name earlier) (mergeValue name (mergedValue name before) value) := by
          rw [mergedValue_concat, mergedValue_concat]
        _ = mergeValue name (mergedValue name (earlier ++ [mergedValue name before])) value := by
          rw [mergeValue_assoc some, mergedValue_concat]
        _ = mergedValue name (earlier ++ (before ++ [value])) := by
          rw [ih alone fullBefore, ← List.append_assoc, mergedValue_concat]

/-! ## Lists -/

/-- Lists with the same distinct names, to which they leave the same values, merge to the same. -/
theorem merge_congr (names : (a.map (·.name)).eraseDups = (b.map (·.name)).eraseDups)
    (values : ∀ name, mergedValue name (valuesOf name a) = mergedValue name (valuesOf name b)) :
    merge a = merge b := by
  rw [merge_eq, merge_eq, names]
  exact List.map_congr_left fun name _ => by rw [values]

/-- Merging leaves a list alone that names each attribute once. -/
theorem merge_of_nodup (distinct : (a.map (·.name)).Nodup) : merge a = a := by
  induction a using List.reverseRecOn with
  | nil => rfl
  | append_singleton before e ih =>
    rw [List.map_append, List.map_singleton, List.nodup_append] at distinct
    obtain ⟨distinctBefore, -, apart⟩ := distinct
    rw [merge_concat, ih distinctBefore]
    exact addTo_eq_concat e fun known => apart e.name known e.name List.mem_cons_self rfl

/-- Merging what is merged changes nothing. -/
theorem merge_merge (a : List Attribute) : merge (merge a) = merge a := merge_of_nodup (nodup_merge a)

/-- The first part of a list may be merged before the rest. -/
theorem merge_append_left (a b : List Attribute) : merge (merge a ++ b) = merge (a ++ b) := by
  have onward : ∀ first : List Attribute, merge (first ++ b) = b.foldl (fun merged e => addTo e merged) (merge first) :=
    fun first => List.foldl_append
  rw [onward, onward, merge_merge]

/-- A list gives a name as many values as the name occurs. -/
theorem length_valuesOf (name : Text) (a : List Attribute) :
    (valuesOf name a).length = (a.map (·.name)).count name := by
  rw [valuesOf, List.length_map, ← List.countP_eq_length_filter, List.count, List.countP_map]
  exact List.countP_congr fun e _ => by simp

/-- A merged list gives each of its names what is left of the values of the name. -/
theorem valuesOf_merge (occurs : name ∈ a.map (·.name)) :
    valuesOf name (merge a) = [mergedValue name (valuesOf name a)] := by
  have once : ((merge a).map (·.name)).count name = 1 := by
    refine List.count_eq_one_of_mem (nodup_merge a) ?_
    rwa [map_name_merge, List.mem_eraseDups]
  obtain ⟨value, alone⟩ := List.length_eq_one_iff.1 ((length_valuesOf name (merge a)).trans once)
  have inside : value ∈ valuesOf name (merge a) := by rw [alone]; exact List.mem_cons_self
  obtain ⟨e, found, rfl⟩ := List.mem_map.1 inside
  obtain ⟨member, same⟩ := List.mem_filter.1 found
  obtain rfl : e.name = name := by simpa using same
  rw [alone, value_of_mem_merge member]

/-- The last part of a list may be merged on its own if it gives a class no empty value. -/
theorem merge_append_right (full : ∀ e ∈ b, isClassName e.name = true → e.value ≠ []) (a : List Attribute) :
    merge (a ++ merge b) = merge (a ++ b) := by
  refine merge_congr ?_ fun name => ?_
  · rw [List.map_append, List.map_append, map_name_merge, eraseDups_append_eraseDups]
  · rw [valuesOf_append, valuesOf_append]
    by_cases occurs : name ∈ b.map (·.name)
    · have fullValues : isClassName name = true → ∀ value ∈ valuesOf name b, value ≠ [] := by
        intro isClass value inside
        obtain ⟨e, found, rfl⟩ := List.mem_map.1 inside
        obtain ⟨member, same⟩ := List.mem_filter.1 found
        obtain rfl : e.name = name := by simpa using same
        exact full e member isClass
      rw [valuesOf_merge occurs]
      exact mergedValue_append (valuesOf_eq_nil_iff.not.2 (not_not.2 occurs)) fullValues _
    · have none : valuesOf name b = [] := valuesOf_eq_nil_iff.2 occurs
      have noneMerged : valuesOf name (merge b) = [] := by
        rw [valuesOf_eq_nil_iff, map_name_merge, List.mem_eraseDups]
        exact occurs
      rw [none, noneMerged]

end Attribute

namespace Token

variable {source : Text} {said : Token} {written : List Attribute}

/-- The attributes that the markers of a token give, in order and before they are merged. -/
def AttributesWritten (source : Text) (attributes : List Attribute) : Prop :=
  ∃ t multiplier split, Multiplier.cut source = .ok (t, multiplier) ∧ splitText t.length t = .ok split ∧
    marks (element t split).length (element t split) = .ok attributes

/-- There is one list of them. -/
theorem AttributesWritten.unique {other : List Attribute} (first : AttributesWritten source written)
    (second : AttributesWritten source other) : written = other := by
  obtain ⟨t, multiplier, split, cut, found, marks⟩ := first
  obtain ⟨t', multiplier', split', cut', found', marks'⟩ := second
  rw [cut] at cut'
  cases cut'
  rw [found] at found'
  cases found'
  rw [marks] at marks'
  exact Except.ok.inj marks'

/-- A token that is read without a fault says its attributes merged, if it has some. -/
theorem exists_attributesWritten (read : Token.read source = (said, none)) :
    ∃ written, AttributesWritten source written ∧
      said.attributes = if written = [] then none else some (Attribute.merge written) := by
  obtain ⟨t, multiplier, split, marked, name, cut, parts, rfl⟩ := read_eq_iff.1 read
  obtain ⟨written, found, rfl⟩ := exists_of_map_eq_ok parts.marked_eq
  refine ⟨written, ⟨t, multiplier, split, cut, parts.split_eq, found⟩, ?_⟩
  dsimp only
  split <;> rfl

end Token

/-- The attributes of a node to which a token is assigned are those of its resource and those that the token gives, merged,
if the token gives some or the node had none. -/
theorem Content.attributeList_assign {c : Content} {said : Token} {written : List Attribute}
    (merged : said.attributes = if written = [] then none else some (Attribute.merge written))
    (fresh : c.attributes = [] ∨ written ≠ []) :
    (c.assign said).attributeList =
      Attribute.merge ((c.elementResource?.map (·.attributes)).getD [] ++ Attribute.merge written) := by
  have resource : (c.assign said).elementResource? = c.elementResource? := by
    cases multiplier : said.multiplier <;> simp [Content.assign, Content.repeatBy, Content.elementResource?, multiplier]
  have attributes : (c.assign said).attributes = Attribute.merge written := by
    have assigned : (c.assign said).attributes = said.attributes.getD c.attributes := rfl
    rw [assigned, merged]
    split
    · next none =>
      rw [none]
      exact fresh.resolve_right fun some => some none
    · rfl
  rw [Content.attributeList, resource, attributes]

open Attribute in
/-- Merging in stages gives the same as merging at once. What is merged already is left as it is; the first part of a list
may be merged before the rest; and so may the last part, if it gives a class no empty value. So a node that is given a
token without an empty class has the attributes of its resource and those that the token writes, merged at once. -/
theorem merge_in_stages :
    (∀ a : List Attribute, merge (merge a) = merge a) ∧
    (∀ a b : List Attribute, merge (merge a ++ b) = merge (a ++ b)) ∧
    (∀ a b : List Attribute, (∀ e ∈ b, e.name.lower = "class".toList → e.value ≠ []) →
      merge (a ++ merge b) = merge (a ++ b)) ∧
    ∀ (source : Text) (said : Token), Token.read source = (said, none) →
      ∃ written, Token.AttributesWritten source written ∧
        ((∀ e ∈ written, e.name.lower = "class".toList → e.value ≠ []) →
          ∀ c : Content, c.attributes = [] ∨ written ≠ [] →
            (c.assign said).attributeList =
              merge ((c.elementResource?.map (·.attributes)).getD [] ++ written)) := by
  refine ⟨merge_merge, merge_append_left, fun a b full => ?_, fun source said read => ?_⟩
  · exact merge_append_right (fun e inside isClass => full e inside (isClassName_iff.1 isClass)) a
  · obtain ⟨written, isWritten, merged⟩ := Token.exists_attributesWritten read
    refine ⟨written, isWritten, fun full c fresh => ?_⟩
    rw [Content.attributeList_assign merged fresh]
    exact merge_append_right (fun e inside isClass => full e inside (isClassName_iff.1 isClass)) _

/-- A link whose resource has a class, and a token with two classes and two identifiers. The values of the token may be
merged first; with an empty class in front of them they may not. -/
theorem merge_in_stages_link :
    let own : List Attribute := [⟨"class".toList, "btn".toList⟩]
    let written : List Attribute := [⟨"class".toList, "x".toList⟩, ⟨"id".toList, "y".toList⟩,
      ⟨"class".toList, "z".toList⟩, ⟨"id".toList, "w".toList⟩]
    let c : Content := { resource := some ⟨"a".toList, own, Resource.elementKind⟩ }
    let said := (Token.read "link.x#y.z#w*2".toList).1
    Token.AttributesWritten "link.x#y.z#w*2".toList written ∧
      Attribute.merge (own ++ Attribute.merge written) = Attribute.merge (own ++ written) ∧
      (c.assign said).attributeList = Attribute.merge (own ++ written) ∧
      Attribute.merge (own ++ written) = [⟨"class".toList, "btn x z".toList⟩, ⟨"id".toList, "w".toList⟩] ∧
      Attribute.merge (own ++ Attribute.merge (⟨"class".toList, []⟩ :: written)) ≠
        Attribute.merge (own ++ ⟨"class".toList, []⟩ :: written) := by
  intro own written c said
  have noFault : (Token.read "link.x#y.z#w*2".toList).2 = none := by cbv
  have read : Token.read "link.x#y.z#w*2".toList = (said, none) := Prod.ext rfl noFault
  have isWritten : Token.AttributesWritten "link.x#y.z#w*2".toList written :=
    ⟨"link.x#y.z#w".toList, .times 2, none, by cbv, by cbv, by cbv⟩
  have full : ∀ e ∈ written, e.name.lower = "class".toList → e.value ≠ [] := by
    intro e inside _
    simp only [written, List.mem_cons, List.not_mem_nil, or_false] at inside
    rcases inside with rfl | rfl | rfl | rfl <;> decide
  obtain ⟨found, isFound, atOnce⟩ := merge_in_stages.2.2.2 _ _ read
  obtain rfl := isWritten.unique isFound
  exact ⟨isWritten, merge_in_stages.2.2.1 own written full, atOnce full c (.inl rfl), by cbv, by decide⟩

end Shorthand
