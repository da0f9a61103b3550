import Shorthand.Proofs.Attribute.Merge
import Shorthand.Resolver

/-! # What a resolver has registered

A resolver is filled by a table and by registrations after it. Keys that differ in case alone are one key, so that of
all that was registered under a name the last one counts, and the names are counted without regard to case.

* **`Resolver.registerAll`** — register resources one after the other.
* `Resolver.lookup_registerAll` — the resource of a name is the one that was registered last.
* `Resolver.size_registerAll` — each name counts once. -/

namespace Shorthand.Resolver

/-- Register resources under their keys, one after the other. -/
def registerAll (r : Resolver) (calls : List (Text × Resource)) : Resolver :=
  calls.foldl (fun r call => r.register call.1 call.2) r

/-- A table is registered entry by entry. -/
theorem ofTable_eq_registerAll (table : Table Resource) : ofTable table = registerAll {} table := rfl

theorem registerAll_append (r : Resolver) (before after : List (Text × Resource)) :
    r.registerAll (before ++ after) = (r.registerAll before).registerAll after :=
  List.foldl_append

/-- Under a key in lower case stands what was registered last under a key with that lower-case form. -/
theorem find?_registerAll (calls : List (Text × Resource)) (key : Text) :
    Table.find? key (registerAll {} calls).entries =
      (calls.reverse.find? fun call => call.1.lower = key).map (·.2) := by
  induction calls using List.reverseRecOn with
  | nil => rfl
  | append_singleton before last ih =>
    rw [registerAll_append, List.reverse_append, List.reverse_singleton, List.singleton_append, List.find?_cons]
    show Table.find? key (Table.put last.1.lower last.2 (registerAll {} before).entries) = _
    rw [Table.find?_put, ih]
    by_cases same : key = last.1.lower
    · rw [if_pos same, decide_eq_true same.symm]
      rfl
    · rw [if_neg same, decide_eq_false (Ne.symm same)]

/-- The resource of a name is the one that was registered last under it, whatever the case. -/
theorem lookup_registerAll (calls : List (Text × Resource)) {name : Text} (named : name ≠ []) :
    (registerAll {} calls).lookup (some name) =
      (calls.reverse.find? fun call => call.1.lower = name.lower).map (·.2) := by
  rw [lookup, if_neg named, find?_registerAll]

/-- Something is registered under a key exactly if a key with that lower-case form was given. -/
theorem isSome_find?_registerAll (calls : List (Text × Resource)) (key : Text) :
    (Table.find? key (registerAll {} calls).entries).isSome ↔ key ∈ calls.map fun call => call.1.lower := by
  rw [find?_registerAll, Option.isSome_map, List.find?_isSome]
  simp

/-- Names that differ in case alone count once. -/
theorem size_registerAll (calls : List (Text × Resource)) :
    (registerAll {} calls).size = (calls.map fun call => call.1.lower).eraseDups.length := by
  induction calls using List.reverseRecOn with
  | nil => rfl
  | append_singleton before last ih =>
    rw [registerAll_append, List.map_append, List.map_singleton, eraseDups_concat]
    show (Table.put last.1.lower last.2 (registerAll {} before).entries).length = _
    rw [Table.length_put]
    by_cases known : last.1.lower ∈ before.map fun call => call.1.lower
    · rw [if_pos known, if_pos ((isSome_find?_registerAll before _).2 known)]
      exact ih
    · rw [if_neg known, if_neg (mt (isSome_find?_registerAll before _).1 known), List.length_append]
      exact congrArg (· + 1) ih

end Shorthand.Resolver
