import Shorthand.Text.Basic

/-! # Tables

A table assigns values to keys and remembers the order in which the keys came first. -/

namespace Shorthand

/-- A table with text keys, in the order of first assignment. -/
abbrev Table (α : Type) := List (Text × α)

namespace Table

variable {α : Type}

/-- The value of a key. -/
def find? (key : Text) : Table α → Option α
  | [] => none
  | (k, v) :: rest => if k = key then some v else find? key rest

/-- Assign a value to a key. A key that has a value keeps its place. -/
def put (key : Text) (value : α) : Table α → Table α
  | [] => [(key, value)]
  | (k, v) :: rest => if k = key then (k, value) :: rest else (k, v) :: put key value rest

/-- The table of a list of assignments, made from left to right. -/
def ofList (assignments : List (Text × α)) : Table α :=
  assignments.foldl (fun table a => put a.1 a.2 table) []

@[simp] theorem find?_nil (key : Text) : find? key ([] : Table α) = none := rfl

@[simp] theorem put_nil (key : Text) (value : α) : put key value [] = [(key, value)] := rfl

/-- A key has the value that was assigned to it last, and the other keys keep theirs. -/
theorem find?_put (key other : Text) (value : α) (table : Table α) :
    find? other (put key value table) = if other = key then some value else find? other table := by
  induction table with
  | nil => simp [find?, eq_comm]
  | cons entry rest ih =>
    obtain ⟨k, v⟩ := entry
    by_cases here : k = key
    · subst here
      by_cases same : k = other
      · simp [put, find?, same]
      · simp [put, find?, same, Ne.symm same]
    · by_cases same : k = other
      · subst same; simp [put, find?, here]
      · simp [put, find?, here, same, ih]

/-- Assigning to a key that is present leaves the number of keys. -/
theorem length_put (key : Text) (value : α) (table : Table α) :
    (put key value table).length =
      if (find? key table).isSome then table.length else table.length + 1 := by
  induction table with
  | nil => simp
  | cons entry rest ih =>
    obtain ⟨k, v⟩ := entry
    by_cases here : k = key
    · simp [put, find?, here]
    · simp only [put, find?, here, if_false, List.length_cons, ih]
      split <;> rfl

end Table

end Shorthand
