/-! # Places in a sequence

A position in a sequence of `n` items is an integer. A negative position counts from the end, and a position
beyond either end is brought back to that end.

* **`place n i`** — the place that a position names.
* **`insertAt position x items`** — the items with one more at a position, or at the end. -/

namespace Shorthand

/-- The place that position `i` names in a sequence of `n` items. -/
def place (n : Nat) (i : Int) : Nat := if i < 0 then (i + n).toNat else min i.toNat n

/-- Insert an item at a position, or at the end if there is none. -/
def insertAt {α : Type} (position : Option Int) (x : α) (items : List α) : List α :=
  match position with
  | none => items ++ [x]
  | some i => items.take (place items.length i) ++ x :: items.drop (place items.length i)

@[simp] theorem place_zero (n : Nat) : place n 0 = 0 := by simp [place]

/-- A place is never beyond the end. -/
theorem place_le (n : Nat) (i : Int) : place n i ≤ n := by
  unfold place; split <;> omega

/-- Positions inside of the sequence name themselves. -/
theorem place_natCast {n k : Nat} (h : k ≤ n) : place n (k : Int) = k := by
  unfold place; split <;> omega

@[simp] theorem insertAt_none {α : Type} (x : α) (items : List α) :
    insertAt none x items = items ++ [x] := rfl

/-- Inserting after the first items puts the item between them and the others. -/
theorem insertAt_length {α : Type} (x : α) (before after : List α) :
    insertAt (some before.length) x (before ++ after) = before ++ x :: after := by
  have inside : before.length ≤ (before ++ after).length := by
    rw [List.length_append]
    exact Nat.le_add_right ..
  rw [insertAt, place_natCast inside, List.take_left, List.drop_left]

/-- Inserting adds the item and keeps the others. -/
theorem insertAt_perm {α : Type} (position : Option Int) (x : α) (items : List α) :
    (insertAt position x items).Perm (x :: items) := by
  cases position with
  | none => exact List.perm_append_comm
  | some i =>
    have split := List.take_append_drop (place items.length i) items
    exact List.perm_middle.trans (by rw [split])

end Shorthand
