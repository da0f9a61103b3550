import Shorthand.Proofs.Cursor.Basic

/-! # Loops over a text

A loop scans a text with a cursor. An iteration raises a fault, stops, or finds something and goes on with a cursor of
the same text that stands further on; before and after it the beginning of the span and the position are in order,
inside of the text. So a loop comes to its end by itself, after no more iterations than there are characters ahead.

* **`Cursor.IsOrdered`** — the beginning of the span and the position are in order.
* **`Loop`** — a loop whose iterations advance.
* **`Loop.run`** — all that a loop finds, and how it ends.
* **`Loop.Progresses`** — a loop advances and comes to its end.
* `Loop.length_run_le` — the number of iterations.
* **`Iteration.Computes`** — a value is what an iteration amounts to.
* `Loop.eq_fold`, `Loop.eq_ending` — a function that is what each iteration amounts to is what the loop amounts to. -/

namespace Shorthand

namespace Cursor

/-- The beginning of the span and the position stand in this order, inside of the text. -/
structure IsOrdered (c : Cursor) : Prop where
  /-- The span begins inside of the text. -/
  start_nonneg : 0 ≤ c.start
  /-- It begins no later than at the position. -/
  start_le : c.start ≤ c.pos
  /-- The position is not beyond the end. -/
  pos_le : c.pos ≤ c.text.length

/-- A cursor of the same text that is in order and stands further on. -/
structure Advances (c next : Cursor) : Prop where
  /-- The text is the same. -/
  text_eq : next.text = c.text
  /-- The cursor is in order. -/
  ordered : next.IsOrdered
  /-- The position is a later one. -/
  pos_lt : c.pos < next.pos

variable {c next : Cursor}

/-- The position is not negative. -/
theorem IsOrdered.placed (ordered : c.IsOrdered) : 0 ≤ c.pos := Int.le_trans ordered.start_nonneg ordered.start_le

/-- A cursor at the beginning of a text is in order. -/
theorem isOrdered_ofText (t : Text) : (ofText t).IsOrdered :=
  ⟨Int.le_refl 0, Int.le_refl 0, Int.natCast_nonneg t.length⟩

/-- Beginning a span keeps the order. -/
theorem IsOrdered.mark (ordered : c.IsOrdered) : c.mark.IsOrdered := ⟨ordered.placed, Int.le_refl _, ordered.pos_le⟩

/-- Moving past characters that are ahead keeps the order. -/
theorem IsOrdered.advance (ordered : c.IsOrdered) {n : Nat} (enough : n ≤ c.upcoming.length) :
    (c.advance n).IsOrdered := by
  obtain ⟨start_nonneg, start_le, pos_le⟩ := ordered
  have ahead := length_upcoming (c := c) (by omega)
  refine ⟨start_nonneg, ?_, ?_⟩
  · rw [advance_start, advance_pos]
    omega
  · rw [advance_pos, advance_text]
    omega

/-- Moving past some characters that are ahead is to advance. -/
theorem IsOrdered.advances (ordered : c.IsOrdered) {n : Nat} (some : 0 < n) (enough : n ≤ c.upcoming.length) :
    c.Advances (c.advance n) :=
  ⟨rfl, ordered.advance enough, by rw [advance_pos]; omega⟩

/-- The characters that are ahead can be passed over. -/
theorem IsOrdered.advances_of_ahead (ordered : c.IsOrdered) {passed rest : Text} (ahead : c.upcoming = passed ++ rest)
    (some : passed ≠ []) : c.Advances (c.advance passed.length) := by
  refine ordered.advances (List.length_pos_iff.2 some) ?_
  rw [ahead, List.length_append]
  exact Nat.le_add_right ..

/-- The length of what is ahead tells the position. -/
theorem IsOrdered.size_sub_length (ordered : c.IsOrdered) {t : Text} (ahead : c.upcoming = t) :
    c.text.length - t.length = c.pos.toNat := by
  have length := length_upcoming ordered.placed
  have inside := ordered.pos_le
  rw [ahead] at length
  omega

/-- A span may be begun before the cursor advances. -/
theorem Advances.of_mark (advances : c.mark.Advances next) : c.Advances next :=
  ⟨advances.text_eq, advances.ordered, advances.pos_lt⟩

/-- A span may be begun where the cursor has advanced to. -/
theorem Advances.mark (advances : c.Advances next) : c.Advances next.mark :=
  ⟨advances.text_eq, advances.ordered.mark, advances.pos_lt⟩

/-- After advancing, more characters may be passed over. -/
theorem Advances.advance (advances : c.Advances next) {n : Nat} (enough : n ≤ next.upcoming.length) :
    c.Advances (next.advance n) := by
  refine ⟨advances.text_eq, advances.ordered.advance enough, ?_⟩
  have further := advances.pos_lt
  rw [advance_pos]
  omega

/-- After advancing there is less ahead. -/
theorem Advances.length_lt (advances : c.Advances next) (ordered : c.IsOrdered) :
    next.upcoming.length < c.upcoming.length := by
  obtain ⟨same, inside, further⟩ := advances
  have some := inside.pos_le
  have placed := ordered.placed
  rw [length_upcoming inside.placed, length_upcoming placed, same]
  rw [same] at some
  omega

/-- Advancing is transitive. -/
theorem Advances.trans {last : Cursor} (first : c.Advances next) (second : next.Advances last) : c.Advances last :=
  ⟨second.text_eq.trans first.text_eq, second.ordered, Int.lt_trans first.pos_lt second.pos_lt⟩

end Cursor

/-- What comes of an iteration of a loop. -/
inductive Iteration (ε β α : Type) where
  /-- A fault is raised. -/
  | raises (fault : ε)
  /-- The loop stops with a result. -/
  | stops (result : β)
  /-- Something is found, and the loop goes on. -/
  | goesOn (found : α) (next : Cursor)

/-- A loop over a text whose iterations advance. -/
structure Loop (ε β α : Type) where
  /-- An iteration, which begins with a cursor that is in order. -/
  step (c : Cursor) (ordered : c.IsOrdered) : Iteration ε β α
  /-- If the loop goes on, then the cursor has advanced. -/
  advances {c : Cursor} {ordered : c.IsOrdered} {found : α} {next : Cursor} :
    step c ordered = .goesOn found next → c.Advances next

/-- What comes of a loop: what it has found, and its result or the fault that ended it. -/
structure Loop.Trace (ε β α : Type) where
  /-- What the iterations have found, in order. -/
  found : List α
  /-- The result, or a fault. -/
  ending : Except ε β

variable {ε β α γ : Type}

/-- A value is what the iteration amounts to: what becomes of the fault or the result, or of the finding and of the
value that the rest has, which begins at the next cursor; the cursor has advanced. -/
def Iteration.Computes (value : γ) (rest : Cursor → γ) (raised : ε → γ) (stopped : β → γ) (add : α → γ → γ)
    (c : Cursor) : Iteration ε β α → Prop
  | raises fault => value = raised fault
  | stops result => value = stopped result
  | goesOn found next => c.Advances next ∧ value = add found (rest next)

/-- What a loop amounts to, given what becomes of faults and results and how a finding is added to the rest. -/
def Loop.Trace.fold (raised : ε → γ) (stopped : β → γ) (add : α → γ → γ) (t : Loop.Trace ε β α) : γ :=
  t.found.foldr add (match t.ending with
    | .error fault => raised fault
    | .ok result => stopped result)

namespace Loop

variable {l : Loop ε β α} {c next : Cursor} {ordered : c.IsOrdered} {found : α}

/-- Run a loop to its end. -/
def run (l : Loop ε β α) (c : Cursor) (ordered : c.IsOrdered) : Trace ε β α :=
  match _ : l.step c ordered with
  | .raises fault => ⟨[], .error fault⟩
  | .stops result => ⟨[], .ok result⟩
  | .goesOn found next =>
    let rest := run l next (l.advances (by assumption)).ordered
    ⟨found :: rest.found, rest.ending⟩
termination_by c.upcoming.length
decreasing_by exact (l.advances (by assumption)).length_lt ordered

/-- There are no more iterations than characters ahead. -/
theorem length_run_le (l : Loop ε β α) (c : Cursor) (ordered : c.IsOrdered) :
    (l.run c ordered).found.length ≤ c.upcoming.length := by
  fun_induction run l c ordered with
  | case1 | case2 => exact Nat.zero_le _
  | case3 c ordered found next goesOn rest ih => exact Nat.lt_of_le_of_lt ih ((l.advances goesOn).length_lt ordered)

/-- A loop makes progress: wherever it goes on, the cursor has advanced, and it comes to its end after no more
iterations than there are characters ahead. -/
def Progresses (l : Loop ε β α) : Prop :=
  ∀ c ordered, (∀ found next, l.step c ordered = .goesOn found next → c.Advances next) ∧
    (l.run c ordered).found.length ≤ c.upcoming.length

/-- Every loop does. -/
theorem progresses (l : Loop ε β α) : l.Progresses :=
  fun c ordered => ⟨fun _ _ => l.advances, l.length_run_le c ordered⟩

/-- A function that is given a number of steps is what a loop amounts to if it is what each iteration amounts to, where
one step less is left for the rest. As many steps are enough as there are characters ahead. -/
theorem eq_fold_of_le {F : Nat → Cursor → γ} {raised : ε → γ} {stopped : β → γ} {add : α → γ → γ} (l : Loop ε β α)
    (computes : ∀ (steps : Nat) c ordered, c.upcoming.length ≤ steps →
      (l.step c ordered).Computes (F steps c) (F (steps - 1)) raised stopped add c)
    (steps : Nat) (c : Cursor) (ordered : c.IsOrdered) (enough : c.upcoming.length ≤ steps) :
    F steps c = (l.run c ordered).fold raised stopped add := by
  fun_induction run l c ordered generalizing steps with
  | case1 c ordered fault raises =>
    have amounts := computes steps c ordered enough
    rwa [raises] at amounts
  | case2 c ordered result stops =>
    have amounts := computes steps c ordered enough
    rwa [stops] at amounts
  | case3 c ordered found next goesOn rest ih =>
    have amounts := computes steps c ordered enough
    rw [goesOn] at amounts
    have left : next.upcoming.length ≤ steps - 1 :=
      Nat.le_pred_of_lt (Nat.lt_of_lt_of_le ((l.advances goesOn).length_lt ordered) enough)
    rw [amounts.2, ih (steps - 1) left]
    rfl

/-- A function is what a loop amounts to if it is what each iteration amounts to. -/
theorem eq_fold {F : Cursor → γ} {raised : ε → γ} {stopped : β → γ} {add : α → γ → γ} (l : Loop ε β α)
    (computes : ∀ c ordered, (l.step c ordered).Computes (F c) F raised stopped add c) (c : Cursor)
    (ordered : c.IsOrdered) : F c = (l.run c ordered).fold raised stopped add :=
  l.eq_fold_of_le (fun _ c ordered _ => computes c ordered) c.upcoming.length c ordered (Nat.le_refl _)

/-- The same for a function that depends only on how a loop ends. -/
theorem eq_ending {F : Cursor → Except ε β} (l : Loop ε β α)
    (computes : ∀ c ordered, (l.step c ordered).Computes (F c) F .error .ok (fun _ rest => rest) c)
    (c : Cursor) (ordered : c.IsOrdered) : F c = (l.run c ordered).ending := by
  have last : ∀ found : List α, ∀ ending : Except ε β, found.foldr (fun _ rest => rest) ending = ending := by
    intro found ending
    induction found with
    | nil => rfl
    | cons _ found ih => exact ih
  rw [l.eq_fold computes c ordered, Trace.fold, last]
  cases (l.run c ordered).ending <;> rfl

end Loop

end Shorthand
