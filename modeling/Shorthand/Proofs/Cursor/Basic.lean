import Mathlib.Data.List.TakeWhile
import Shorthand.Cursor.Basic

/-! # The characters ahead of a cursor

From a position that is not negative the rest of the text is ahead, and the operations of a cursor are described by the
characters that they find there. A position may be beyond the end, where no characters are ahead.

* `Cursor.upcoming_eq`, `Cursor.upcoming_advance` — the characters ahead, and those that are left further on.
* `Cursor.slice_pos` — the characters between the position and a later one.
* `Pattern.matchAt_isPrefix` — what a pattern matches stands at the place where it is looked for. -/

namespace Shorthand

/-- The characters from a place on. -/
theorem Text.slice_add (t : Text) {p : Int} (placed : 0 ≤ p) (n : Nat) :
    t.slice p (p + n) = (t.drop p.toNat).take n := by
  have first : place t.length p = min p.toNat t.length := if_neg (Int.not_lt.2 placed)
  have last : place t.length (p + n) = min (p.toNat + n) t.length := by
    rw [place, if_neg (by omega)]
    omega
  rw [Text.slice, first, last, ← List.take_eq_take_min, List.drop_take]
  by_cases inside : p.toNat ≤ t.length
  · rw [Nat.min_eq_left inside, Nat.add_sub_cancel_left]
  · have beyond : t.length ≤ p.toNat := by omega
    rw [Nat.min_eq_right beyond, List.drop_length, List.drop_eq_nil_of_le beyond, List.take_nil, List.take_nil]

namespace Cursor

variable {c : Cursor}

/-- From a position that is not negative, the rest of the text is ahead. -/
theorem upcoming_eq (placed : 0 ≤ c.pos) : c.upcoming = c.text.drop c.pos.toNat := by
  rw [upcoming, if_pos placed]

/-- There are as many characters ahead as the position is before the end. -/
theorem length_upcoming (placed : 0 ≤ c.pos) : c.upcoming.length = c.text.length - c.pos.toNat := by
  rw [upcoming_eq placed, List.length_drop]

/-- The first characters ahead stand between the position and a later one. -/
theorem slice_pos (placed : 0 ≤ c.pos) (n : Nat) : c.text.slice c.pos (c.pos + n) = c.upcoming.take n := by
  rw [Text.slice_add _ placed, upcoming_eq placed]

/-- Moving on leaves the characters after those that are passed over. -/
theorem upcoming_advance (placed : 0 ≤ c.pos) (n : Nat) : (c.advance n).upcoming = c.upcoming.drop n := by
  have further : (c.pos + n).toNat = c.pos.toNat + n := by omega
  rw [upcoming_eq (by rw [advance_pos]; omega), upcoming_eq placed, advance_pos, further, ← List.drop_drop]
  rfl

@[simp] theorem advance_text (c : Cursor) (n : Nat) : (c.advance n).text = c.text := rfl

/-- The position is at the end or beyond it exactly if nothing is ahead. -/
theorem atEnd_eq (placed : 0 ≤ c.pos) : c.atEnd = c.upcoming.isEmpty := by
  have length := length_upcoming placed
  rw [atEnd, Bool.eq_iff_iff, decide_eq_true_eq, List.isEmpty_iff_length_eq_zero]
  omega

/-- At the end there is no current character. -/
theorem peek_eq_nil (nothing : c.upcoming = []) : c.peek = [] := by rw [peek, nothing, List.take_nil]

/-- The current character is the first one ahead. -/
theorem peek_eq {x : Char} {rest : Text} (ahead : c.upcoming = x :: rest) : c.peek = [x] := by
  rw [peek, ahead, List.take_succ_cons, List.take_zero]

/-- At the end nothing is taken. -/
theorem next_eq_nil (nothing : c.upcoming = []) : c.next = ([], c) := by
  rw [next, peek_eq_nil nothing, List.length_nil, advance_zero]

/-- Otherwise the first character is taken. -/
theorem next_eq {x : Char} {rest : Text} (ahead : c.upcoming = x :: rest) : c.next = ([x], c.advance 1) := by
  rw [next, peek_eq ahead, List.length_singleton]

/-- Moving on twice is moving on once. -/
@[simp] theorem advance_advance (c : Cursor) (m n : Nat) : (c.advance m).advance n = c.advance (m + n) := by
  simp only [advance, Int.natCast_add, Int.add_assoc]

/-- What follows the characters that are passed over is ahead afterwards. -/
theorem upcoming_advance_length (placed : 0 ≤ c.pos) {taken rest : Text} (ahead : c.upcoming = taken ++ rest) :
    (c.advance taken.length).upcoming = rest := by
  rw [upcoming_advance placed, ahead, List.drop_left]

/-- After the first character the others are ahead. -/
theorem upcoming_advance_one (placed : 0 ≤ c.pos) {x : Char} {rest : Text} (ahead : c.upcoming = x :: rest) :
    (c.advance 1).upcoming = rest := by
  rw [upcoming_advance placed, ahead, List.drop_succ_cons, List.drop_zero]

/-- A span that was begun at the position holds the characters that are passed over. -/
theorem current_advance_length (placed : 0 ≤ c.pos) {taken rest : Text} (ahead : c.upcoming = taken ++ rest) :
    (c.mark.advance taken.length).current = taken := by
  have passed : c.text.slice c.pos (c.pos + taken.length) = c.upcoming.take taken.length := slice_pos placed _
  rw [ahead, List.take_left] at passed
  exact passed

/-- A span that was begun before the position holds the characters that are passed over as well. -/
theorem slice_advance_length {i : Int} (begun : 0 ≤ i) (le : i ≤ c.pos) (inside : c.pos ≤ c.text.length)
    {taken rest : Text} (ahead : c.upcoming = taken ++ rest) :
    c.text.slice i (c.advance taken.length).pos = c.text.slice i c.pos ++ taken := by
  have passed : c.text.drop c.pos.toNat = taken ++ rest := (upcoming_eq (Int.le_trans begun le)).symm.trans ahead
  obtain ⟨m, rfl⟩ := Int.eq_ofNat_of_zero_le begun
  obtain ⟨n, gap⟩ := Int.eq_ofNat_of_zero_le (Int.sub_nonneg_of_le le)
  have place : c.pos = (m : Int) + (n : Nat) := by omega
  have further : (c.advance taken.length).pos = (m : Int) + (n + taken.length : Nat) := by
    rw [advance_pos, place, Int.natCast_add, Int.add_assoc]
  have whole : c.text.drop m = (c.text.drop m).take n ++ (taken ++ rest) := by
    rw [← passed, place, ← Int.natCast_add, Int.toNat_natCast, ← List.drop_drop, List.take_append_drop]
  have length : ((c.text.drop m).take n).length = n := by
    rw [List.length_take, List.length_drop]
    omega
  rw [further, place, Text.slice_add _ begun, Text.slice_add _ begun, Int.toNat_natCast]
  calc (c.text.drop m).take (n + taken.length)
      = ((c.text.drop m).take n ++ taken ++ rest).take (n + taken.length) := by rw [List.append_assoc, ← whole]
    _ = (c.text.drop m).take n ++ taken := List.take_left' (by rw [List.length_append, length])

/-- The span of two characters is passed over; without one the cursor stays. -/
theorem skipPair?_eq {t : Text} (ahead : c.ahead? = some t) (opener closer : Char) :
    c.skipPair? [opener] [closer] = some ((pairSpan? (· == opener) (· == closer) 0 t).elim (false, c)
      fun parts => (true, c.advance parts.1.length)) := by
  have single (y : Char) : (fun x : Char => [x] == [y]) = (· == y) := by
    funext x
    rw [List.cons_beq_cons, BEq.rfl, Bool.and_true]
  rw [skipPair?, ahead, Option.map_some, single, single]
  cases pairSpan? (· == opener) (· == closer) 0 t <;> rfl

/-- The balanced span of a delimiter is passed over. -/
theorem skipPair?_of_span (placed : 0 ≤ c.pos) {d : Delimiter} {span rest : Text}
    (found : d.span? c.upcoming = some (span, rest)) :
    c.skipPair? [d.opener] [d.closer] = some (true, c.advance span.length) := by
  rw [Delimiter.span?] at found
  rw [skipPair?_eq (ahead?_eq_upcoming placed), found, Option.elim_some]

/-- Without one the cursor stays. -/
theorem skipPair?_of_none (placed : 0 ≤ c.pos) {d : Delimiter} (unclosed : d.span? c.upcoming = none) :
    c.skipPair? [d.opener] [d.closer] = some (false, c) := by
  rw [Delimiter.span?] at unclosed
  rw [skipPair?_eq (ahead?_eq_upcoming placed), unclosed, Option.elim_none]

/-- Characters are taken as long as they are accepted. -/
theorem eatWhile_eq {m : Matcher} (atEnd : m.accepts [] = false) :
    c.eatWhile m = (!(c.upcoming.takeWhile fun x => m.accepts [x]).isEmpty,
      c.advance (c.upcoming.takeWhile fun x => m.accepts [x]).length) := by
  have moved (run : Text) : decide (c.pos < (c.advance run.length).pos) = !run.isEmpty := by
    cases run with
    | nil => simp
    | cons x rest =>
      refine decide_eq_true ?_
      rw [advance_pos, List.length_cons]
      omega
  simp only [eatWhile, atEnd, Bool.and_false, if_neg Bool.false_ne_true, moved]

/-- Word characters are taken as long as there are any. -/
theorem eatWhile_word (c : Cursor) :
    c.eatWhile (.pattern .word) = (!(c.upcoming.takeWhile isWordChar).isEmpty,
      c.advance (c.upcoming.takeWhile isWordChar).length) := by
  have isWord : (fun x => (Matcher.pattern .word).accepts [x]) = isWordChar := by
    funext x
    show (Pattern.matchChar isWordChar [x]).isSome = isWordChar x
    rw [Pattern.matchChar]
    cases isWordChar x <;> rfl
  rw [eatWhile_eq rfl, isWord]

/-- Gaps are taken as long as there are any. -/
theorem eatGaps?_eq (placed : 0 ≤ c.pos) :
    c.eatGaps? = some (!(c.upcoming.takeWhile Text.isGap).isEmpty,
      c.advance (c.upcoming.takeWhile Text.isGap).length) := by
  rw [eatGaps?, ahead?_eq_upcoming placed]
  rfl

end Cursor

namespace Pattern

variable {t : Text} {found : PatternMatch}

/-- A character that is matched is the first one. -/
theorem matchChar_eq_some {sort : Char → Bool} (matched : matchChar sort t = some found) :
    found.whole <+: t ∧ found.whole ≠ [] := by
  cases t with
  | nil => cases matched
  | cons c t =>
    rw [matchChar] at matched
    split at matched
    · cases matched
      exact ⟨⟨t, rfl⟩, List.cons_ne_nil c []⟩
    · cases matched

/-- A multiplier that is matched is a star and the digits after it. -/
theorem matchStar_eq_some {closes : Text → Bool} (matched : matchStar closes t = some found) :
    found.whole <+: t ∧ found.whole ≠ [] := by
  unfold matchStar at matched
  split at matched
  · next rest =>
    dsimp only at matched
    split at matched
    · cases matched
      exact ⟨(List.prefix_cons_inj '*').2 (List.takeWhile_prefix _), List.cons_ne_nil _ _⟩
    · cases matched
  · cases matched

/-- What a pattern matches stands at the place where it is looked for, and it is not empty. -/
theorem matchAt_isPrefix {p : Pattern} {k : Nat} (matched : p.matchAt t k = some found) :
    found.whole <+: t.drop k ∧ found.whole ≠ [] := by
  cases p with
  | gap | word => exact matchChar_eq_some matched
  | multiplier | groupMultiplier => exact matchStar_eq_some matched
  | name =>
    rw [matchAt] at matched
    split at matched
    · next named =>
      cases matched
      rw [Bool.and_eq_true, decide_eq_true_eq] at named
      obtain ⟨rfl, named⟩ := named
      -- a name begins with a name character
      cases t with
      | nil => cases named
      | cons c rest =>
        have first : isNameChar c = true := by
          by_contra other
          rw [isElementName, List.takeWhile_cons_of_neg other] at named
          cases named
        refine ⟨List.takeWhile_prefix _, ?_⟩
        rw [List.takeWhile_cons_of_pos (by rw [first, Bool.true_or])]
        exact List.cons_ne_nil _ _
    · cases matched

end Pattern

end Shorthand
