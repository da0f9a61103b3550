import Mathlib.Order.Bounds.Defs
import Shorthand.Proofs.Cursor.Basic

/-! # The closing character that balances

The span of a pair of characters begins with the opening one and ends with the closing one that balances it. Only these
two are counted: the span is the shortest beginning of the text, but for the empty one, that holds as many of the one as
of the other. After each shorter beginning an opening character is still open, and there is no span if one stays open to
the end of the text.

* **`Text.IsEven`** — a text holds as many opening characters as closing ones.
* **`StaysOpen`** — something is open after each beginning of a text.
* **`Balances`** — a span ends where nothing is open any more.
* `pairSpan?_balances` — the scan for a span ends there, or finds that something stays open.
* **`Cursor.IsOn`**, **`Cursor.passed`** — the character at a position, and the characters up to a later one.
* `Cursor.skipPair?_isLeast` — the position is moved to the least one that makes the characters even. -/

namespace Shorthand

/-- The text holds as many of the opening character as of the closing one. -/
def Text.IsEven (opener closer : Char) (t : Text) : Prop := t.count opener = t.count closer

instance (opener closer : Char) (t : Text) : Decidable (t.IsEven opener closer) :=
  inferInstanceAs (Decidable (t.count opener = t.count closer))

/-- The text is even, and no shorter beginning but the empty one is. -/
structure Text.IsShortestEven (opener closer : Char) (t : Text) : Prop where
  /-- It holds as many of the one character as of the other. -/
  even : t.IsEven opener closer
  /-- No shorter beginning does. -/
  not_even : ∀ s : Text, s <+: t → s ≠ [] → s ≠ t → ¬ s.IsEven opener closer

/-- Counted on from the given number of open characters, something is open after each beginning of the text. -/
def StaysOpen (opener closer : Char) (depth : Nat) (t : Text) : Prop :=
  ∀ s, s <+: t → s.count closer < depth + s.count opener

/-- Where the end of a span is, if the given number of characters is open before the text: with the closing character
after which, for the first time, nothing is open any more, or nowhere if something stays open. -/
inductive Balances (opener closer : Char) (depth : Nat) : Text → Option (Text × Text) → Prop
  | closes {inside rest} (stays : StaysOpen opener closer depth inside)
    (last : depth + inside.count opener = inside.count closer + 1) :
    Balances opener closer depth (inside ++ closer :: rest) (some (inside ++ [closer], rest))
  | never {t} (stays : StaysOpen opener closer depth t) : Balances opener closer depth t none

variable {opener closer : Char} {depth later : Nat} {s t : Text} {found : Option (Text × Text)}

/-! ## The scan for the end of a span -/

/-- Before a text something is open. -/
theorem staysOpen_nil (isOpen : 0 < depth) : StaysOpen opener closer depth [] := by
  intro s isPrefix
  obtain rfl := List.prefix_nil.1 isPrefix
  exact isOpen

/-- A character before a text changes the number of those that are open. -/
theorem StaysOpen.cons {x : Char} (isOpen : 0 < depth)
    (counted : depth + [x].count opener = later + [x].count closer) (stays : StaysOpen opener closer later t) :
    StaysOpen opener closer depth (x :: t) := by
  intro s isPrefix
  obtain rfl | ⟨r, rfl, beginning⟩ := List.prefix_cons_iff.1 isPrefix
  · exact isOpen
  · have left := stays r beginning
    rw [← List.singleton_append, List.count_append, List.count_append]
    omega

/-- A step of the scan: one character is passed over, and something is open before and after it. -/
theorem Balances.cons {x : Char} (isOpen : 0 < depth)
    (counted : depth + [x].count opener = later + [x].count closer) (balances : Balances opener closer later t found) :
    Balances opener closer depth (x :: t) (found.map fun parts => (x :: parts.1, parts.2)) := by
  cases balances with
  | @closes inside rest stays last =>
    show Balances opener closer depth (x :: inside ++ closer :: rest) (some (x :: inside ++ [closer], rest))
    refine .closes (stays.cons isOpen counted) ?_
    rw [← List.singleton_append, List.count_append, List.count_append]
    omega
  | never stays => exact .never (stays.cons isOpen counted)

/-- The scan ends with the first closing character after which nothing is open. -/
theorem pairSpan?_balances (differ : opener ≠ closer) (isOpen : 0 < depth) (t : Text) :
    Balances opener closer depth t (pairSpan? (· == opener) (· == closer) depth t) := by
  induction t generalizing depth with
  | nil => exact .never (staysOpen_nil isOpen)
  | cons x t ih =>
    rw [pairSpan?]
    split
    · next isOpener =>
      obtain rfl := beq_iff_eq.1 isOpener
      exact (ih (Nat.succ_pos depth)).cons isOpen (by simp [differ])
    · next notOpener =>
      split
      · next isCloser =>
        obtain rfl := beq_iff_eq.1 isCloser
        split
        · next last =>
          show Balances opener x depth ([] ++ x :: t) (some ([] ++ [x], t))
          exact .closes (staysOpen_nil isOpen) (Nat.le_antisymm last isOpen)
        · next inner =>
          refine (ih (by omega)).cons isOpen ?_
          rw [List.count_singleton_self, List.count_singleton, if_neg notOpener]
          omega
      · next notCloser =>
        refine (ih isOpen).cons isOpen ?_
        rw [List.count_singleton, List.count_singleton, if_neg notOpener, if_neg notCloser]

/-- An opening character that is not closed has no even beginning after it. -/
theorem StaysOpen.not_isEven (differ : opener ≠ closer) (stays : StaysOpen opener closer 1 t)
    (isPrefix : s <+: opener :: t) (nonempty : s ≠ []) : ¬ s.IsEven opener closer := by
  obtain rfl | ⟨r, rfl, beginning⟩ := List.prefix_cons_iff.1 isPrefix
  · exact absurd rfl nonempty
  · have left := stays r beginning
    rw [Text.IsEven, List.count_cons_self, List.count_cons_of_ne differ]
    omega

/-- A span that begins with the opening character is a shortest even text. -/
theorem isShortestEven_span {inside : Text} (differ : opener ≠ closer) (stays : StaysOpen opener closer 1 inside)
    (last : 1 + inside.count opener = inside.count closer + 1) :
    Text.IsShortestEven opener closer (opener :: (inside ++ [closer])) where
  even := by
    have none : [closer].count opener = 0 := List.count_cons_of_ne differ.symm
    rw [Text.IsEven, List.count_cons_self, List.count_cons_of_ne differ, List.count_append, List.count_append, none,
      List.count_singleton_self]
    omega
  not_even := by
    intro s isPrefix nonempty shorter
    rw [← List.cons_append, List.prefix_concat_iff] at isPrefix
    obtain whole | before := isPrefix
    · exact absurd whole shorter
    · exact stays.not_isEven differ before nonempty

/-! ## The position after a span -/

namespace Cursor

/-- The character at the position, which counts from the end of the text if it is negative. -/
def IsOn (c : Cursor) (x : Char) : Prop :=
  -c.text.length ≤ c.pos ∧ c.text[place c.text.length c.pos]? = some x

instance (c : Cursor) (x : Char) : Decidable (c.IsOn x) := inferInstanceAs (Decidable (_ ∧ _))

/-- The characters from the position up to a later one. From a negative position they go on from the end of the text to
its beginning. -/
def passed (c : Cursor) (p : Int) : Text :=
  if 0 ≤ c.pos then c.text.slice c.pos p
  else (c.text.drop (c.pos + c.text.length).toNat ++ c.text).take (p - c.pos).toNat

variable {c : Cursor}

/-- The character at the position is the first one that a scan by places meets. -/
theorem IsOn.exists_ahead {x : Char} (on : c.IsOn x) : ∃ rest, c.ahead? = some (x :: rest) := by
  obtain ⟨within, char⟩ := on
  obtain ⟨inside, same⟩ := List.getElem?_eq_some_iff.1 char
  have met := List.drop_eq_getElem_cons inside
  rw [same] at met
  by_cases placed : 0 ≤ c.pos
  · have spot : place c.text.length c.pos = c.pos.toNat := by
      rw [place, if_neg (by omega)] at inside ⊢
      omega
    rw [spot] at met
    exact ⟨_, by rw [ahead?, if_pos placed, met]⟩
  · have spot : place c.text.length c.pos = (c.pos + c.text.length).toNat := if_pos (by omega)
    rw [spot] at met
    exact ⟨_, by rw [ahead?, if_neg placed, if_neg (by omega), met, List.cons_append]⟩

/-- The characters up to a later position are the first ones that a scan by places meets. -/
theorem passed_eq_take {t : Text} (ahead : c.ahead? = some t) {p : Int} (later : c.pos ≤ p) :
    c.passed p = t.take (p - c.pos).toNat := by
  rw [passed]
  split
  · next placed =>
    rw [ahead?_eq_upcoming placed, Option.some_inj] at ahead
    have further : p = c.pos + (p - c.pos).toNat := by omega
    rw [← ahead, ← slice_pos placed, ← further]
  · next negative =>
    rw [ahead?, if_neg negative] at ahead
    split at ahead
    · cases ahead
    · rw [Option.some_inj.1 ahead]

/-- The characters that are passed over. -/
theorem passed_advance {span rest : Text} (ahead : c.ahead? = some (span ++ rest)) :
    c.passed (c.advance span.length).pos = span := by
  have moved : ((c.advance span.length).pos - c.pos).toNat = span.length := by
    rw [advance_pos]
    omega
  rw [passed_eq_take ahead (by rw [advance_pos]; omega), moved, List.take_left]

/-- Up to a later position there are some characters, and they are the first ones that a scan by places meets. -/
theorem passed_isPrefix {t : Text} (ahead : c.ahead? = some t) (nonempty : t ≠ []) {p : Int} (later : c.pos < p) :
    c.passed p <+: t ∧ c.passed p ≠ [] := by
  rw [passed_eq_take ahead (by omega)]
  refine ⟨List.take_prefix _ _, fun nothing => ?_⟩
  rcases List.take_eq_nil_iff.1 nothing with still | empty
  · omega
  · exact nonempty empty

/-- The position after a shortest even text is the least one up to which the characters are even. -/
theorem isLeast_advance {span rest : Text} (ahead : c.ahead? = some (span ++ rest)) (nonempty : span ≠ [])
    (shortest : span.IsShortestEven opener closer) :
    IsLeast {p | c.pos < p ∧ (c.passed p).IsEven opener closer} (c.advance span.length).pos := by
  have some := List.length_pos_iff.2 nonempty
  constructor
  · refine ⟨by rw [advance_pos]; omega, ?_⟩
    rw [passed_advance ahead]
    exact shortest.even
  · rintro p ⟨later, even⟩
    by_contra before
    rw [advance_pos] at before
    have short : (c.passed p).length < span.length := by
      rw [passed_eq_take ahead (by omega)]
      exact Nat.lt_of_le_of_lt (List.length_take_le _ _) (by omega)
    obtain ⟨isPrefix, nonempty⟩ := passed_isPrefix ahead (List.append_ne_nil_of_left_ne_nil nonempty rest) later
    have inside := List.prefix_of_prefix_length_le isPrefix (List.prefix_append span rest) short.le
    exact shortest.not_even _ inside nonempty (fun whole => short.ne (congrArg List.length whole)) even

/-- With the position on the first of two different characters, the span of the two is passed over exactly if there is a
later position up to which there are as many of the one as of the other. The cursor is moved to the least such position;
so the second character is the last one that is passed over, and no shorter beginning but the empty one is even. -/
theorem skipPair?_isLeast {opener closer : Char} (differ : opener ≠ closer) (on : c.IsOn opener) :
    ∃ found after, c.skipPair? [opener] [closer] = some (found, after) ∧
      after.text = c.text ∧ after.start = c.start ∧
      (found = true ↔ ∃ p, c.pos < p ∧ (c.passed p).IsEven opener closer) ∧
      (found = true →
        IsLeast {p | c.pos < p ∧ (c.passed p).IsEven opener closer} after.pos ∧
          (∃ inside, c.passed after.pos = opener :: (inside ++ [closer])) ∧
          (c.passed after.pos).IsShortestEven opener closer) ∧
      (found = false → after.pos = c.pos) := by
  obtain ⟨t, ahead⟩ := on.exists_ahead
  have balances := pairSpan?_balances differ Nat.one_pos t
  rw [skipPair?_eq ahead opener closer, pairSpan?, if_pos (beq_self_eq_true _), Nat.zero_add]
  generalize pairSpan? (· == opener) (· == closer) 1 t = result at balances ⊢
  cases balances with
  | @closes inside rest stays last =>
    have shortest := isShortestEven_span differ stays last
    have whole : c.ahead? = some (opener :: (inside ++ [closer]) ++ rest) := by
      rw [ahead, List.cons_append, List.append_assoc, List.singleton_append]
    have least := isLeast_advance whole (List.cons_ne_nil _ _) shortest
    have passed := passed_advance whole
    exact ⟨true, _, rfl, rfl, rfl, iff_of_true rfl ⟨_, least.1⟩,
      fun _ => ⟨least, ⟨inside, passed⟩, passed.symm ▸ shortest⟩,
      fun failed => absurd failed.symm Bool.false_ne_true⟩
  | never stays =>
    refine ⟨false, c, rfl, rfl, rfl, iff_of_false Bool.false_ne_true ?_,
      fun succeeded => absurd succeeded Bool.false_ne_true, fun _ => rfl⟩
    rintro ⟨p, later, even⟩
    obtain ⟨isPrefix, nonempty⟩ := passed_isPrefix ahead (List.cons_ne_nil _ _) later
    exact stays.not_isEven differ isPrefix nonempty even

/-- Nested parentheses are passed over together with what they enclose, and there is nothing to be passed over where the
first one is left open. -/
theorem skipPair?_isLeast_nested :
    '(' ≠ ')' ∧ IsOn ⟨"x(a(b)c)d".toList, 1, 0⟩ '(' ∧ IsOn ⟨"x(a(b)".toList, 1, 0⟩ '(' ∧
      skipPair? ['('] [')'] ⟨"x(a(b)c)d".toList, 1, 0⟩ = some (true, ⟨"x(a(b)c)d".toList, 8, 0⟩) ∧
      IsLeast {p | 1 < p ∧ (passed ⟨"x(a(b)c)d".toList, 1, 0⟩ p).IsEven '(' ')'} 8 ∧
      skipPair? ['('] [')'] ⟨"x(a(b)".toList, 1, 0⟩ = some (false, ⟨"x(a(b)".toList, 1, 0⟩) ∧
      ¬ ∃ p, 1 < p ∧ (passed ⟨"x(a(b)".toList, 1, 0⟩ p).IsEven '(' ')' := by
  have differ : '(' ≠ ')' := by decide
  have on : IsOn ⟨"x(a(b)c)d".toList, 1, 0⟩ '(' := by decide
  have onOpen : IsOn ⟨"x(a(b)".toList, 1, 0⟩ '(' := by decide
  have closed : skipPair? ['('] [')'] ⟨"x(a(b)c)d".toList, 1, 0⟩ = some (true, ⟨"x(a(b)c)d".toList, 8, 0⟩) := by
    decide
  have unclosed : skipPair? ['('] [')'] ⟨"x(a(b)".toList, 1, 0⟩ = some (false, ⟨"x(a(b)".toList, 1, 0⟩) := by
    decide
  obtain ⟨_, _, performed, -, -, -, least, -⟩ := skipPair?_isLeast differ on
  obtain ⟨_, _, attempted, -, -, found_iff, -⟩ := skipPair?_isLeast differ onOpen
  cases closed.symm.trans performed
  cases unclosed.symm.trans attempted
  exact ⟨differ, on, onOpen, closed, (least rfl).1, unclosed, fun even => Bool.false_ne_true (found_iff.2 even)⟩

end Cursor

end Shorthand
