import Shorthand.Delimiter

/-! # Balanced texts

A text is balanced in the delimiters of a pair if, counted from left to right, the closing ones never outnumber the
opening ones and in the end there are as many of the one as of the other. The span that begins before a balanced text
ends right after it, whatever other characters the text holds.

* **`Delimiter.IsBalanced`** — a text is balanced in a pair of delimiters.
* `Delimiter.span?_delimited` — a balanced text between delimiters is one span.
* `Delimiter.isBalanced_of_span?` — a span is a balanced text between delimiters.
* `pairSpan?_append_right` — a span does not depend on what follows it. -/

namespace Shorthand

/-- A span ends where it ends, whatever follows the text. -/
theorem pairSpan?_append_right {isOpen isClose : Char → Bool} {depth : Nat} {t span rest : Text}
    (h : pairSpan? isOpen isClose depth t = some (span, rest)) (more : Text) :
    pairSpan? isOpen isClose depth (t ++ more) = some (span, rest ++ more) := by
  induction t generalizing depth span rest with
  | nil => cases h
  | cons c t ih =>
    rw [List.cons_append]
    obtain ends | ⟨later, goesOn⟩ := pairSpan?_cons isOpen isClose depth c
    · rw [ends] at h ⊢
      cases h
      rfl
    · rw [goesOn] at h ⊢
      obtain ⟨⟨taken, left⟩, found, same⟩ := Option.map_eq_some_iff.1 h
      cases same
      rw [ih found]
      rfl

namespace Delimiter

/-- The span of a delimiter ends where it ends, whatever follows the text. -/
theorem span?_append_right {d : Delimiter} {t span rest : Text} (h : d.span? t = some (span, rest))
    (more : Text) : d.span? (t ++ more) = some (span, rest ++ more) := pairSpan?_append_right h more

/-- Counted on from the given number of open delimiters, the closing ones never outnumber the opening ones, and none
is open in the end. -/
def closes (d : Delimiter) : Nat → Text → Bool
  | depth, [] => depth == 0
  | depth, c :: rest =>
    if c == d.opener then closes d (depth + 1) rest
    else if c == d.closer then 0 < depth && closes d (depth - 1) rest
    else closes d depth rest

/-- The text is balanced in the delimiters. -/
def IsBalanced (d : Delimiter) (t : Text) : Prop := d.closes 0 t = true

instance (d : Delimiter) (t : Text) : Decidable (d.IsBalanced t) :=
  inferInstanceAs (Decidable (d.closes 0 t = true))

variable {d : Delimiter} {m n : Nat} {s t rest : Text}

/-- The two delimiters of a pair differ. -/
theorem closer_ne_opener (d : Delimiter) : d.closer ≠ d.opener := by cases d <;> decide

@[simp] theorem closes_opener (d : Delimiter) (n : Nat) (t : Text) :
    d.closes n (d.opener :: t) = d.closes (n + 1) t := by rw [closes, if_pos (beq_self_eq_true _)]

@[simp] theorem closes_closer (d : Delimiter) (n : Nat) (t : Text) :
    d.closes (n + 1) (d.closer :: t) = d.closes n t := by
  rw [closes, if_neg (by simpa using closer_ne_opener d), if_pos (beq_self_eq_true _)]
  simp

/-- What closes what was open before a text and then what was open before that closes both. -/
theorem closes_append (first : d.closes m s = true) (second : d.closes n t = true) :
    d.closes (m + n) (s ++ t) = true := by
  induction s generalizing m with
  | nil =>
    have none : m = 0 := by simpa [closes] using first
    rwa [none, Nat.zero_add, List.nil_append]
  | cons c s ih =>
    rw [closes] at first
    rw [List.cons_append, closes]
    split
    · next isOpener =>
      rw [if_pos isOpener] at first
      rw [Nat.add_right_comm]
      exact ih first
    · next notOpener =>
      rw [if_neg notOpener] at first
      split
      · next isCloser =>
        rw [if_pos isCloser, Bool.and_eq_true, decide_eq_true_eq] at first
        have stillOpen : 0 < m + n := Nat.lt_of_lt_of_le first.1 (Nat.le_add_right m n)
        have counted : m + n - 1 = m - 1 + n := by have := first.1; omega
        rw [counted, ih first.2, Bool.and_true, decide_eq_true_eq]
        exact stillOpen
      · next notCloser =>
        rw [if_neg notCloser] at first
        exact ih first

/-- Balanced texts in a row are balanced. -/
theorem IsBalanced.append (first : d.IsBalanced s) (second : d.IsBalanced t) :
    d.IsBalanced (s ++ t) := closes_append first second

/-- A balanced text between delimiters is balanced. -/
theorem IsBalanced.delimited (balanced : d.IsBalanced t) :
    d.IsBalanced (d.opener :: (t ++ [d.closer])) := by
  have closing : d.closes 1 [d.closer] = true := by rw [closes_closer]; rfl
  rw [IsBalanced, closes_opener]
  exact closes_append balanced closing

/-- The text tells how many delimiters were open before it. -/
theorem closes_unique (first : d.closes m t = true) (second : d.closes n t = true) : m = n := by
  induction t generalizing m n with
  | nil =>
    simp only [closes, beq_iff_eq] at first second
    rw [first, second]
  | cons c t ih =>
    rw [closes] at first second
    split at first
    · next isOpener =>
      rw [if_pos isOpener] at second
      exact Nat.succ.inj (ih first second)
    · next notOpener =>
      rw [if_neg notOpener] at second
      split at first
      · next isCloser =>
        rw [if_pos isCloser, Bool.and_eq_true, decide_eq_true_eq] at second
        rw [Bool.and_eq_true, decide_eq_true_eq] at first
        have counted := ih first.2 second.2
        omega
      · next notCloser =>
        rw [if_neg notCloser] at second
        exact ih first second

/-- What stands at the end of a text that closes what was open closes what is open there. -/
theorem exists_closes_of_append (closed : d.closes n (s ++ t) = true) : ∃ m, d.closes m t = true := by
  induction s generalizing n with
  | nil => exact ⟨n, closed⟩
  | cons c s ih =>
    rw [List.cons_append, closes] at closed
    split at closed
    · exact ih closed
    · split at closed
      · exact ih (Bool.and_eq_true_iff.1 closed).2
      · exact ih closed

/-- An opening delimiter before a balanced text is never closed. -/
theorem IsBalanced.not_isBalanced_append_opener (balanced : d.IsBalanced t) (s : Text) :
    ¬ d.IsBalanced (s ++ d.opener :: t) := by
  intro whole
  obtain ⟨m, closed⟩ := exists_closes_of_append whole
  rw [closes_opener] at closed
  exact absurd (closes_unique closed balanced) (Nat.succ_ne_zero m)

/-- A delimiter of the pair. -/
def isOwn (d : Delimiter) (c : Char) : Bool := c == d.opener || c == d.closer

/-- Only the delimiters of the pair count. -/
theorem closes_filter (d : Delimiter) (n : Nat) (t : Text) : d.closes n (t.filter d.isOwn) = d.closes n t := by
  induction t generalizing n with
  | nil => rfl
  | cons c t ih =>
    rw [closes]
    by_cases isOpener : c == d.opener
    · rw [List.filter_cons_of_pos (by simp [isOwn, isOpener]), closes, if_pos isOpener, if_pos isOpener, ih]
    · by_cases isCloser : c == d.closer
      · rw [List.filter_cons_of_pos (by simp [isOwn, isCloser]), closes, if_neg isOpener, if_neg isOpener,
          if_pos isCloser, if_pos isCloser, ih]
      · rw [List.filter_cons_of_neg (by simp [isOwn, isOpener, isCloser]), if_neg isOpener, if_neg isCloser, ih]

/-- A text without delimiters of the pair has none that count. -/
theorem filter_isOwn_eq_nil (plain : ∀ c ∈ t, c ≠ d.opener ∧ c ≠ d.closer) : t.filter d.isOwn = [] := by
  refine List.filter_eq_nil_iff.2 fun c inside => ?_
  obtain ⟨notOpener, notCloser⟩ := plain c inside
  simp [isOwn, notOpener, notCloser]

/-- Texts with the same delimiters are balanced alike. -/
theorem isBalanced_congr (same : s.filter d.isOwn = t.filter d.isOwn) : d.IsBalanced s ↔ d.IsBalanced t := by
  rw [IsBalanced, IsBalanced, ← closes_filter, same, closes_filter]

/-- A text without delimiters is balanced. -/
theorem isBalanced_of_forall_ne (plain : ∀ c ∈ t, c ≠ d.opener ∧ c ≠ d.closer) : d.IsBalanced t := by
  induction t with
  | nil => rfl
  | cons c t ih =>
    obtain ⟨notOpener, notCloser⟩ := plain c List.mem_cons_self
    rw [IsBalanced, closes, if_neg (by simpa using notOpener), if_neg (by simpa using notCloser)]
    exact ih fun e inside => plain e (List.mem_cons_of_mem c inside)

/-- A text that closes what was open before it stands inside of any span that was begun before. -/
theorem pairSpan?_append_of_closes (closed : d.closes n s = true) {depth : Nat} (inside : 0 < depth)
    (rest : Text) :
    pairSpan? (· == d.opener) (· == d.closer) (depth + n) (s ++ rest) =
      (pairSpan? (· == d.opener) (· == d.closer) depth rest).map
        fun found => (s ++ found.1, found.2) := by
  induction s generalizing n with
  | nil =>
    have none : n = 0 := by simpa [closes] using closed
    simp [none]
  | cons c s ih =>
    rw [closes] at closed
    rw [List.cons_append, pairSpan?]
    split at closed
    · next isOpener =>
      rw [if_pos isOpener, Nat.add_assoc, ih closed, Option.map_map]
      rfl
    · next notOpener =>
      rw [if_neg notOpener]
      split at closed
      · next isCloser =>
        rw [Bool.and_eq_true, decide_eq_true_eq] at closed
        have more : ¬ depth + n ≤ 1 := by have := closed.1; omega
        have counted : depth + n - 1 = depth + (n - 1) := Nat.add_sub_assoc closed.1 depth
        rw [if_pos isCloser, if_neg more, counted, ih closed.2, Option.map_map]
        rfl
      · next notCloser =>
        rw [if_neg notCloser, ih closed, Option.map_map]
        rfl

/-- A balanced text between delimiters is one span, which ends with the closing one. -/
theorem span?_delimited (balanced : d.IsBalanced t) (rest : Text) :
    d.span? (d.opener :: (t ++ d.closer :: rest)) = some (d.opener :: (t ++ [d.closer]), rest) := by
  have closing : pairSpan? (· == d.opener) (· == d.closer) 1 (d.closer :: rest) =
      some ([d.closer], rest) := by
    rw [pairSpan?, if_neg (by simpa using closer_ne_opener d), if_pos (beq_self_eq_true _),
      if_pos (Nat.le_refl 1)]
  rw [span?, pairSpan?, if_pos (beq_self_eq_true _), Nat.zero_add,
    pairSpan?_append_of_closes (n := 0) balanced Nat.one_pos, closing]
  rfl

/-- A balanced text between square brackets is one span. -/
theorem span?_square (balanced : square.IsBalanced t) (rest : Text) :
    square.span? ('[' :: (t ++ ']' :: rest)) = some ('[' :: (t ++ [']']), rest) := span?_delimited balanced rest

/-- A balanced text between braces is one span. -/
theorem span?_curly (balanced : curly.IsBalanced t) (rest : Text) :
    curly.span? ('\x7b' :: (t ++ '\x7d' :: rest)) = some ('\x7b' :: (t ++ ['\x7d']), rest) :=
  span?_delimited balanced rest

/-- A span that was begun before takes what closes the other delimiters that are open, and the closing one after it. -/
theorem closes_of_pairSpan? {span : Text}
    (found : pairSpan? (· == d.opener) (· == d.closer) (n + 1) t = some (span, rest)) :
    ∃ inside, d.closes n inside = true ∧ span = inside ++ [d.closer] ∧ t = inside ++ d.closer :: rest := by
  induction t generalizing n span with
  | nil => cases found
  | cons c t ih =>
    rw [pairSpan?] at found
    split at found
    · next isOpener =>
      obtain rfl := beq_iff_eq.1 isOpener
      obtain ⟨⟨more, left⟩, later, same⟩ := Option.map_eq_some_iff.1 found
      cases same
      obtain ⟨inside, closed, rfl, rfl⟩ := ih later
      exact ⟨d.opener :: inside, by rwa [closes_opener], rfl, rfl⟩
    · next notOpener =>
      split at found
      · next isCloser =>
        obtain rfl := beq_iff_eq.1 isCloser
        cases n with
        | zero =>
          rw [if_pos (Nat.le_refl 1)] at found
          cases found
          exact ⟨[], rfl, rfl, rfl⟩
        | succ n =>
          rw [if_neg (by omega)] at found
          obtain ⟨⟨more, left⟩, later, same⟩ := Option.map_eq_some_iff.1 found
          cases same
          obtain ⟨inside, closed, rfl, rfl⟩ := ih later
          exact ⟨d.closer :: inside, by rwa [closes_closer], rfl, rfl⟩
      · next notCloser =>
        obtain ⟨⟨more, left⟩, later, same⟩ := Option.map_eq_some_iff.1 found
        cases same
        obtain ⟨inside, closed, rfl, rfl⟩ := ih later
        exact ⟨c :: inside, by rwa [closes, if_neg notOpener, if_neg notCloser], rfl, rfl⟩

/-- A span is a balanced text between delimiters. -/
theorem isBalanced_of_span? {span : Text} (found : d.span? (d.opener :: t) = some (span, rest)) :
    ∃ inside, d.IsBalanced inside ∧ span = d.opener :: (inside ++ [d.closer]) ∧
      t = inside ++ d.closer :: rest := by
  rw [span?, pairSpan?, if_pos (beq_self_eq_true _)] at found
  obtain ⟨⟨more, left⟩, later, same⟩ := Option.map_eq_some_iff.1 found
  cases same
  obtain ⟨inside, closed, rfl, rfl⟩ := closes_of_pairSpan? later
  exact ⟨inside, closed, rfl, rfl⟩

end Delimiter

end Shorthand
