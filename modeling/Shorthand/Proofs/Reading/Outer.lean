import Shorthand.Proofs.Reading.Ending
import Shorthand.Proofs.Reading.Limits
import Shorthand.Proofs.Reading.SingleToken

/-! # The characters outside of spans

An abbreviation is written in the allowed characters outside of its attribute sets and texts. Two things are left aside:
the white space that is trimmed at the ends of the text and of the insides of groups, and the digits of a group's
multiplier, which may be of any script.

* **`Text.outer`** — a text with its attribute sets and texts emptied.
* **`Text.IsMargin`**, **`Text.CountsGroup`** — the places of trimmed white space, and of the digits after a group.
* **`Text.IsLegible`** — what is shown of a part of a text, whatever surrounds the part.
* `isLegible_of_isReadAs` — a level that can be read is legible.
* `Text.isAllowedChar_of_parseRaw` — which characters stand outside of the spans of an accepted text. -/

namespace Shorthand

namespace Text

/-- The text with its spans emptied. An opening square bracket or brace that is met from left to right begins a span,
which reaches to the delimiter that balances it; one without an end stands for itself. -/
def outer (t : Text) : Text :=
  match t with
  | [] => []
  | c :: rest =>
    if c = '[' || c = '\x7b' then
      let d := if c = '[' then Delimiter.square else Delimiter.curly
      match _ : (if c = '[' then Delimiter.square else Delimiter.curly).span? (c :: rest) with
      | some (_, after) => d.opener :: d.closer :: outer after
      | none => c :: outer rest
    else c :: outer rest
termination_by t.length
decreasing_by
  · exact Delimiter.span?_length_lt (by assumption)
  · simp
  · simp

/-- Nothing but white space stands between the place after one text and before another and the beginning, an opening
parenthesis before it, the end, or a closing parenthesis after it. -/
def IsMargin (before after : Text) : Prop :=
  (∀ c ∈ (before.reverse.dropWhile isBlank).head?, c = '(') ∨ (∀ c ∈ (after.dropWhile isBlank).head?, c = ')')

/-- The text ends with a group and the star and digits after it. -/
def CountsGroup (before : Text) : Prop :=
  ∃ start digits, before = start ++ ')' :: '*' :: digits ∧ ∀ c ∈ digits, isDigit c = true

/-- A character between two texts is allowed, or it is white space in a margin, or it is a digit of another script than
ASCII in the multiplier of a group. -/
def IsFitting (before : Text) (c : Char) (after : Text) : Prop :=
  isAllowedChar c = true ∨ isBlank c = true ∧ IsMargin before after ∨
    isDigit c = true ∧ c.isDigit = false ∧ CountsGroup before

variable {s t rest inside before after : Text} {c : Char}

/-! ## Emptying spans -/

@[simp] theorem outer_nil : outer [] = [] := by rw [outer]

/-- A character that begins no span stays. -/
theorem outer_cons (plain : c ≠ '[' ∧ c ≠ '\x7b') (rest : Text) : outer (c :: rest) = c :: outer rest := by
  rw [outer, if_neg (by simp [plain])]

/-- Characters that begin no spans stay. -/
theorem outer_append_of_forall (plain : ∀ c ∈ s, c ≠ '[' ∧ c ≠ '\x7b') (rest : Text) :
    outer (s ++ rest) = s ++ outer rest := by
  induction s with
  | nil => rfl
  | cons c s ih =>
    rw [List.cons_append, outer_cons (plain c List.mem_cons_self),
      ih fun e inside => plain e (List.mem_cons_of_mem c inside), List.cons_append]

/-- A text in which no span begins stays. -/
theorem outer_eq_self (plain : ∀ c ∈ s, c ≠ '[' ∧ c ≠ '\x7b') : outer s = s := by
  have whole : outer (s ++ []) = s ++ outer [] := outer_append_of_forall plain []
  rwa [List.append_nil, outer_nil, List.append_nil] at whole

/-- A span is emptied. -/
theorem outer_span {d : Delimiter} (notRound : d ≠ .round) (balanced : d.IsBalanced inside) (rest : Text) :
    outer (d.opener :: (inside ++ d.closer :: rest)) = d.opener :: d.closer :: outer rest := by
  have found := Delimiter.span?_delimited balanced rest
  have opened : (d.opener = '[' || d.opener = '\x7b') = true ∧
      (if d.opener = '[' then Delimiter.square else Delimiter.curly) = d := by
    cases d <;> first | exact absurd rfl notRound | decide
  rw [outer, if_pos opened.1]
  dsimp only
  split
  · next span following found' =>
    rw [opened.2, found] at found'
    cases found'
    rw [opened.2]
  · next unclosed =>
    rw [opened.2, found] at unclosed
    cases unclosed

/-- White space begins no span. -/
theorem ne_opener_of_isBlank (blank : isBlank c = true) : c ≠ '[' ∧ c ≠ '\x7b' := by
  constructor <;> rintro rfl <;> revert blank <;> decide

/-! ## Fitting characters -/

/-- All characters of a text fit between two others. -/
def AllFit (before t after : Text) : Prop :=
  ∀ start c rest, t = start ++ c :: rest → IsFitting (before ++ start) c (rest ++ after)

theorem allFit_nil : AllFit before [] after := by
  intro start c rest same
  simp at same

/-- The characters of a text in two parts fit if those of the first part do and those of the second. -/
theorem AllFit.append (first : AllFit before s (t ++ after)) (second : AllFit (before ++ s) t after) :
    AllFit before (s ++ t) after := by
  intro start c rest same
  rcases append_eq_append_cons same with ⟨left, rfl, rfl⟩ | ⟨right, rfl, rfl⟩
  · rw [List.append_assoc]
    exact first start c left rfl
  · rw [← List.append_assoc]
    exact second right c rest rfl

/-- Allowed characters fit anywhere. -/
theorem allFit_of_allowed (allowed : ∀ c ∈ t, isAllowedChar c = true) : AllFit before t after := by
  intro start c rest same
  exact .inl (allowed c (by rw [same]; simp))

/-- White space fits after an opening parenthesis, and at the beginning. -/
theorem allFit_leading (blank : ∀ c ∈ t, isBlank c = true) (opened : ∀ c ∈ before.getLast?, c = '(') :
    AllFit before t after := by
  rintro start c rest rfl
  have leading : ∀ e ∈ start.reverse, isBlank e = true := fun e inside =>
    blank e (List.mem_append_left _ (List.mem_reverse.1 inside))
  refine .inr (.inl ⟨blank c (by simp), .inl fun e first => ?_⟩)
  rw [List.reverse_append, List.dropWhile_append_of_pos leading] at first
  rw [List.getLast?_eq_head?_reverse] at opened
  -- white space is passed over up to the parenthesis, which stays
  cases reversed : before.reverse with
  | nil =>
    rw [reversed] at first
    cases first
  | cons d others =>
    rw [reversed] at first opened
    obtain rfl := opened d rfl
    rw [List.dropWhile_cons_of_neg (by decide)] at first
    exact (Option.some.inj first).symm

/-- White space fits before a closing parenthesis, and at the end. -/
theorem allFit_trailing (blank : ∀ c ∈ t, isBlank c = true) (closed : ∀ c ∈ after.head?, c = ')') :
    AllFit before t after := by
  rintro start c rest rfl
  have trailing : ∀ e ∈ rest, isBlank e = true := fun e inside => blank e (by simp [inside])
  refine .inr (.inl ⟨blank c (by simp), .inr fun e first => ?_⟩)
  rw [List.dropWhile_append_of_pos trailing] at first
  cases after with
  | nil => cases first
  | cons d others =>
    obtain rfl := closed d rfl
    rw [List.dropWhile_cons_of_neg (by decide)] at first
    exact (Option.some.inj first).symm

/-- Digits fit after the star of a group's multiplier. -/
theorem allFit_digits (digits : ∀ c ∈ t, isDigit c = true) :
    AllFit (before ++ [')', '*']) t after := by
  rintro start c rest rfl
  by_cases ascii : c.isDigit = true
  · -- an ASCII digit is allowed anywhere
    exact .inl (isAllowedChar_of_isTokenChar (isTokenChar_of_isDigit ascii))
  · refine .inr (.inr ⟨digits c (by simp), by simpa using ascii, before, start, ?_, fun e inside => ?_⟩)
    · rw [List.append_assoc]
      rfl
    · exact digits e (List.mem_append_left _ inside)

/-! ## Legible texts -/

/-- Outside of its spans a text shows only characters that fit, whatever surrounds it, and its spans end inside of it. -/
structure IsLegible (t : Text) : Prop where
  /-- The spans of the text end inside of it. -/
  outer_append : ∀ rest, outer (t ++ rest) = outer t ++ outer rest
  /-- The characters outside of them fit. -/
  allFit : ∀ before after, AllFit before (outer t) after

theorem isLegible_nil : IsLegible [] := by
  refine ⟨fun rest => ?_, fun before after => ?_⟩
  · rw [outer_nil, List.nil_append, List.nil_append]
  · rw [outer_nil]
    exact allFit_nil

/-- Legible texts in a row are legible. -/
theorem IsLegible.append (first : IsLegible s) (second : IsLegible t) : IsLegible (s ++ t) := by
  refine ⟨fun rest => ?_, fun before after => ?_⟩
  · rw [List.append_assoc, first.outer_append, second.outer_append, first.outer_append, List.append_assoc]
  · rw [first.outer_append]
    exact (first.allFit before _).append (second.allFit _ after)

/-- Allowed characters that begin no span are legible. -/
theorem isLegible_of_allowed (plain : ∀ c ∈ t, isAllowedChar c = true ∧ c ≠ '[' ∧ c ≠ '\x7b') : IsLegible t := by
  have begins : ∀ c ∈ t, c ≠ '[' ∧ c ≠ '\x7b' := fun c inside => (plain c inside).2
  refine ⟨fun rest => ?_, fun before after => ?_⟩
  · rw [outer_append_of_forall begins, outer_eq_self begins]
  · rw [outer_eq_self begins]
    exact allFit_of_allowed fun c inside => (plain c inside).1

/-- An allowed character that begins no span is legible. -/
theorem isLegible_singleton (allowed : isAllowedChar c = true) (begins : c ≠ '[' ∧ c ≠ '\x7b') : IsLegible [c] :=
  isLegible_of_allowed (List.forall_mem_singleton.2 ⟨allowed, begins⟩)

/-- A span is legible. -/
theorem isLegible_span {d : Delimiter} (notRound : d ≠ .round) (balanced : d.IsBalanced inside) :
    IsLegible (d.opener :: (inside ++ [d.closer])) := by
  refine ⟨fun rest => ?_, fun before after => ?_⟩
  · have parts : d.opener :: (inside ++ [d.closer]) ++ rest = d.opener :: (inside ++ d.closer :: rest) := by simp
    rw [parts, outer_span notRound balanced, outer_span notRound balanced, outer_nil]
    rfl
  · rw [outer_span notRound balanced, outer_nil]
    refine allFit_of_allowed fun c inside => ?_
    rcases List.mem_pair.1 inside with rfl | rfl <;> cases d <;> decide

/-- What is taken into a token is legible. -/
theorem IsScanned.isLegible (scanned : IsScanned t) : IsLegible t := by
  induction scanned with
  | nil => exact isLegible_nil
  | @char c rest isChar later ih =>
    refine IsLegible.append (s := [c]) (isLegible_singleton ?_ ⟨?_, ?_⟩) ih
    · rcases isChar with token | rfl
      · exact isAllowedChar_of_isTokenChar token
      · decide
    all_goals
      rintro rfl
      revert isChar
      decide
  | @span d inside rest notRound balanced later ih =>
    have parts : d.opener :: (inside ++ d.closer :: rest) = d.opener :: (inside ++ [d.closer]) ++ rest := by simp
    rw [parts]
    exact (isLegible_span notRound balanced).append ih

/-- A group is legible if what is left of its inside when it is trimmed is, with the star and the digits after it. -/
theorem IsLegible.grouped (legible : IsLegible inside.trim)
    (counts : s = [] ∨ ∃ digits, s = '*' :: digits ∧ ∀ c ∈ digits, isDigit c = true) :
    IsLegible (inside.grouped ++ s) := by
  obtain ⟨trailing, blankAfter, parts⟩ := exists_eq_append_trim inside
  have blankBefore : ∀ c ∈ inside.takeWhile isBlank, isBlank c = true := fun c => List.mem_takeWhile_imp
  generalize inside.takeWhile isBlank = leading at parts blankBefore
  have plainEnd : ∀ c ∈ ')' :: s, c ≠ '[' ∧ c ≠ '\x7b' := by
    refine fun c member => ⟨?_, ?_⟩ <;> rintro rfl <;>
      obtain rfl | ⟨digits, rfl, areDigits⟩ := counts <;> simp at member <;>
        exact absurd (areDigits _ member) (by decide)
  -- the outside of the group, whatever follows it
  have shown : ∀ rest, outer (inside.grouped ++ s ++ rest) =
      ['('] ++ (leading ++ (outer inside.trim ++ (trailing ++ (')' :: s ++ outer rest)))) := by
    intro rest
    have whole : inside.grouped ++ s ++ rest =
        '(' :: (leading ++ (inside.trim ++ (trailing ++ (')' :: s ++ rest)))) := by
      nth_rewrite 1 [Text.grouped, parts]
      simp
    rw [whole, outer_cons (by decide), outer_append_of_forall fun c member => ne_opener_of_isBlank (blankBefore c member),
      legible.outer_append, outer_append_of_forall fun c member => ne_opener_of_isBlank (blankAfter c member),
      outer_append_of_forall plainEnd]
    rfl
  have alone := shown []
  rw [List.append_nil, outer_nil, List.append_nil] at alone
  refine ⟨fun rest => ?_, fun before after => ?_⟩
  · rw [shown, alone]
    simp
  · rw [alone]
    have opening : AllFit before ['('] (leading ++ (outer inside.trim ++ (trailing ++ ')' :: s)) ++ after) :=
      allFit_of_allowed (by simp; decide)
    refine opening.append ((allFit_leading blankBefore ?_).append ((legible.allFit _ _).append
      ((allFit_trailing blankAfter ?_).append ?_)))
    · simp
    · simp
    · obtain rfl | ⟨digits, rfl, areDigits⟩ := counts
      · exact allFit_of_allowed (by simp; decide)
      · have star : AllFit (before ++ ['('] ++ leading ++ outer inside.trim ++ trailing) [')', '*']
            (digits ++ after) := allFit_of_allowed (by simp; decide)
        exact star.append (allFit_digits areDigits)

/-- A level that can be read is legible. -/
theorem isLegible_of_isReadAs {size : Nat} {items : List Item} (reads : IsReadAs size t items) : IsLegible t := by
  induction reads with
  | nil => exact isLegible_nil
  | @descend size rest items later ih =>
    exact IsLegible.append (s := ['>']) (isLegible_singleton (by decide) (by decide)) ih
  | @sibling size rest items later ih =>
    exact IsLegible.append (s := ['+']) (isLegible_singleton (by decide) (by decide)) ih
  | @climb size rest items later ih =>
    exact IsLegible.append (s := ['^']) (isLegible_singleton (by decide) (by decide)) ih
  | @group size inside rest after multiplier inner items balanced within counted later insideIh ih =>
    rcases Multiplier.read_cases counted with ⟨rfl, -⟩ | ⟨digits, rfl, -, rfl⟩
    · have group := IsLegible.grouped (s := []) insideIh (.inl rfl)
      rw [List.append_nil] at group
      exact group.append ih
    · -- the star and the digits after it belong to the group, and the reading goes on behind them
      have group := IsLegible.grouped (s := '*' :: digits.takeWhile isDigit) insideIh
        (.inr ⟨_, rfl, fun c => List.mem_takeWhile_imp⟩)
      have whole : inside.grouped ++ '*' :: digits =
          inside.grouped ++ '*' :: digits.takeWhile isDigit ++ digits.dropWhile isDigit := by
        rw [List.append_assoc, List.cons_append, List.takeWhile_append_dropWhile]
      rw [whole]
      exact group.append ih
  | token begins run nonempty read later ih =>
    rw [← tokenRun_append run]
    exact (tokenRun_isScanned run).isLegible.append ih

/-- Outside of the spans of a text that is accepted stand allowed characters, white space at the ends of the text and of
the insides of groups, and digits of other scripts after the stars of groups. No other character does. -/
theorem isAllowedChar_of_parseRaw {root : Node} (accepted : parseRaw t = .ok root)
    (there : t.outer = before ++ c :: after) :
    isAllowedChar c = true ∨ isBlank c = true ∧ IsMargin before after ∨
      isDigit c = true ∧ c.isDigit = false ∧ CountsGroup before := by
  obtain ⟨ended, -⟩ := parseRaw_eq_ok_iff.1 accepted
  have legible : IsLegible t.trim := isLegible_of_isReadAs (isReadAs_of_readItems ended)
  obtain ⟨trailing, blankAfter, parts⟩ := exists_eq_append_trim t
  have blankBefore : ∀ e ∈ t.takeWhile isBlank, isBlank e = true := fun e => List.mem_takeWhile_imp
  generalize t.takeWhile isBlank = leading at parts blankBefore
  have shown : t.outer = leading ++ (outer t.trim ++ trailing) := by
    nth_rewrite 1 [parts]
    rw [outer_append_of_forall fun e member => ne_opener_of_isBlank (blankBefore e member), legible.outer_append,
      outer_eq_self fun e member => ne_opener_of_isBlank (blankAfter e member)]
  -- the whole text stands between the beginning and the end
  have fits : AllFit [] t.outer [] := by
    rw [shown]
    exact (allFit_leading blankBefore (by simp)).append
      ((legible.allFit _ _).append (allFit_trailing blankAfter (by simp)))
  have fitting := fits before c after there
  rwa [List.nil_append, List.append_nil] at fitting

/-- An Arabic digit counts a group, though it is not allowed. -/
theorem isAllowedChar_of_parseRaw_groupDigit :
    (∃ root, parseRaw "(a\x7b%\x7d)*\u0663".toList = .ok root) ∧
      outer "(a\x7b%\x7d)*\u0663".toList = "(a\x7b\x7d)*".toList ++ '\u0663' :: [] ∧
      isAllowedChar '\u0663' = false ∧
      (isAllowedChar '\u0663' = true ∨ isBlank '\u0663' = true ∧ IsMargin "(a\x7b\x7d)*".toList [] ∨
        isDigit '\u0663' = true ∧ '\u0663'.isDigit = false ∧ CountsGroup "(a\x7b\x7d)*".toList) := by
  have balanced : Delimiter.round.IsBalanced "a\x7b%\x7d".toList := by decide
  have inside : (readLevel (groupLimit - 1) "a\x7b%\x7d".toList).fault = none := by cbv
  have counted : Multiplier.read "*\u0663".toList = .ok (.times 3, []) := rfl
  have reading : readAbbreviation "(a\x7b%\x7d)*\u0663".toList = _ := readItems_group balanced inside counted
  have ended : (readAbbreviation "(a\x7b%\x7d)*\u0663".toList).fault = none := by
    rw [reading]
    cbv
  have accepted := parseRaw_eq_ok_iff.2 ⟨ended, rfl⟩
  have shown : outer "(a\x7b%\x7d)*\u0663".toList = "(a\x7b\x7d)*".toList ++ '\u0663' :: [] := by cbv
  exact ⟨⟨_, accepted⟩, shown, by decide, isAllowedChar_of_parseRaw accepted shown⟩

end Text

end Shorthand
