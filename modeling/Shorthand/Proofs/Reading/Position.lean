import Shorthand.Proofs.Token.Spans
import Shorthand.Reading.Spine

/-! # Where a fault is reported

A fault of the scan names a character and its position. The position is counted in the level that is read: the
abbreviation without the white space at its ends, or the inside of a group without the white space at its ends. So the
position finds the character in the text from the place on where the level begins, and in the text itself only if the
level begins where the text does.

* **`Text.IsLevel`** — a level of a text, and the place where it begins.
* **`AbbreviationFault.IsAbout`** — what a fault of the scan says of a level.
* `readItems_isAbout` — a fault is about the level in which it is found.
* `parseRaw_position` — the character stands at the position, counted from the beginning of its level. -/

namespace Shorthand

namespace Text

/-- The abbreviation without the white space at its ends is a level of it, and so is the inside of a group of a level
without the white space at its ends. A level begins at a place of the text. -/
inductive IsLevel (t : Text) : Nat → Text → Prop where
  | outer : IsLevel t (t.takeWhile isBlank).length t.trim
  | inner {offset before inside after} (around : IsLevel t offset (before ++ (inside.grouped ++ after)))
    (balanced : Delimiter.round.IsBalanced inside) :
    IsLevel t (offset + (before.length + 1 + (inside.takeWhile isBlank).length)) inside.trim

variable {t level : Text} {offset : Nat}

/-- A level stands in the text at its place. -/
theorem IsLevel.exists_eq_append (isLevel : IsLevel t offset level) :
    ∃ before after, t = before ++ (level ++ after) ∧ before.length = offset := by
  induction isLevel with
  | outer =>
    obtain ⟨trailing, -, whole⟩ := exists_eq_append_trim t
    exact ⟨_, trailing, whole, rfl⟩
  | @inner offset before inside after around balanced ih =>
    obtain ⟨start, rest, whole, rfl⟩ := ih
    obtain ⟨trailing, -, parts⟩ := exists_eq_append_trim inside
    refine ⟨start ++ (before ++ '(' :: inside.takeWhile isBlank), trailing ++ ')' :: (after ++ rest), ?_, ?_⟩
    · rw [whole]
      nth_rewrite 1 [grouped, parts]
      simp
    · simp only [List.length_append, List.length_cons]
      omega

/-- What stands at a position of a level stands in the text, counted from where the level begins. -/
theorem IsLevel.getElem?_add (isLevel : IsLevel t offset level) {p : Nat} {c : Char}
    (there : level[p]? = some c) : t[offset + p]? = some c := by
  obtain ⟨before, after, rfl, rfl⟩ := isLevel.exists_eq_append
  have inside := (List.getElem?_eq_some_iff.1 there).1
  rw [List.getElem?_append_right (Nat.le_add_right ..), Nat.add_sub_cancel_left,
    List.getElem?_append_left inside, there]

/-- A text without groups has no level but the outer one. -/
theorem IsLevel.eq_outer (isLevel : IsLevel t offset level) (noGroup : '(' ∉ t ∨ ')' ∉ t) :
    offset = (t.takeWhile isBlank).length ∧ level = t.trim := by
  cases isLevel with
  | outer => exact ⟨rfl, rfl⟩
  | inner around balanced =>
    obtain ⟨start, rest, rfl, -⟩ := around.exists_eq_append
    simp [grouped] at noGroup

/-- The text is what is ahead in a level of the given size that begins at a place of the whole text. -/
def IsAhead (whole : Text) (offset size : Nat) (t : Text) : Prop :=
  ∃ before, IsLevel whole offset (before ++ t) ∧ size = (before ++ t).length

/-- At the beginning of a level all of it is ahead. -/
theorem IsLevel.isAhead (isLevel : IsLevel t offset level) : IsAhead t offset level.length level :=
  ⟨[], isLevel, rfl⟩

/-- What is left of it is ahead later on. -/
theorem IsAhead.of_isSuffix {size : Nat} {ahead rest : Text} (isAhead : IsAhead t offset size ahead)
    (left : rest <:+ ahead) : IsAhead t offset size rest := by
  obtain ⟨before, isLevel, sized⟩ := isAhead
  obtain ⟨taken, rfl⟩ := left
  rw [← List.append_assoc] at isLevel sized
  exact ⟨before ++ taken, isLevel, sized⟩

/-- It is found at the position that its length tells. -/
theorem IsAhead.exists_drop_eq {size : Nat} {ahead : Text} (isAhead : IsAhead t offset size ahead) :
    ∃ level, IsLevel t offset level ∧ level.drop (size - ahead.length) = ahead := by
  obtain ⟨before, isLevel, rfl⟩ := isAhead
  refine ⟨_, isLevel, ?_⟩
  rw [List.length_append, Nat.add_sub_cancel, List.drop_left]

end Text

namespace AbbreviationFault

/-- The character that a fault of the scan names, and the position that is reported. -/
def named? : AbbreviationFault → Option (Char × Nat)
  | unclosed d position => some (d.opener, position)
  | strayChar c position => some (c, position)
  | _ => none

/-- What a fault of the scan says of a level: at the position a span opens that has no end, or there stands a character
that begins no item. The other faults say nothing about characters of the level. -/
def IsAbout (level : Text) : AbbreviationFault → Prop
  | unclosed d position => ∃ rest, level.drop position = d.opener :: rest ∧ d.span? (d.opener :: rest) = none
  | strayChar c position => (∃ rest, level.drop position = c :: rest) ∧ isTokenChar c = false ∧
      c ∉ ['(', '[', '\x7b', '>', '+', '^']
  | _ => True

/-- A fault that names no character says nothing about the characters of a level. -/
theorem isAbout_of_named?_eq_none {cause : AbbreviationFault} (nameless : cause.named? = none)
    (level : Text) : cause.IsAbout level := by
  cases cause <;> trivial

/-- The character that is named stands at the position that is reported. -/
theorem IsAbout.getElem?_eq {cause : AbbreviationFault} {level : Text} (about : cause.IsAbout level)
    {c : Char} {p : Nat} (names : cause.named? = some (c, p)) : level[p]? = some c := by
  have first : ∀ rest, level.drop p = c :: rest → level[p]? = some c := by
    intro rest dropped
    rw [← List.head?_drop, dropped]
    rfl
  cases cause with
  | unclosed d position =>
    cases names
    obtain ⟨rest, dropped, -⟩ := about
    exact first rest dropped
  | strayChar c position =>
    cases names
    obtain ⟨⟨rest, dropped⟩, -⟩ := about
    exact first rest dropped
  | _ => cases names

end AbbreviationFault

/-! ## The faults of tokens -/

/-- A token that the scan has found is refused without a character being named. -/
theorem Token.named?_of_read {source : Text} {cause : AbbreviationFault} (scanned : source.IsScanned)
    (refused : (Token.read source).2 = some (.abbreviation cause)) : cause.named? = none := by
  cases Token.isRefusal_of_isScanned scanned (Prod.ext rfl refused) with
  | set isSetFault => cases isSetFault <;> rfl
  | badName => rfl

/-! ## The faults of levels -/

/-- A span that has no end refuses a token, at the place where it opens. -/
theorem eq_unclosed_of_tokenRun {size : Nat} {t : Text} {cause : AbbreviationFault}
    (refused : tokenRun size t = .error cause) :
    ∃ before d rest, t = before ++ d.opener :: rest ∧ d.span? (d.opener :: rest) = none ∧
      cause = .unclosed d (size - (rest.length + 1)) := by
  fun_induction tokenRun size t with
  | case1 => cases refused
  | case2 c rest bracket span after found ih =>
    obtain ⟨before, d, more, rfl, open_, rfl⟩ := ih (eq_error_of_map refused)
    refine ⟨span ++ before, d, more, ?_, open_, rfl⟩
    rw [List.append_assoc]
    exact (Delimiter.span?_append found).symm
  | case3 c rest bracket opened unclosed =>
    cases refused
    by_cases square : c = '['
    · subst square
      exact ⟨[], .square, rest, rfl, unclosed, rfl⟩
    · obtain rfl : c = '\x7b' := by simpa [square] using bracket
      exact ⟨[], .curly, rest, rfl, unclosed, rfl⟩
  | case4 c rest _ _ ih =>
    obtain ⟨before, d, more, rfl, open_, rfl⟩ := ih (eq_error_of_map refused)
    exact ⟨c :: before, d, more, rfl, open_, rfl⟩
  | case5 => cases refused

/-- A character of which nothing is taken into a token begins none. -/
theorem not_isTokenChar_of_tokenRun {size : Nat} {c : Char} {rest after : Text}
    (run : tokenRun size (c :: rest) = .ok ([], after)) :
    isTokenChar c = false ∧ c ≠ '[' ∧ c ≠ '\x7b' := by
  generalize whole : c :: rest = t at run
  revert run
  fun_cases tokenRun size t with
  | case1 => cases whole
  | case2 c' rest' bracket span following found =>
    intro run
    obtain ⟨⟨taken, left⟩, -, same⟩ := exists_of_map_eq_ok run
    have nonempty := pairSpan?_ne_nil found
    simp [nonempty] at same
  | case3 =>
    intro run
    cases run
  | case4 c' rest' _ accepted =>
    intro run
    obtain ⟨⟨taken, left⟩, -, same⟩ := exists_of_map_eq_ok run
    cases same
  | case5 c' rest' noSpan stops =>
    intro run
    cases whole
    simp only [Bool.or_eq_true, decide_eq_true_eq, not_or] at noSpan
    simp only [Bool.or_eq_true, not_or, Bool.not_eq_true] at stops
    exact ⟨stops.2, noSpan⟩

/-- A fault of the scan is about the level in which it is found: the one that is read, or one inside of its groups. -/
theorem readItems_isAbout {groups steps size : Nat} {t whole : Text} {cause : AbbreviationFault}
    (refused : (readItems groups steps size t).fault = some (.abbreviation cause)) :
    ∀ offset, whole.IsAhead offset size t → ∃ offset level, whole.IsLevel offset level ∧ cause.IsAbout level := by
  fun_induction readItems groups steps size t with
  | case1 => cases refused
  | case2 | case4 =>
    intro offset isAhead
    cases refused
    obtain ⟨level, isLevel, -⟩ := isAhead.exists_drop_eq
    exact ⟨offset, level, isLevel, trivial⟩
  | case3 groups size rest steps unclosed =>
    intro offset isAhead
    cases refused
    obtain ⟨level, isLevel, dropped⟩ := isAhead.exists_drop_eq
    exact ⟨offset, level, isLevel, rest, dropped, unclosed⟩
  | case5 size rest steps span after groups inside reading fault ended found ih =>
    intro offset isAhead
    cases refused
    obtain ⟨before, isLevel, -⟩ := isAhead
    obtain ⟨interior, balanced, rfl, rfl⟩ := Delimiter.isBalanced_of_span? (d := .round) found
    have sameInside : inside = interior.trim := congrArg Text.trim (Text.interior_delimited ..)
    have group : '(' :: (interior ++ Delimiter.round.closer :: after) = interior.grouped ++ after :=
      (Text.grouped_append interior after).symm
    rw [group] at isLevel
    have isInner := isLevel.inner balanced
    rw [← sameInside] at isInner
    exact ih ended _ isInner.isAhead
  | case6 => cases refused
  | case7 size rest steps span after groups inside reading ended multiplier next counted found _ ih =>
    intro offset isAhead
    exact ih refused offset
      (isAhead.of_isSuffix ((Multiplier.read_isSuffix counted).trans (Delimiter.rest_isSuffix found)))
  | case8 groups size rest steps _ ih | case9 groups size rest steps _ _ ih
  | case10 groups size rest steps _ _ _ ih =>
    intro offset isAhead
    exact ih refused offset (isAhead.of_isSuffix (List.suffix_cons ..))
  | case11 groups size c rest steps notGroup notDescend notSibling notClimb fault run =>
    intro offset isAhead
    cases refused
    obtain ⟨taken, d, left, same, unclosed, rfl⟩ := eq_unclosed_of_tokenRun run
    obtain ⟨level, isLevel, dropped⟩ := (isAhead.of_isSuffix ⟨taken, same.symm⟩).exists_drop_eq
    exact ⟨offset, level, isLevel, left, dropped, unclosed⟩
  | case12 groups size c rest steps notGroup notDescend notSibling notClimb after run =>
    intro offset isAhead
    cases refused
    obtain ⟨noToken, noSquare, noCurly⟩ := not_isTokenChar_of_tokenRun run
    obtain ⟨level, isLevel, dropped⟩ := isAhead.exists_drop_eq
    refine ⟨offset, level, isLevel, ⟨rest, dropped⟩, noToken, ?_⟩
    simp [notGroup, notDescend, notSibling, notClimb, noSquare, noCurly]
  | case13 groups size c rest steps _ _ _ _ source after nonempty run token fault said =>
    intro offset isAhead
    cases refused
    obtain ⟨level, isLevel, -⟩ := isAhead.exists_drop_eq
    have nameless := Token.named?_of_read (tokenRun_isScanned run) (by rw [said])
    exact ⟨offset, level, isLevel, AbbreviationFault.isAbout_of_named?_eq_none nameless level⟩
  | case14 groups size c rest steps _ _ _ _ source after nonempty run token _ ih =>
    intro offset isAhead
    exact ih refused offset (isAhead.of_isSuffix ⟨source, tokenRun_append run⟩)

/-- Where a fault names a character, the character stands at the reported position of a level, and so in the text at that
position counted from where the level begins. It is a delimiter that opens a span without an end, or a character that
begins no item. In a text without white space before it and without groups the position is that in the text. -/
theorem parseRaw_position {t : Text} {cause : AbbreviationFault} {c : Char} {p : Nat}
    (refused : parseRaw t = .error (.abbreviation cause)) (names : cause.named? = some (c, p)) :
    ∃ offset level, t.IsLevel offset level ∧ cause.IsAbout level ∧ level[p]? = some c ∧
      t[offset + p]? = some c ∧
      ((∀ e ∈ t.head?, Text.isBlank e = false) → ('(' ∉ t ∨ ')' ∉ t) → t[p]? = some c) := by
  have ended : (readItems groupLimit (stepLimit - 1) t.trim.length t.trim).fault =
      some (.abbreviation cause) := by
    unfold parseRaw at refused
    cases fault : (readAbbreviation t).fault with
    | none => simp [fault] at refused
    | some other =>
      simp only [fault, Except.error.injEq] at refused
      rw [← refused]
      exact fault
  obtain ⟨offset, level, isLevel, about⟩ := readItems_isAbout ended _ Text.IsLevel.outer.isAhead
  have there := about.getElem?_eq names
  have found := isLevel.getElem?_add there
  refine ⟨offset, level, isLevel, about, there, found, ?_⟩
  intro begins noGroup
  have noBlank : (t.takeWhile Text.isBlank).length = 0 := by
    cases t with
    | nil => rfl
    | cons e rest => rw [List.takeWhile_cons_of_neg (by rw [begins e rfl]; decide), List.length_nil]
  rwa [(isLevel.eq_outer noGroup).1, noBlank, Nat.zero_add] at found

/-- A stray character inside of a group after white space: its position is reported as 1, and it stands at 3. -/
theorem parseRaw_position_grouped :
    parseRaw "( a%)".toList = .error (.abbreviation (.strayChar '%' 1)) ∧
      "( a%)".toList[1]? = some ' ' ∧
      ∃ offset level, Text.IsLevel "( a%)".toList offset level ∧ level[1]? = some '%' ∧
        "( a%)".toList[offset + 1]? = some '%' := by
  have refused : parseRaw "( a%)".toList = .error (.abbreviation (.strayChar '%' 1)) := by cbv
  obtain ⟨offset, level, isLevel, -, there, found, -⟩ := parseRaw_position refused rfl
  exact ⟨refused, rfl, offset, level, isLevel, there, found⟩

end Shorthand
