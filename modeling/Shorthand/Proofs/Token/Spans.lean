import Mathlib.Logic.Relation
import Shorthand.Proofs.Reading.Scanned

/-! # The spans of a token

The scan takes whole spans into a token. Afterwards a token is looked through twice more: for its text, when its
multiplier has been cut off, and for its markers, when its text has been cut off as well. These searches do not skip
what the scan skips: they pass over parentheses, protected characters and words, and what they look at is shorter. But
each of their steps leads from a text that is made up of token characters, plus signs and whole spans to another one of
that kind, and in such a text a span that is opened at the beginning has an end. So neither search meets a span without
an end.

* **`Token.nextForText`**, **`Token.nextForMarks`** — the steps of the two searches.
* **`Token.ClosesSpans`** — a search finds the end of every span that is opened where it looks.
* `Token.splitText_eq_error_iff`, `Token.marks_eq_error` — a search without an end to a span ends with a fault.
* `Text.IsScanned.closesSpans`, `Text.IsFront.closesSpans` — the texts of tokens have no such spans.
* `tokenRun_closesSpans` — both searches through a token, and the faults that are left. -/

namespace Shorthand

namespace Token

/-! ## The steps of the searches -/

/-- The text that the search for the text looks at next, if it goes on. -/
def nextForText : Text → Option Text
  | [] => none
  | c :: rest =>
    if c = '[' || c = '(' then
      some ((((if c = '[' then Delimiter.square else Delimiter.round).span? (c :: rest)).map (·.2)).getD rest)
    else if c = '\\' then rest.tail?
    else if c = '\x7b' then none
    else some rest

/-- The text that the search for the markers looks at next, if it goes on. A set has to have an end. -/
def nextForMarks : Text → Option Text
  | [] => none
  | c :: rest =>
    if c = '#' || c = '.' then some (rest.dropWhile isWordChar)
    else if c = '[' then (Delimiter.square.span? (c :: rest)).map (·.2)
    else some rest

/-- A search that goes on like that from a text looks at another one. -/
def Visits (next : Text → Option Text) (t place : Text) : Prop :=
  Relation.ReflTransGen (fun a b => next a = some b) t place

/-- Wherever a search looks, a span that is opened there has an end. -/
def ClosesSpans (next : Text → Option Text) (t : Text) : Prop :=
  ∀ place, Visits next t place → ∀ d : Delimiter, place.head? = some d.opener → ∃ found, d.span? place = some found

variable {size : Nat} {t u : Text}

/-- What each step of a search keeps holds wherever the search looks. -/
theorem Visits.holds {next : Text → Option Text} {Holds : Text → Prop}
    (step : ∀ {t u}, Holds t → next t = some u → Holds u) (start : Holds t) (visits : Visits next t u) : Holds u := by
  induction visits with
  | refl => exact start
  | tail _ goesOn ih => exact step ih goesOn

/-- The search for the text goes on, and what it has passed over stands before what it finds further on; or it has come
to the end; or a text begins, which has to have an end. -/
theorem splitText_cases (t : Text) :
    (∃ u passed, nextForText t = some u ∧ passed ++ u = t ∧ passed ≠ [] ∧ ∀ size,
      splitText size t = (splitText size u).map (Option.map fun found => (passed ++ found.1, found.2))) ∨
    (nextForText t = none ∧ t.head? ≠ some '\x7b' ∧ ∀ size, splitText size t = .ok none) ∨
    (nextForText t = none ∧ t.head? = some '\x7b' ∧ ∀ size, splitText size t =
      match Delimiter.curly.span? t with
      | some (span, _) => .ok (some ([], span.interior))
      | none => .error (.unclosed .curly (size - t.length))) := by
  cases t with
  | nil => exact .inr (.inl ⟨rfl, by simp, fun size => splitText_nil⟩)
  | cons c rest =>
    simp only [nextForText, splitText.eq_def (t := c :: rest)]
    by_cases opens : (c = '[' || c = '(') = true
    · -- a span is passed over as a whole, if it has an end
      simp only [if_pos opens]
      cases found : (if c = '[' then Delimiter.square else Delimiter.round).span? (c :: rest) with
      | none =>
        refine .inl ⟨rest, [c], rfl, rfl, List.cons_ne_nil _ _, fun size => ?_⟩
        split
        · next inside => cases inside
        · rfl
      | some parts =>
        refine .inl ⟨parts.2, parts.1, rfl, Delimiter.span?_append found, pairSpan?_ne_nil found, fun size => ?_⟩
        split
        · next inside =>
          cases inside
          rfl
        · next unclosed => cases unclosed
    · simp only [if_neg opens]
      by_cases protects : c = '\\'
      · -- a backslash protects the next character, if there is one
        simp only [if_pos protects]
        cases rest with
        | nil => exact .inr (.inl ⟨rfl, by simp [protects], fun size => rfl⟩)
        | cons d after => exact .inl ⟨after, [c, d], rfl, rfl, List.cons_ne_nil _ _, fun size => rfl⟩
      · simp only [if_neg protects]
        by_cases brace : c = '\x7b'
        · simp only [if_pos brace]
          exact .inr (.inr ⟨trivial, congrArg some brace, fun size => rfl⟩)
        · simp only [if_neg brace]
          exact .inl ⟨rest, [c], rfl, rfl, List.cons_ne_nil _ _, fun size => rfl⟩

/-- The search for the text is refused exactly if it looks at a text that begins with a brace without an end. -/
theorem splitText_eq_error_iff {fault : AbbreviationFault} :
    splitText size t = .error fault ↔ ∃ place, Visits nextForText t place ∧ place.head? = some '\x7b' ∧
      Delimiter.curly.span? place = none ∧ fault = .unclosed .curly (size - place.length) := by
  constructor
  · intro refused
    induction length : t.length using Nat.strong_induction_on generalizing t with
    | _ n ih =>
      rcases splitText_cases t with ⟨u, passed, goesOn, rfl, nonempty, eq⟩ | ⟨-, -, eq⟩ | ⟨-, brace, eq⟩
      · rw [eq] at refused
        have shorter : u.length < n := by
          have some := List.length_pos_iff.2 nonempty
          rw [List.length_append] at length
          omega
        obtain ⟨place, visits, opens⟩ := ih u.length shorter (eq_error_of_map refused) rfl
        exact ⟨place, .head goesOn visits, opens⟩
      · cases (eq size).symm.trans refused
      · rw [eq] at refused
        cases found : Delimiter.curly.span? t with
        | some parts =>
          rw [found] at refused
          cases refused
        | none =>
          rw [found] at refused
          cases refused
          exact ⟨t, .refl, brace, found, rfl⟩
  · rintro ⟨place, visits, brace, unclosed, rfl⟩
    induction visits using Relation.ReflTransGen.head_induction_on with
    | refl =>
      rcases splitText_cases place with ⟨u, passed, goesOn, -⟩ | ⟨-, other, -⟩ | ⟨-, -, eq⟩
      · obtain ⟨rest, rfl⟩ := List.head?_eq_some_iff.1 brace
        cases goesOn
      · exact absurd brace other
      · rw [eq, unclosed]
    | head goesOn visits ih =>
      rcases splitText_cases _ with ⟨u, passed, goesOn', -, -, eq⟩ | ⟨stops, -⟩ | ⟨stops, -⟩
      · obtain rfl := Option.some.inj (goesOn.symm.trans goesOn')
        rw [eq, ih]
        rfl
      · cases stops.symm.trans goesOn
      · cases stops.symm.trans goesOn

/-- The fault of an attribute set that has an end: there is no attribute in it, or a value is missing. -/
inductive IsSetFault : AbbreviationFault → Prop where
  | emptySet (position : Nat) : IsSetFault (.emptySet position)
  | badValue (name : Text) (position : Nat) : IsSetFault (.badValue name position)

/-- The inside of a set is refused for a value. -/
theorem isSetFault_of_readAll {fault : AbbreviationFault} (refused : Attribute.readAll size t = .error fault) :
    IsSetFault fault := by
  fun_induction Attribute.readAll size t with
  | case1 t fault' found =>
    cases refused
    rw [Attribute.readOne] at found
    split at found
    · cases found
    · split at found
      · split at found
        · cases found
          exact .badValue _ _
        · cases found
      · cases found
  | case2 => cases refused
  | case3 t a rest found ih => exact ih (eq_error_of_map refused)

/-- The search for the markers goes on, and what it finds further on stands behind what it has found, unless a set is
refused; or it has come to the end; or a set begins that has no end. -/
theorem marks_cases (t : Text) :
    (∃ u, nextForMarks t = some u ∧ u.length < t.length ∧ ∀ size,
      (∃ own, marks size t = (marks size u).map (own ++ ·)) ∨ ∃ fault, IsSetFault fault ∧ marks size t = .error fault) ∨
    (t = []) ∨
    (t.head? = some '[' ∧ Delimiter.square.span? t = none ∧ ∀ size,
      marks size t = .error (.unclosedSet (size - t.length))) := by
  cases t with
  | nil => exact .inr (.inl rfl)
  | cons c rest =>
    have shorter : (rest.dropWhile isWordChar).length < (c :: rest).length :=
      Nat.lt_succ_of_le (List.dropWhile_sublist isWordChar).length_le
    by_cases hash : c = '#'
    · subst hash
      refine .inl ⟨_, rfl, shorter, fun size => .inl ⟨[⟨['i', 'd'], rest.takeWhile isWordChar⟩], ?_⟩⟩
      rw [marks, if_pos rfl]
      rfl
    · by_cases dot : c = '.'
      · subst dot
        refine .inl ⟨_, rfl, shorter, fun size => .inl ⟨[⟨['c', 'l', 'a', 's', 's'], rest.takeWhile isWordChar⟩], ?_⟩⟩
        rw [marks, if_neg hash, if_pos rfl]
        rfl
      · by_cases square : c = '['
        · subst square
          cases found : Delimiter.square.span? ('[' :: rest) with
          | none => exact .inr (.inr ⟨rfl, rfl, fun size => marks_square_of_unclosed found⟩)
          | some parts =>
            obtain ⟨span, after⟩ := parts
            refine .inl ⟨after, ?_, Delimiter.span?_length_lt found, fun size => ?_⟩
            · rw [nextForMarks, found]
              rfl
            · cases read : Attribute.readSet span.interior with
              | error fault => exact .inr ⟨fault, isSetFault_of_readAll read, marks_square_of_error found read⟩
              | ok inside =>
                cases inside with
                | nil => exact .inr ⟨_, .emptySet _, marks_square_of_empty found read⟩
                | cons a inside => exact .inl ⟨a :: inside, marks_square found read⟩
        · -- any other character is passed over
          have plain : isMark c = false := by simp [isMark, hash, dot, square]
          refine .inl ⟨rest, ?_, Nat.lt_succ_self _, fun size => .inl ⟨[], ?_⟩⟩
          · simp [nextForMarks, hash, dot, square]
          · rw [marks_cons plain]
            cases marks size rest <;> rfl

/-- The search for the markers is refused for a set, and one that is not closed stands where the search looks. -/
theorem marks_eq_error {fault : AbbreviationFault} (refused : marks size t = .error fault) :
    IsSetFault fault ∨ ∃ place, Visits nextForMarks t place ∧ place.head? = some '[' ∧
      Delimiter.square.span? place = none ∧ fault = .unclosedSet (size - place.length) := by
  induction length : t.length using Nat.strong_induction_on generalizing t with
  | _ n ih =>
    rcases marks_cases t with ⟨u, goesOn, shorter, eq⟩ | rfl | ⟨opens, unclosed, eq⟩
    · rcases eq size with ⟨own, eq⟩ | ⟨other, isSetFault, eq⟩
      · rw [eq] at refused
        refine (ih u.length (length ▸ shorter) (eq_error_of_map refused) rfl).imp_right ?_
        rintro ⟨place, visits, opens⟩
        exact ⟨place, .head goesOn visits, opens⟩
      · cases eq.symm.trans refused
        exact .inl isSetFault
    · rw [marks_nil] at refused
      cases refused
    · cases (eq size).symm.trans refused
      exact .inr ⟨t, .refl, opens, unclosed, rfl⟩

end Token

/-! ## The texts of tokens -/

namespace Text

/-- The text is made up as what stands before the text of a token: of token characters, plus signs, and balanced texts
between square brackets. -/
inductive IsFront : Text → Prop where
  | nil : IsFront []
  | char {c rest} (isChar : isTokenChar c = true ∨ c = '+') (later : IsFront rest) : IsFront (c :: rest)
  | set {inside rest} (balanced : Delimiter.square.IsBalanced inside) (later : IsFront rest) :
    IsFront ('[' :: (inside ++ ']' :: rest))

variable {t u : Text}

/-- A token character or a plus sign opens no span. -/
theorem ne_opener_of_isChar {c : Char} (isChar : isTokenChar c = true ∨ c = '+') (d : Delimiter) : c ≠ d.opener := by
  obtain ⟨square, round, -, curly⟩ := plain_of_isChar isChar
  cases d
  · exact round
  · exact square
  · exact curly

/-- A span that is opened at the beginning of such a text has an end. -/
theorem IsScanned.exists_span (scanned : t.IsScanned) {d : Delimiter} (opens : t.head? = some d.opener) :
    ∃ found, d.span? t = some found := by
  cases scanned with
  | nil => cases opens
  | char isChar later => exact absurd (Option.some.inj opens) (ne_opener_of_isChar isChar d)
  | @span d' inside rest notRound balanced later =>
    obtain rfl : d' = d := by
      revert opens
      cases d' <;> cases d <;> simp [Delimiter.opener]
    exact ⟨_, Delimiter.span?_delimited balanced rest⟩

/-- The search for the text goes on with a text of the same kind. -/
theorem IsScanned.of_next (scanned : t.IsScanned) (goesOn : Token.nextForText t = some u) : u.IsScanned := by
  cases scanned with
  | nil => cases goesOn
  | char isChar later =>
    obtain ⟨square, round, backslash, curly⟩ := plain_of_isChar isChar
    simp only [Token.nextForText, square, round, backslash, curly, decide_false, Bool.or_self, if_false,
      Bool.false_eq_true, Option.some.injEq] at goesOn
    rwa [← goesOn]
  | @span d inside rest notRound balanced later =>
    cases d with
    | round => exact absurd rfl notRound
    | square =>
      have next : Token.nextForText ('[' :: (inside ++ ']' :: rest)) = some rest := by
        rw [Token.nextForText, if_pos (by decide), if_pos rfl, Delimiter.span?_square balanced rest]
        rfl
      cases next.symm.trans goesOn
      exact later
    | curly => cases goesOn

/-- What stands before the text of such a text is of a simpler kind. -/
theorem IsScanned.isFront_element (scanned : t.IsScanned) {size : Nat} {split : Option (Text × Text)}
    (found : Token.splitText size t = .ok split) : (Token.element t split).IsFront := by
  induction scanned generalizing split with
  | nil =>
    rw [Token.splitText_nil] at found
    cases found
    exact .nil
  | @char c rest isChar later ih =>
    rw [Token.splitText_cons (plain_of_isChar isChar)] at found
    obtain ⟨further, found', rfl⟩ := exists_of_map_eq_ok found
    rw [Token.element_cons]
    exact .char isChar (ih found')
  | @span d inside rest notRound balanced later ih =>
    cases d with
    | round => exact absurd rfl notRound
    | square =>
      have span := Delimiter.span?_square balanced rest
      obtain ⟨further, found', rfl⟩ := exists_of_map_eq_ok ((Token.splitText_square span).symm.trans found)
      exact Token.element_set inside rest further ▸ .set balanced (ih found')
    | curly =>
      cases (Token.splitText_curly (Delimiter.span?_curly balanced rest)).symm.trans found
      exact .nil

namespace IsFront

/-- It is a text of a token as well. -/
theorem isScanned (front : t.IsFront) : t.IsScanned := by
  induction front with
  | nil => exact .nil
  | char isChar later ih => exact .char isChar ih
  | set balanced later ih => exact .span (d := .square) (by decide) balanced ih

/-- What follows a word is of the same kind. -/
theorem dropWhile (front : t.IsFront) : IsFront (t.dropWhile isWordChar) := by
  induction front with
  | nil => exact .nil
  | @char c rest isChar later ih =>
    by_cases word : isWordChar c = true
    · rwa [List.dropWhile_cons_of_pos word]
    · rw [List.dropWhile_cons_of_neg word]
      exact .char isChar later
  | set balanced later ih =>
    rw [List.dropWhile_cons_of_neg (by decide)]
    exact .set balanced later

/-- The search for the markers goes on with a text of the same kind. -/
theorem of_next (front : t.IsFront) (goesOn : Token.nextForMarks t = some u) : u.IsFront := by
  cases front with
  | nil => cases goesOn
  | @char c rest isChar later =>
    have square : c ≠ '[' := (plain_of_isChar isChar).1
    unfold Token.nextForMarks at goesOn
    simp only [square, if_false] at goesOn
    split at goesOn
    · cases goesOn
      exact later.dropWhile
    · cases goesOn
      exact later
  | @set inside rest balanced later =>
    have next : Token.nextForMarks ('[' :: (inside ++ ']' :: rest)) = some rest :=
      congrArg (Option.map Prod.snd) (Delimiter.span?_square balanced rest)
    cases next.symm.trans goesOn
    exact later

end IsFront

/-- Wherever the search for the text looks in the text of a token, spans have an end. -/
theorem IsScanned.closesSpans (scanned : t.IsScanned) : Token.ClosesSpans Token.nextForText t := by
  intro place visits d opens
  exact (visits.holds IsScanned.of_next scanned).exists_span opens

/-- Wherever the search for the markers looks in what stands before the text, spans have an end. -/
theorem IsFront.closesSpans (front : t.IsFront) : Token.ClosesSpans Token.nextForMarks t := by
  intro place visits d opens
  exact (visits.holds IsFront.of_next front).isScanned.exists_span opens

end Text

/-! ## The faults of tokens -/

namespace Multiplier

/-- A multiplier is refused exactly if it has too many digits. -/
theorem cut_eq_error_iff {t : Text} {cause : IntegerFault} :
    cut t = .error cause ↔ ∃ before digits, splitAtStar? t = some (before, digits) ∧
      IntegerFault.digitLimit < digits.length ∧ cause = .tooLong digits.length := by
  unfold cut
  constructor
  · intro refused
    split at refused
    · cases refused
    · next before digits found => exact ⟨before, digits, found, ofDigits_eq_error_iff.1 (eq_error_of_map refused)⟩
  · rintro ⟨before, digits, found, long⟩
    rw [found]
    dsimp only
    rw [ofDigits_eq_error_iff.2 long]
    rfl

end Multiplier

namespace Token

/-- Why a token is refused that the scan has found. None of these faults is about a span without an end. -/
inductive IsRefusal (source : Text) : Fault → Prop where
  /-- A set has no attribute, or a value is missing in it. -/
  | set {cause : AbbreviationFault} (isSetFault : IsSetFault cause) : IsRefusal source cause
  /-- What stands before the markers and the text is no element name. -/
  | badName (name : Text) : IsRefusal source (AbbreviationFault.badName name)
  /-- The number of the multiplier has too many digits. -/
  | tooLong {before digits : Text} (found : Multiplier.splitAtStar? source = some (before, digits))
    (long : 4300 < digits.length) : IsRefusal source (IntegerFault.tooLong digits.length)

/-- In the texts of tokens both searches close all spans, so that only the other faults are left. -/
theorem isRefusal_of_isScanned {source : Text} (scanned : source.IsScanned) {said : Token} {fault : Fault}
    (refused : Token.read source = (said, some fault)) : IsRefusal source fault := by
  unfold Token.read at refused
  split at refused
  · next cause cut =>
    cases refused
    obtain ⟨before, digits, found, long, rfl⟩ := Multiplier.cut_eq_error_iff.1 cut
    exact .tooLong found long
  · next abbreviation multiplier cut =>
    have kept := scanned.cut cut
    dsimp only at refused
    split at refused
    · next cause noText =>
      -- a text without an end would have been met
      obtain ⟨place, visits, brace, unclosed, -⟩ := splitText_eq_error_iff.1 noText
      obtain ⟨found, closed⟩ := kept.closesSpans place visits .curly brace
      cases unclosed.symm.trans closed
    · next split noFault =>
      split at refused
      · next cause noMarks =>
        cases refused
        rcases marks_eq_error (eq_error_of_map noMarks) with isSetFault | ⟨place, visits, square, unclosed, -⟩
        · exact .set isSetFault
        · obtain ⟨found, closed⟩ := (kept.isFront_element noFault).closesSpans place visits .square square
          cases unclosed.symm.trans closed
      · split at refused
        · cases refused
        · cases refused
          exact .badName _

end Token

/-- The scan of a token and the searches through it agree on spans. Where a token is looked through for its text, and
what stands before the text for markers, each span that is opened where a search looks has its end in what is looked
through. So a token that is refused is refused for an attribute set that has an end, for its name, or for a number that
is too long. -/
theorem tokenRun_closesSpans {size : Nat} {t source after : Text} (run : tokenRun size t = .ok (source, after)) :
    (∀ abbreviation multiplier, Multiplier.cut source = .ok (abbreviation, multiplier) →
      Token.ClosesSpans Token.nextForText abbreviation ∧
        ∃ split, Token.splitText abbreviation.length abbreviation = .ok split ∧
          Token.ClosesSpans Token.nextForMarks (Token.element abbreviation split)) ∧
      ∀ said fault, Token.read source = (said, some fault) → Token.IsRefusal source fault := by
  have scanned := tokenRun_isScanned run
  refine ⟨fun abbreviation multiplier cut => ?_, fun said fault => Token.isRefusal_of_isScanned scanned⟩
  have kept := scanned.cut cut
  obtain ⟨split, found⟩ := kept.exists_splitText abbreviation.length
  exact ⟨kept.closesSpans, split, found, (kept.isFront_element found).closesSpans⟩

/-- A set with a parenthesis and a brace in it is closed, and it is refused because a value is missing. -/
theorem tokenRun_closesSpans_badValue :
    tokenRun 11 "a[b= (\x7b]\x7bc\x7d".toList = .ok ("a[b= (\x7b]\x7bc\x7d".toList, []) ∧
      Token.ClosesSpans Token.nextForText "a[b= (\x7b]\x7bc\x7d".toList ∧
      Token.IsRefusal "a[b= (\x7b]\x7bc\x7d".toList (AbbreviationFault.badValue ['b'] 2) := by
  have run : tokenRun 11 "a[b= (\x7b]\x7bc\x7d".toList = .ok ("a[b= (\x7b]\x7bc\x7d".toList, []) := by cbv
  obtain ⟨spans, faults⟩ := tokenRun_closesSpans run
  refine ⟨run, (spans _ .absent (by cbv)).1, faults _ _ (Prod.ext rfl ?_)⟩
  cbv

/-- A text that the scan does not take may have a span without an end. -/
example : (Token.read "a\x7bb".toList).2 = some (AbbreviationFault.unclosed .curly 1) := by cbv

end Shorthand
