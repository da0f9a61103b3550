import Shorthand.Proofs.Multiplier
import Shorthand.Proofs.Reading.Compose
import Shorthand.Proofs.Token

/-! # What is taken into a token

The scan takes token characters, plus signs and whole spans into a token, and nothing else. What is left when the
multiplier is cut off is made up in the same way, for the star of a multiplier stands behind all spans. So the reading of
a token finds an end to every span.

* **`Text.IsScanned`** — a text is made up of token characters, plus signs and whole spans.
* `tokenRun_isScanned`, `Text.IsScanned.cut` — such are the texts of tokens, with and without their multipliers.
* `Text.IsScanned.exists_splitText` — the text in such a token has an end. -/

namespace Shorthand

namespace Text

/-- The text is made up of token characters, plus signs, and balanced texts between square brackets or braces. -/
inductive IsScanned : Text → Prop where
  | nil : IsScanned []
  | char {c rest} (isChar : isTokenChar c = true ∨ c = '+') (later : IsScanned rest) : IsScanned (c :: rest)
  | span {d inside rest} (notRound : d ≠ Delimiter.round) (balanced : d.IsBalanced inside)
    (later : IsScanned rest) : IsScanned (d.opener :: (inside ++ d.closer :: rest))

end Text

/-- What is taken into a token is made up so. -/
theorem tokenRun_isScanned {size : Nat} {t source after : Text} (run : tokenRun size t = .ok (source, after)) :
    source.IsScanned := by
  fun_induction tokenRun size t generalizing source after with
  | case1 =>
    cases run
    exact .nil
  | case2 c rest bracket span following found ih =>
    obtain ⟨⟨taken, left⟩, later, same⟩ := exists_of_map_eq_ok run
    cases same
    -- the delimiter is the one that the first character opens
    obtain ⟨d, notRound, rfl, opened⟩ : ∃ d : Delimiter, d ≠ .round ∧ c = d.opener ∧
        d.span? (c :: rest) = some (span, following) := by
      by_cases square : c = '['
      · exact ⟨.square, by decide, square, by simpa [square] using found⟩
      · have curly : c = '\x7b' := by simpa [square] using bracket
        exact ⟨.curly, by decide, curly, by simpa [square] using found⟩
    obtain ⟨inside, balanced, rfl, -⟩ := Delimiter.isBalanced_of_span? opened
    have whole : d.opener :: (inside ++ [d.closer]) ++ taken = d.opener :: (inside ++ d.closer :: taken) := by
      simp
    rw [whole]
    exact .span notRound balanced (ih later)
  | case3 => cases run
  | case4 c rest notBracket accepted ih =>
    obtain ⟨⟨taken, left⟩, later, same⟩ := exists_of_map_eq_ok run
    cases same
    have isChar : isTokenChar c = true ∨ c = '+' := by
      rcases Bool.or_eq_true_iff.1 accepted with marker | token
      · exact .inr (beq_iff_eq.1 (Bool.and_eq_true_iff.1 marker).1)
      · exact .inl token
    exact .char isChar (ih later)
  | case5 =>
    cases run
    exact .nil

namespace Multiplier

/-- What follows the star of a multiplier at the end of a text are digits and at most a line feed. -/
theorem mem_of_isDigitTail {t : Text} (tail : isDigitTail t = true) :
    ∀ c ∈ t, Text.isDigit c = true ∨ c = '\n' := by
  intro c inside
  rw [← List.takeWhile_append_dropWhile (p := Text.isDigit) (l := t), List.mem_append] at inside
  rcases inside with digit | other
  · exact .inl (List.mem_takeWhile_imp digit)
  · simp only [isDigitTail, Bool.or_eq_true, beq_iff_eq] at tail
    rcases tail with nothing | feed
    · rw [nothing] at other
      exact absurd other List.not_mem_nil
    · rw [feed] at other
      exact .inr (List.mem_singleton.1 other)

/-- A multiplier at the end of a text stands behind any character that is neither a digit nor a star nor a line
feed. -/
theorem splitAtStar?_append_cons {c : Char} (notDigit : Text.isDigit c = false) (notFeed : c ≠ '\n')
    (notStar : c ≠ '*') (before rest : Text) :
    splitAtStar? (before ++ c :: rest) =
      (splitAtStar? rest).map fun found => (before ++ c :: found.1, found.2) := by
  induction before with
  | nil =>
    rw [List.nil_append, splitAtStar?, if_neg (by simp [notStar])]
    rfl
  | cons e before ih =>
    have blocked : isDigitTail (before ++ c :: rest) = false := by
      rw [← Bool.not_eq_true]
      intro tail
      rcases mem_of_isDigitTail tail c (by simp) with digit | feed
      · rw [notDigit] at digit
        cases digit
      · exact notFeed feed
    rw [List.cons_append, splitAtStar?, if_neg (by simp [blocked]), ih, Option.map_map]
    rfl

end Multiplier

/-- A closing delimiter is none of the characters of a multiplier. -/
theorem Delimiter.closer_not_multiplier (d : Delimiter) :
    Text.isDigit d.closer = false ∧ d.closer ≠ '\n' ∧ d.closer ≠ '*' := by
  cases d <;> decide

namespace Text

/-- What stands before a multiplier is made up as the whole. -/
theorem IsScanned.of_splitAtStar? {t rest digits : Text} (scanned : t.IsScanned)
    (found : Multiplier.splitAtStar? t = some (rest, digits)) : rest.IsScanned := by
  induction scanned generalizing rest with
  | nil => cases found
  | char isChar later ih =>
    rw [Multiplier.splitAtStar?] at found
    split at found
    · cases found
      exact .nil
    · obtain ⟨⟨before, after⟩, further, same⟩ := Option.map_eq_some_iff.1 found
      cases same
      exact .char isChar (ih further)
  | @span d inside after notRound balanced later ih =>
    obtain ⟨notDigit, notFeed, notStar⟩ := d.closer_not_multiplier
    rw [← List.cons_append, Multiplier.splitAtStar?_append_cons notDigit notFeed notStar] at found
    obtain ⟨⟨before, after⟩, further, same⟩ := Option.map_eq_some_iff.1 found
    cases same
    rw [List.cons_append]
    exact .span notRound balanced (ih further)

/-- The abbreviation of a token is made up as its text. -/
theorem IsScanned.cut {t rest : Text} {multiplier : Multiplier} (scanned : t.IsScanned)
    (cut : Multiplier.cut t = .ok (rest, multiplier)) : rest.IsScanned := by
  rcases Multiplier.cut_cases cut with ⟨-, rfl, -⟩ | ⟨digits, found, -⟩
  · exact scanned
  · exact scanned.of_splitAtStar? found

/-- Characters that are taken into a token have no part in the search for the text. -/
theorem plain_of_isChar {c : Char} (isChar : isTokenChar c = true ∨ c = '+') :
    c ≠ '[' ∧ c ≠ '(' ∧ c ≠ '\\' ∧ c ≠ '\x7b' := by
  refine ⟨?_, ?_, ?_, ?_⟩ <;> rintro rfl <;> revert isChar <;> decide

/-- The text in a token has an end. -/
theorem IsScanned.exists_splitText {t : Text} (scanned : t.IsScanned) (size : Nat) :
    ∃ split, Token.splitText size t = .ok split := by
  induction scanned with
  | nil => exact ⟨none, Token.splitText_nil⟩
  | @char c rest isChar later ih =>
    obtain ⟨split, found⟩ := ih
    exact ⟨_, by rw [Token.splitText_cons (plain_of_isChar isChar), found]; rfl⟩
  | @span d inside rest notRound balanced later ih =>
    obtain ⟨split, found⟩ := ih
    have span := Delimiter.span?_delimited balanced rest
    cases d with
    | round => exact absurd rfl notRound
    | square =>
      refine ⟨split.map fun found => ('[' :: (inside ++ [']']) ++ found.1, found.2), ?_⟩
      exact (Token.splitText_square span).trans (by rw [found]; rfl)
    | curly => exact ⟨_, Token.splitText_curly span⟩

end Text

end Shorthand
