import Mathlib.Tactic.IntervalCases
import Mathlib.Tactic.SplitIfs
import Shorthand.Fault

/-! # Messages of one line

Quoted text and numbers hold no line feed: the quoted form escapes it. So the message of a fault is one line, whatever
stands in the abbreviation that it quotes.

* `lineFeed_not_mem_quoted` — quoted text is one line.
* `AbbreviationFault.lineFeed_not_mem_message` — the message of a fault of an abbreviation is one line. -/

namespace Shorthand

namespace Text

/-- The digits of a number in any base are no line feeds. -/
theorem lineFeed_ne_digitChar (d : Nat) : '\n' ≠ Nat.digitChar d := by
  rcases Nat.lt_or_ge d 16 with digit | beyond
  · interval_cases d <;> decide
  · -- there are no more digits, and an asterisk stands for what is none
    simp only [Nat.digitChar]
    repeat rw [if_neg (by omega)]
    decide

/-- A number is written without line feeds. -/
theorem lineFeed_not_mem_toDigits {base : Nat} (large : 1 < base) (n : Nat) :
    '\n' ∉ Nat.toDigits base n := by
  induction n using Nat.strongRecOn with
  | ind n ih =>
    by_cases one : n < base
    · rw [Nat.toDigits_of_lt_base one, List.mem_singleton]
      exact lineFeed_ne_digitChar n
    · rw [Nat.toDigits_of_base_le large (Nat.not_lt.1 one), List.mem_append, List.mem_singleton]
      have before := ih (n / base) (Nat.div_lt_self (by omega) large)
      exact not_or.2 ⟨before, lineFeed_ne_digitChar _⟩

/-- So is a decimal number. -/
theorem lineFeed_not_mem_ofNat (n : Nat) : '\n' ∉ ofNat n :=
  lineFeed_not_mem_toDigits (by decide) n

/-- So is a code point. -/
theorem lineFeed_not_mem_hex (width n : Nat) : '\n' ∉ hex width n := by
  rw [hex, List.mem_append]
  refine not_or.2 ⟨fun inside => ?_, lineFeed_not_mem_toDigits (by decide) n⟩
  have zero := List.eq_of_mem_replicate inside
  revert zero
  decide

/-- The written form of a character between quotes is no line feed. -/
theorem lineFeed_not_mem_escaped {quote : Char} (visible : quote ≠ '\n') (c : Char) :
    '\n' ∉ escaped quote c := by
  unfold escaped
  split_ifs with own tab feed ret printable short middle
  · have notBackslash : '\n' ≠ '\\' := by decide
    have notOwn : '\n' ≠ c := by
      rintro rfl
      rcases Bool.or_eq_true_iff.1 own with same | same
      · exact visible (of_decide_eq_true same).symm
      · exact notBackslash (of_decide_eq_true same)
    simp [notBackslash, notOwn]
  · decide
  · decide
  · decide
  · rw [List.mem_singleton]
    exact fun same => feed same.symm
  · simpa using lineFeed_not_mem_hex 2 c.toNat
  · simpa using lineFeed_not_mem_hex 4 c.toNat
  · simpa using lineFeed_not_mem_hex 8 c.toNat

/-- Quoted text is one line. -/
theorem lineFeed_not_mem_quoted (t : Text) : '\n' ∉ quoted t := by
  have visible : quoteFor t ≠ '\n' := by
    unfold quoteFor
    split_ifs <;> decide
  simp only [quoted, List.mem_cons, List.mem_append, List.mem_flatMap, List.not_mem_nil, or_false]
  rintro (same | ⟨c, -, inside⟩ | same)
  · exact visible same.symm
  · exact lineFeed_not_mem_escaped visible c inside
  · exact visible same.symm

end Text

/-- The message of a fault of an abbreviation is one line. -/
theorem AbbreviationFault.lineFeed_not_mem_message (cause : AbbreviationFault) :
    '\n' ∉ cause.message := by
  have number := Text.lineFeed_not_mem_ofNat
  have text := Text.lineFeed_not_mem_quoted
  unfold message
  cases cause with
  | unclosed d position =>
    have closer : '\n' ∉ [d.closer] := by cases d <;> decide
    simp only [List.mem_append, not_or]
    exact ⟨⟨⟨by decide, closer⟩, by decide⟩, number position⟩
  | unclosedSet position | emptySet position =>
    simp only [List.mem_append, not_or]
    exact ⟨by decide, number position⟩
  | badValue name position =>
    simp only [List.mem_append, not_or]
    exact ⟨⟨⟨by decide, text name⟩, by decide⟩, number position⟩
  | badName name =>
    simp only [List.mem_append, not_or]
    exact ⟨by decide, text name⟩
  | strayChar c position =>
    simp only [List.mem_append, not_or]
    exact ⟨⟨⟨by decide, text [c]⟩, by decide⟩, number position⟩
  | tooManySteps position =>
    simp only [List.mem_append, not_or]
    exact ⟨⟨by decide, number stepLimit⟩, by decide⟩
  | groupsTooDeep =>
    simp only [List.mem_append, not_or]
    exact ⟨⟨by decide, number groupLimit⟩, by decide⟩
  | treeTooDeep => decide

end Shorthand
