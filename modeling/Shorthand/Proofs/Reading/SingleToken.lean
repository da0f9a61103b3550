import Shorthand.Proofs.Multiplier
import Shorthand.Proofs.Reading.Compose

/-! # Abbreviations that are one token

A text is a token if its reading is one token, the whole of it; whether the token has a fault does not matter. A token
without a multiplier is a token also with a multiplier after it.

* **`Text.IsToken`** — the text is read as one token.
* `Text.IsToken.readAbbreviation` — its reading.
* `Text.IsToken.append_star` — a token with a multiplier after it is a token. -/

namespace Shorthand

namespace Text

/-- The text is read as one token, the whole of it. -/
def IsToken (t : Text) : Prop := ∃ said, (readAbbreviation t).items = [.token t 0 said]

/-- A text is a token if it is trimmed, begins as a token and is taken into it as a whole. -/
structure IsWhole (t : Text) : Prop where
  /-- Nothing is trimmed. -/
  trimmed : t.trim = t
  /-- Its first character begins a token. -/
  begins : ∃ c rest, t = c :: rest ∧ IsPlainStart c
  /-- The token ends where the text does. -/
  run : tokenRun t.length t = .ok (t, [])

/-- The reading of a text that is taken into a token as a whole is that token. -/
theorem IsWhole.readAbbreviation {t : Text} (whole : IsWhole t) :
    readAbbreviation t = ⟨[.token t 0 (Token.read t).1], (Token.read t).2⟩ := by
  obtain ⟨trimmed, ⟨c, rest, rfl, begins⟩, run⟩ := whole
  rw [Shorthand.readAbbreviation, readLevel, trimmed]
  have nonempty : c :: rest ≠ [] := List.cons_ne_nil c rest
  show readItems groupLimit (998 + 1) _ _ = _
  cases read : Token.read (c :: rest) with
  | mk said fault =>
    cases fault with
    | some fault => rw [readItems_token_of_fault begins run nonempty read, Nat.sub_self]
    | none =>
      rw [readItems_token begins run nonempty read, Nat.sub_self, readItems_nil]
      rfl

/-- A text is a token exactly if it is taken into one as a whole. -/
theorem isToken_iff_isWhole {t : Text} : IsToken t ↔ IsWhole t := by
  constructor
  · rintro ⟨said, items⟩
    obtain ⟨c, rest, after, trimmed, begins, run, -⟩ := tokenRun_of_readItems items
    have whole := tokenRun_append run
    have nothing : after = [] := by
      have counted := congrArg List.length whole
      have shorter := length_trim_le t
      rw [List.length_append] at counted
      exact List.length_eq_zero_iff.1 (by omega)
    subst nothing
    rw [List.append_nil] at whole
    rw [← whole] at trimmed run
    exact ⟨whole.symm, ⟨c, rest, trimmed, begins⟩, run⟩
  · intro whole
    exact ⟨(Token.read t).1, by rw [whole.readAbbreviation]⟩

/-- The reading of a token. -/
theorem IsToken.readAbbreviation {t : Text} (isToken : IsToken t) :
    Shorthand.readAbbreviation t = ⟨[.token t 0 (Token.read t).1], (Token.read t).2⟩ :=
  (isToken_iff_isWhole.1 isToken).readAbbreviation

end Text

/-- An ASCII digit is a token character. -/
theorem isTokenChar_of_isDigit {c : Char} (h : c.isDigit = true) : isTokenChar c = true := by
  simp [isTokenChar, isNameChar, isWordChar, isAlphanumeric, Char.isAlphanum, h]

namespace Text

variable {t digits : Text}

/-- The star and the digits of a multiplier are token characters. -/
theorem isTokenChar_of_mem_star (areDigits : ∀ c ∈ digits, c.isDigit = true) :
    ∀ c ∈ '*' :: digits, isTokenChar c = true := by
  intro c inside
  rcases List.mem_cons.1 inside with rfl | digit
  · decide
  · exact isTokenChar_of_isDigit (areDigits c digit)

/-- A text that ends with a multiplier is trimmed if it does not begin with white space. -/
theorem trim_append_star (begins : ∀ c ∈ t.head?, isBlank c = false) (nonempty : t ≠ [])
    (areDigits : ∀ c ∈ digits, c.isDigit = true) :
    trim (t ++ '*' :: digits) = t ++ '*' :: digits := by
  refine trim_eq_self ?_ ?_
  · rwa [List.head?_append_of_ne_nil _ nonempty]
  · intro c last
    rw [List.getLast?_append_of_ne_nil _ (List.cons_ne_nil '*' digits)] at last
    exact isBlank_of_isTokenChar (isTokenChar_of_mem_star areDigits c (List.mem_of_getLast? last))

/-- A token with a multiplier after it is a token. -/
theorem IsToken.append_star (isToken : IsToken t) (areDigits : ∀ c ∈ digits, c.isDigit = true) :
    IsToken (t ++ '*' :: digits) := by
  obtain ⟨trimmed, ⟨c, rest, rfl, begins⟩, run⟩ := isToken_iff_isWhole.1 isToken
  have notBlank : ∀ e ∈ (c :: rest).head?, isBlank e = false := by
    rintro e ⟨⟩
    exact isBlank_head_of_trim_eq_self trimmed
  refine isToken_iff_isWhole.2 ⟨trim_append_star notBlank (List.cons_ne_nil c rest) areDigits,
    ⟨c, rest ++ '*' :: digits, rfl, begins⟩, ?_⟩
  rw [tokenRun_append_right run rfl, tokenRun_of_forall (isTokenChar_of_mem_star areDigits)]
  rfl

end Text

end Shorthand
