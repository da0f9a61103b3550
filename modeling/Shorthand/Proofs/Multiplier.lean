import Mathlib.Data.List.Basic
import Mathlib.Data.List.TakeWhile
import Shorthand.Alphabet
import Shorthand.Token

/-! # Written multipliers

A star and ASCII digits after a token that has no multiplier are its multiplier, and after a group they are the
multiplier of the group. Both read the same number, and what else the token says does not depend on it.

* `Text.numberOf_ofNat` — a number is read back from its decimal text.
* `Multiplier.cut_append`, `Multiplier.read_star` — a written multiplier is cut off a token and read after a group.
* `Token.read_of_cut` — a token says the same with and without a multiplier. -/

namespace Shorthand

namespace Text

/-- The value of an ASCII digit. -/
theorem digitValue?_of_isDigit {c : Char} (h : c.isDigit = true) :
    digitValue? c = some (c.toNat - '0'.toNat) := by
  have bounds : 48 ≤ c.toNat ∧ c.toNat ≤ 57 := by
    simpa [Char.isDigit, UInt32.le_iff_toNat_le] using h
  -- the first block of digits is the ASCII one
  have found : (digitZeros.find? fun start => start ≤ c.toNat && c.toNat < start + 10) = some 48 := by
    refine List.find?_cons_of_pos ?_
    simp only [Bool.and_eq_true, decide_eq_true_eq]
    omega
  rw [digitValue?, found]
  rfl

/-- An ASCII digit is a digit. -/
theorem isDigit_of_isDigit {c : Char} (h : c.isDigit = true) : isDigit c = true := by
  rw [isDigit, digitValue?_of_isDigit h]
  rfl

/-- The number that a text of ASCII digits denotes. -/
theorem numberOf_eq_ofDigitChars {t : Text} (digits : ∀ c ∈ t, c.isDigit = true) :
    numberOf t = Nat.ofDigitChars 10 t 0 := by
  have values : t.filterMap digitValue? = t.map fun c => c.toNat - '0'.toNat := by
    rw [← List.filterMap_eq_map]
    exact List.filterMap_congr fun c inside => digitValue?_of_isDigit (digits c inside)
  rw [numberOf, values, ofDigitValues, List.foldl_map]
  rfl

/-- The decimal text of a number consists of ASCII digits. -/
theorem isDigit_of_mem_ofNat {n : Nat} : ∀ c ∈ ofNat n, c.isDigit = true := fun _ inside =>
  Nat.isDigit_of_mem_toDigits (by decide) (by decide) inside

/-- A number is read back from its decimal text. -/
theorem numberOf_ofNat (n : Nat) : numberOf (ofNat n) = n := by
  rw [numberOf_eq_ofDigitChars isDigit_of_mem_ofNat, ofNat]
  exact Nat.ofDigitChars_toDigits (by decide) (by decide)

/-- A number has digits. -/
theorem ofNat_ne_nil (n : Nat) : ofNat n ≠ [] := Nat.toDigits_ne_nil

end Text

namespace Multiplier

variable {t digits : Text}

/-- A star is no digit. -/
theorem not_isDigit_star : Text.isDigit '*' = false := by decide

/-- Digits alone are the end of a multiplier. -/
theorem isDigitTail_of_forall (areDigits : ∀ c ∈ digits, Text.isDigit c = true) :
    isDigitTail digits = true := by
  rw [isDigitTail, List.dropWhile_eq_nil_iff.2 areDigits]
  rfl

/-- What holds a star is not the end of a multiplier. -/
theorem not_isDigitTail_append_star (t digits : Text) : isDigitTail (t ++ '*' :: digits) = false := by
  have star : '*' ∈ (t ++ '*' :: digits).dropWhile Text.isDigit := by
    rw [List.dropWhile_append]
    split
    · rw [List.dropWhile_cons_of_neg (by simp [not_isDigit_star])]
      exact List.mem_cons_self
    · exact List.mem_append_right _ List.mem_cons_self
  rw [isDigitTail]
  generalize (t ++ '*' :: digits).dropWhile Text.isDigit = rest at star
  -- neither nothing nor a line feed holds a star
  have notEmpty : rest ≠ [] := List.ne_nil_of_mem star
  have notFeed : rest ≠ ['\n'] := by
    rintro rfl
    revert star
    decide
  simp [notEmpty, notFeed]

/-- Digits after a star end a text without a multiplier of its own. -/
theorem splitAtStar?_append (plain : splitAtStar? t = none)
    (areDigits : ∀ c ∈ digits, Text.isDigit c = true) :
    splitAtStar? (t ++ '*' :: digits) = some (t, digits) := by
  induction t with
  | nil =>
    have all : digits.takeWhile Text.isDigit = digits := List.takeWhile_eq_self_iff.2 areDigits
    rw [List.nil_append, splitAtStar?, if_pos (by simp [isDigitTail_of_forall areDigits]), all]
  | cons c t ih =>
    rw [splitAtStar?] at plain
    split at plain
    · cases plain
    · rw [List.cons_append, splitAtStar?, if_neg (by simp [not_isDigitTail_append_star]),
        ih (Option.map_eq_none_iff.1 plain)]
      rfl

/-- A text without a star has no multiplier. -/
theorem splitAtStar?_eq_none (plain : ∀ c ∈ t, c ≠ '*') : splitAtStar? t = none := by
  induction t with
  | nil => rfl
  | cons c t ih =>
    have notStar := plain c List.mem_cons_self
    rw [splitAtStar?, if_neg (by simp [notStar]),
      ih fun e inside => plain e (List.mem_cons_of_mem c inside)]
    rfl

/-- Nothing is cut off a text exactly if it has no multiplier. -/
theorem cut_eq_absent_iff : cut t = .ok (t, .absent) ↔ splitAtStar? t = none := by
  constructor
  · intro h
    cases found : splitAtStar? t with
    | none => rfl
    | some parts =>
      obtain ⟨rest, digits⟩ := parts
      -- a multiplier that is cut off is there
      simp only [cut, found, ofDigits] at h
      split at h
      · cases h
      · cases value : Text.readDigits digits with
        | error fault =>
          rw [value] at h
          cases h
        | ok n =>
          rw [value] at h
          cases h
  · intro h
    rw [cut, h]

/-- The multiplier of ASCII digits. -/
theorem ofDigits_of_isDigit (nonempty : digits ≠ []) (short : digits.length ≤ IntegerFault.digitLimit) :
    ofDigits digits = .ok (ofInt (Text.numberOf digits)) := by
  rw [ofDigits, if_neg nonempty, Text.readDigits_of_length_le short]
  rfl

/-- Digits are no multiplier exactly if they are too many. -/
theorem ofDigits_eq_error_iff {cause : IntegerFault} :
    ofDigits digits = .error cause ↔ IntegerFault.digitLimit < digits.length ∧ cause = .tooLong digits.length := by
  rw [← Text.readDigits_eq_error_iff]
  unfold ofDigits
  by_cases bare : digits = []
  · simp [bare, Text.readDigits]
  · rw [if_neg bare]
    cases Text.readDigits digits <;> simp [Except.map]

/-- A written multiplier is cut off the text before it. -/
theorem cut_append (plain : cut t = .ok (t, .absent))
    (areDigits : ∀ c ∈ digits, c.isDigit = true) (nonempty : digits ≠ [])
    (short : digits.length ≤ IntegerFault.digitLimit) :
    cut (t ++ '*' :: digits) = .ok (t, ofInt (Text.numberOf digits)) := by
  have split := splitAtStar?_append (cut_eq_absent_iff.1 plain)
    fun c inside => Text.isDigit_of_isDigit (areDigits c inside)
  rw [cut, split]
  simp only [ofDigits_of_isDigit nonempty short]
  rfl

/-- A written multiplier is read to the end of the text. -/
theorem read_star (areDigits : ∀ c ∈ digits, c.isDigit = true) (nonempty : digits ≠ [])
    (short : digits.length ≤ IntegerFault.digitLimit) :
    read ('*' :: digits) = .ok (ofInt (Text.numberOf digits), []) := by
  have all : ∀ c ∈ digits, Text.isDigit c = true :=
    fun c inside => Text.isDigit_of_isDigit (areDigits c inside)
  rw [read, List.takeWhile_eq_self_iff.2 all, List.dropWhile_eq_nil_iff.2 all,
    ofDigits_of_isDigit nonempty short]
  rfl

/-- No multiplier is read where no star stands. -/
theorem read_of_head_ne (noStar : t.head? ≠ some '*') : read t = .ok (.absent, t) := by
  unfold read
  split
  · exact absurd rfl noStar
  · rfl

end Multiplier

/-- A token says the same with and without a multiplier, apart from the multiplier. -/
theorem Token.read_of_cut {t t' : Text} {multiplier : Multiplier}
    (plain : Multiplier.cut t = .ok (t, .absent)) (cut : Multiplier.cut t' = .ok (t, multiplier)) :
    Token.read t' = ({ (Token.read t).1 with multiplier }, (Token.read t).2) := by
  unfold Token.read
  rw [plain, cut]
  dsimp only
  split
  · rfl
  · split
    · rfl
    · split <;> rfl

end Shorthand
