import Mathlib.Data.List.TakeWhile
import Shorthand.Pipeline
import Shorthand.Proofs.Multiplier
import Shorthand.Proofs.Reading.Scan

/-! # Why a reading ends

Nearly all that ends the reading of an abbreviation is a fault of the abbreviation. The one exception is a multiplier
with more digits than an integer literal may have, and such a multiplier is a *long run*: a star of the text that too
many digits follow.

* **`Multiplier.HasLongRun`** — a text has a long run.
* `readItems_integer` — a level that is no integer to be read has a long run.
* `parse_integer` — so has an abbreviation. -/

namespace Shorthand

variable {t t' rest : Text} {cause : IntegerFault} {count : Nat}

namespace Multiplier

/-- A star of the text is followed by the given number of digits, which are more than a multiplier may have. -/
def HasLongRun (count : Nat) (t : Text) : Prop :=
  IntegerFault.digitLimit < count ∧
    ∃ digits, ('*' :: digits) <:+: t ∧ (∀ c ∈ digits, Text.isDigit c = true) ∧ digits.length = count

/-- A long run of a part of a text is one of the text. -/
theorem HasLongRun.mono (long : HasLongRun count t) (part : t <:+: t') : HasLongRun count t' := by
  obtain ⟨beyond, digits, inside, areDigits, counted⟩ := long
  exact ⟨beyond, digits, inside.trans part, areDigits, counted⟩

/-- The digits at the beginning of a text are digits. -/
theorem isDigit_of_mem_takeWhile (t : Text) : ∀ c ∈ t.takeWhile Text.isDigit, Text.isDigit c = true :=
  fun _ inside => List.mem_takeWhile_imp inside

/-- Digits after a star that are no multiplier are too many. -/
theorem hasLongRun_of_ofDigits {digits : Text} (refused : ofDigits digits = .error cause)
    (inside : ('*' :: digits) <:+: t) (areDigits : ∀ c ∈ digits, Text.isDigit c = true) :
    ∃ count, cause = .tooLong count ∧ HasLongRun count t := by
  obtain ⟨beyond, said⟩ := ofDigits_eq_error_iff.1 refused
  exact ⟨digits.length, said, beyond, digits, inside, areDigits, rfl⟩

/-- A trailing multiplier is a star and the digits that follow it. -/
theorem splitAtStar?_isPrefix {digits : Text} (found : splitAtStar? t = some (rest, digits)) :
    rest ++ '*' :: digits <+: t ∧ ∀ c ∈ digits, Text.isDigit c = true := by
  induction t generalizing rest with
  | nil => cases found
  | cons c t ih =>
    rw [splitAtStar?] at found
    split at found
    · next here =>
      cases found
      have star : c = '*' := by simpa using (Bool.and_eq_true_iff.1 here).1
      subst star
      exact ⟨List.cons_prefix_cons.2 ⟨rfl, List.takeWhile_prefix _⟩, isDigit_of_mem_takeWhile t⟩
    · obtain ⟨⟨before, after⟩, later, same⟩ := Option.map_eq_some_iff.1 found
      cases same
      obtain ⟨starts, areDigits⟩ := ih later
      exact ⟨List.cons_prefix_cons.2 ⟨rfl, starts⟩, areDigits⟩

/-- A token from which no multiplier can be cut has a long run. -/
theorem hasLongRun_of_cut (refused : cut t = .error cause) :
    ∃ count, cause = .tooLong count ∧ HasLongRun count t := by
  unfold cut at refused
  split at refused
  · cases refused
  · next rest digits found =>
    obtain ⟨starts, areDigits⟩ := splitAtStar?_isPrefix found
    have inside : ('*' :: digits) <:+: t := (List.suffix_append ..).isInfix.trans starts.isInfix
    exact hasLongRun_of_ofDigits (eq_error_of_map refused) inside areDigits

/-- A text at whose beginning no multiplier can be read has a long run. -/
theorem hasLongRun_of_read (refused : read t = .error cause) :
    ∃ count, cause = .tooLong count ∧ HasLongRun count t := by
  unfold read at refused
  split at refused
  · next after =>
    have inside : ('*' :: after.takeWhile Text.isDigit) <:+: '*' :: after :=
      (List.cons_prefix_cons.2 ⟨rfl, List.takeWhile_prefix _⟩).isInfix
    exact hasLongRun_of_ofDigits (eq_error_of_map refused) inside (isDigit_of_mem_takeWhile after)
  · cases refused

end Multiplier

open Multiplier

/-- Of the parts of a token only the multiplier is an integer. -/
theorem Token.cut_of_integer (h : (Token.read t).2 = some (.integer cause)) :
    Multiplier.cut t = .error cause := by
  unfold Token.read at h
  split at h
  · next fault refused =>
    cases h
    exact refused
  · -- text, markers and name have faults of the abbreviation
    dsimp only at h
    split at h
    · cases h
    · split at h
      · cases h
      · split at h <;> cases h

/-- A level that ends with a refused integer has a long run. -/
theorem readItems_integer {groups steps size : Nat}
    (h : (readItems groups steps size t).fault = some (.integer cause)) :
    ∃ count, cause = .tooLong count ∧ HasLongRun count t := by
  -- wherever the integer is refused, what was looked at there is a part of the level
  fun_induction readItems groups steps size t with
  | case5 size rest steps span after groups inside reading fault ended found ih =>
    cases h
    obtain ⟨count, said, long⟩ := ih ended
    have part := (Text.trim_isInfix span.interior).trans (Delimiter.interior_isInfix found)
    exact ⟨count, said, long.mono part⟩
  | case6 size rest steps span after groups inside reading ended fault refused found =>
    cases h
    obtain ⟨count, said, long⟩ := hasLongRun_of_read refused
    exact ⟨count, said, long.mono (Delimiter.rest_isSuffix found).isInfix⟩
  | case7 size rest steps span after groups inside reading ended multiplier next cut found _ ih =>
    obtain ⟨count, said, long⟩ := ih h
    have part := (read_isSuffix cut).trans (Delimiter.rest_isSuffix found)
    exact ⟨count, said, long.mono part.isInfix⟩
  | case8 groups size rest steps _ ih | case9 groups size rest steps _ _ ih
  | case10 groups size rest steps _ _ _ ih =>
    obtain ⟨count, said, long⟩ := ih h
    exact ⟨count, said, long.mono (List.suffix_cons ..).isInfix⟩
  | case13 groups size c rest steps _ _ _ _ source after _ run token fault said =>
    cases h
    have refused : cut source = .error cause := Token.cut_of_integer (by rw [said])
    obtain ⟨count, said, long⟩ := hasLongRun_of_cut refused
    exact ⟨count, said, long.mono ⟨[], after, tokenRun_append run⟩⟩
  | case14 groups size c rest steps _ _ _ _ source after _ run token _ ih =>
    obtain ⟨count, said, long⟩ := ih h
    exact ⟨count, said, long.mono (List.IsSuffix.isInfix ⟨source, tokenRun_append run⟩)⟩
  | _ => cases h

/-- An abbreviation that ends with a refused integer has a long run. -/
theorem parse_integer (refused : parse t = .error (.integer cause)) :
    ∃ count, cause = .tooLong count ∧ HasLongRun count t := by
  unfold parse parseRaw at refused
  cases ended : (readAbbreviation t).fault with
  | some fault =>
    simp only [ended] at refused
    cases refused
    obtain ⟨count, said, long⟩ := readItems_integer ended
    exact ⟨count, said, long.mono (Text.trim_isInfix t)⟩
  | none =>
    -- what is optimized is refused for its height alone
    simp only [ended, bind, Except.bind] at refused
    split at refused <;> cases refused

end Shorthand
