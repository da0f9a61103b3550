import Shorthand.Text.Basic

/-! # Blank characters

Two sets of blanks are in use: the full set of white-space characters, which is trimmed from the ends of
an abbreviation, of a group and of an attribute set, and the smaller set of gaps (space, tab and no-break
space), which separates the attributes of a set. -/

namespace Shorthand.Text

/-- White space: the control characters that separate lines and records, the space, the next-line
control, and the characters of the Unicode space and line separator classes. -/
def isBlank (c : Char) : Bool :=
  let n := c.toNat
  (9 ≤ n && n ≤ 13) || (28 ≤ n && n ≤ 32) || n == 0x85 || n == 0xA0 || n == 0x1680 ||
    (0x2000 ≤ n && n ≤ 0x200A) || n == 0x2028 || n == 0x2029 || n == 0x202F || n == 0x205F ||
    n == 0x3000

/-- A gap between two attributes: a space, a tab or a no-break space. -/
def isGap (c : Char) : Bool := c == ' ' || c == '\t' || c == '\u00a0'

/-- Every gap is white space. -/
theorem isBlank_of_isGap {c : Char} (h : isGap c = true) : isBlank c = true := by
  simp only [isGap, Bool.or_eq_true, beq_iff_eq] at h
  rcases h with (rfl | rfl) | rfl <;> decide

/-- The text without the leading characters of the given class. -/
def trimStart (blank : Char → Bool) (t : Text) : Text := t.dropWhile blank

/-- The text without the trailing characters of the given class. -/
def trimEnd (blank : Char → Bool) (t : Text) : Text := (t.reverse.dropWhile blank).reverse

/-- The text without the white space at its two ends. -/
def trim (t : Text) : Text := trimEnd isBlank (trimStart isBlank t)

@[simp] theorem trimStart_nil (blank : Char → Bool) : trimStart blank [] = [] := rfl

@[simp] theorem trimEnd_nil (blank : Char → Bool) : trimEnd blank [] = [] := rfl

@[simp] theorem trim_nil : trim [] = [] := rfl

/-- Trimming never lengthens a text. -/
theorem length_trim_le (t : Text) : (trim t).length ≤ t.length := by
  have start := (List.dropWhile_sublist (l := t) isBlank).length_le
  have stop := (List.dropWhile_sublist (l := (trimStart isBlank t).reverse) isBlank).length_le
  simp only [trim, trimEnd, List.length_reverse] at stop ⊢
  exact Nat.le_trans stop start

/-- What is left of a trimmed text stands in it. -/
theorem trim_isInfix (t : Text) : trim t <:+: t := by
  have start : trimStart isBlank t <:+: t := (List.dropWhile_suffix isBlank).isInfix
  have stop : trimEnd isBlank (trimStart isBlank t) <+: trimStart isBlank t := by
    rw [trimEnd, ← List.reverse_suffix, List.reverse_reverse]
    exact List.dropWhile_suffix isBlank
  exact stop.isInfix.trans start

end Shorthand.Text
