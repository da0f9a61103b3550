import Shorthand.Text.Basic

/-! # Delimiters and balanced spans

Groups, attribute sets and texts stand between delimiters. The span of a delimiter reaches to the closing
character that balances it, where only the two characters of the pair are counted.

* **`pairSpan? isOpen isClose depth t`** — the shortest beginning of `t` after which the closing characters
  have caught up with the opening ones, with what follows it.
* `pairSpan?_cons` — a step of the scan for the end of the span.
* `pairSpan?_append` — the span and what follows it make up the text. -/

namespace Shorthand

/-- A pair of delimiters. -/
inductive Delimiter where
  /-- Parentheses, around a group. -/
  | round
  /-- Square brackets, around an attribute set. -/
  | square
  /-- Braces, around a text. -/
  | curly
  deriving DecidableEq, Repr

namespace Delimiter

/-- The character that opens a span. -/
def opener : Delimiter → Char
  | round => '('
  | square => '['
  | curly => '\x7b'

/-- The character that closes a span. -/
def closer : Delimiter → Char
  | round => ')'
  | square => ']'
  | curly => '\x7d'

end Delimiter

/-- The beginning of a text up to the closing character that balances the opening ones, and the rest of
the text; `depth` opening characters precede the text. A closing character ends the span also when no
opening character is left for it. -/
def pairSpan? (isOpen isClose : Char → Bool) (depth : Nat) : Text → Option (Text × Text)
  | [] => none
  | c :: rest =>
    if isOpen c then
      (pairSpan? isOpen isClose (depth + 1) rest).map fun found => (c :: found.1, found.2)
    else if isClose c then
      if depth ≤ 1 then some ([c], rest)
      else (pairSpan? isOpen isClose (depth - 1) rest).map fun found => (c :: found.1, found.2)
    else (pairSpan? isOpen isClose depth rest).map fun found => (c :: found.1, found.2)

/-- The balanced span at the beginning of a text, and the rest of the text. -/
def Delimiter.span? (d : Delimiter) (t : Text) : Option (Text × Text) :=
  pairSpan? (· == d.opener) (· == d.closer) 0 t

variable {isOpen isClose : Char → Bool}

@[simp] theorem pairSpan?_nil (depth : Nat) : pairSpan? isOpen isClose depth [] = none := rfl

/-- The first character ends the span, or it is taken and the span goes on, with as many open characters as there are
then. Which of the two it is does not depend on what follows. -/
theorem pairSpan?_cons (isOpen isClose : Char → Bool) (depth : Nat) (c : Char) :
    (∀ t, pairSpan? isOpen isClose depth (c :: t) = some ([c], t)) ∨
      ∃ later, ∀ t, pairSpan? isOpen isClose depth (c :: t) =
        (pairSpan? isOpen isClose later t).map fun found => (c :: found.1, found.2) := by
  simp only [pairSpan?]
  split
  · exact .inr ⟨_, fun _ => rfl⟩
  · split
    · split
      · exact .inl fun _ => rfl
      · exact .inr ⟨_, fun _ => rfl⟩
    · exact .inr ⟨_, fun _ => rfl⟩

/-- The span and the rest make up the text. -/
theorem pairSpan?_append {depth : Nat} {t span rest : Text}
    (h : pairSpan? isOpen isClose depth t = some (span, rest)) : span ++ rest = t := by
  induction t generalizing depth span rest with
  | nil => cases h
  | cons c t ih =>
    obtain ends | ⟨later, goesOn⟩ := pairSpan?_cons isOpen isClose depth c
    · rw [ends] at h
      cases h
      rfl
    · rw [goesOn] at h
      obtain ⟨⟨taken, left⟩, found, same⟩ := Option.map_eq_some_iff.1 h
      cases same
      rw [List.cons_append, ih found]

/-- A span holds at least its closing character. -/
theorem pairSpan?_ne_nil {depth : Nat} {t span rest : Text}
    (h : pairSpan? isOpen isClose depth t = some (span, rest)) : span ≠ [] := by
  cases t with
  | nil => cases h
  | cons c t =>
    obtain ends | ⟨later, goesOn⟩ := pairSpan?_cons isOpen isClose depth c
    · rw [ends] at h
      cases h
      exact List.cons_ne_nil c []
    · rw [goesOn] at h
      obtain ⟨_, _, same⟩ := Option.map_eq_some_iff.1 h
      cases same
      exact List.cons_ne_nil c _

/-- What follows a span is shorter than the text. -/
theorem pairSpan?_length_lt {depth : Nat} {t span rest : Text}
    (h : pairSpan? isOpen isClose depth t = some (span, rest)) : rest.length < t.length := by
  have whole := congrArg List.length (pairSpan?_append h)
  have some := List.length_pos_iff.2 (pairSpan?_ne_nil h)
  simp only [List.length_append] at whole
  omega

namespace Delimiter

/-- The span of a delimiter and the rest make up the text. -/
theorem span?_append {d : Delimiter} {t span rest : Text} (h : d.span? t = some (span, rest)) :
    span ++ rest = t := pairSpan?_append h

/-- The inside of a span stands in the text. -/
theorem interior_isInfix {d : Delimiter} {t span rest : Text} (h : d.span? t = some (span, rest)) :
    span.interior <:+: t := by
  rw [← span?_append h]
  exact (Text.interior_isInfix span).trans (List.prefix_append span rest).isInfix

/-- What follows a span stands in the text. -/
theorem rest_isSuffix {d : Delimiter} {t span rest : Text} (h : d.span? t = some (span, rest)) :
    rest <:+ t := ⟨span, span?_append h⟩

/-- What follows the span of a delimiter is shorter than the text. -/
theorem span?_length_lt {d : Delimiter} {t span rest : Text} (h : d.span? t = some (span, rest)) :
    rest.length < t.length := pairSpan?_length_lt h

end Delimiter

end Shorthand
