import Shorthand.Place

/-! # Texts and spans of texts

A text is the list of its characters, so a position counts characters. This module holds the two ways
of cutting a text that the rest of the library shares:

* **`Text.slice t i j`** — the characters from position `i` up to position `j`, where a negative position
  counts from the end and positions beyond the text are brought back to its ends.
* **`Text.interior t`** — the text without its first and last character, used to drop the delimiters
  around a span. -/

namespace Shorthand

/-- A text is the list of its characters. -/
abbrev Text := List Char

namespace Text

/-- The characters from position `i` up to, but not including, position `j`. -/
def slice (t : Text) (i j : Int) : Text :=
  (t.take (place t.length j)).drop (place t.length i)

/-- The text without its first and last character. -/
def interior (t : Text) : Text := t.tail.dropLast

/-- Dropping the delimiters of a delimited text leaves what stood between them. -/
@[simp] theorem interior_delimited (a b : Char) (t : Text) : interior (a :: (t ++ [b])) = t := by
  simp [interior]

/-- What is left without the delimiters stood in the text. -/
theorem interior_isInfix (t : Text) : interior t <:+: t :=
  (List.dropLast_prefix t.tail).isInfix.trans (List.tail_suffix t).isInfix

/-- Join texts with a separator between neighbours. -/
def joined (separator : Text) : List Text → Text
  | [] => []
  | [t] => t
  | t :: u :: rest => t ++ separator ++ joined separator (u :: rest)

/-- Whether `part` occurs in the text as consecutive characters. -/
def hasPart (part : Text) : Text → Bool
  | [] => part.isEmpty
  | c :: rest => part.isPrefixOf (c :: rest) || hasPart part rest

end Text

end Shorthand
