import Shorthand.Alphabet
import Shorthand.Multiplier

/-! # Patterns

The patterns by which the characters after a cursor are recognised, each with what it matches at a place of a
text. A match tells the characters matched and, for a multiplier, its digits. -/

namespace Shorthand

/-- A pattern that a text is matched with. -/
inductive Pattern where
  /-- One gap character. -/
  | gap
  /-- One word character. -/
  | word
  /-- A multiplier at the end of the text, or before a line feed that ends it. -/
  | multiplier
  /-- A multiplier anywhere. -/
  | groupMultiplier
  /-- An element name that is the whole text, apart from a line feed that may end it. -/
  | name
  deriving DecidableEq, Repr

/-- What a pattern matched. -/
structure PatternMatch where
  /-- The characters matched. -/
  whole : Text
  /-- The parts that the pattern names; a part may be missing. -/
  parts : List (Option Text) := []
  deriving DecidableEq, Repr

namespace Pattern

/-- The match of one character of a class at the beginning of a text. -/
def matchChar (sort : Char → Bool) : Text → Option PatternMatch
  | [] => none
  | c :: _ => if sort c then some { whole := [c] } else none

/-- The match of a star with the digits after it, where `closes` judges what follows the star. -/
def matchStar (closes : Text → Bool) : Text → Option PatternMatch
  | '*' :: rest =>
    let digits := rest.takeWhile Text.isDigit
    if closes rest then
      some { whole := '*' :: digits, parts := [if digits = [] then none else some digits] }
    else none
  | _ => none

/-- The match of a pattern at the place `k` of a text. -/
def matchAt (p : Pattern) (t : Text) (k : Nat) : Option PatternMatch :=
  match p with
  | gap => matchChar Text.isGap (t.drop k)
  | word => matchChar isWordChar (t.drop k)
  | multiplier => matchStar Multiplier.isDigitTail (t.drop k)
  | groupMultiplier => matchStar (fun _ => true) (t.drop k)
  | name =>
    if k = 0 && isElementName t then some { whole := t.takeWhile fun c => isNameChar c || c == '+' }
    else none

end Pattern

end Shorthand
