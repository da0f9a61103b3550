import Shorthand.Text.Basic

/-! # The characters of an abbreviation

Outside of delimited spans an abbreviation is written in ASCII. Its characters are the *token characters*,
of which element names, markers and multipliers consist, and the *operator characters*, which structure
it. Words (attribute names, bare values, identifiers and classes) and element names are written in two
smaller alphabets. -/

namespace Shorthand

/-- An ASCII letter, an ASCII digit or an underscore. -/
def isAlphanumeric (c : Char) : Bool := c.isAlphanum || c == '_'

/-- A character of a word: a letter, a digit, an underscore, a hyphen, a colon or a dollar sign. -/
def isWordChar (c : Char) : Bool := isAlphanumeric c || c == '-' || c == ':' || c == '$'

/-- A character of an element name: a word character, an at sign or an exclamation mark. -/
def isNameChar (c : Char) : Bool := isWordChar c || c == '@' || c == '!'

/-- A character of a bare token: a name character, a marker of an identifier or a class, the star of a
multiplier, or a vertical bar. -/
def isTokenChar (c : Char) : Bool := isNameChar c || c == '#' || c == '.' || c == '*' || c == '|'

/-- A character that structures an abbreviation: an operator, or a delimiter of a group, of an attribute
set or of a text. -/
def isOperatorChar (c : Char) : Bool :=
  c == '>' || c == '+' || c == '^' || c == '[' || c == ']' || c == '(' || c == ')' ||
    c == '\x7b' || c == '\x7d'

/-- A character that may stand in an abbreviation outside of delimited spans. -/
def isAllowedChar (c : Char) : Bool := isTokenChar c || isOperatorChar c

theorem isNameChar_of_isWordChar {c : Char} (h : isWordChar c = true) : isNameChar c = true := by
  simp [isNameChar, h]

theorem isTokenChar_of_isNameChar {c : Char} (h : isNameChar c = true) : isTokenChar c = true := by
  simp [isTokenChar, h]

theorem isAllowedChar_of_isTokenChar {c : Char} (h : isTokenChar c = true) :
    isAllowedChar c = true := by simp [isAllowedChar, h]

/-- A text is allowed if it is one allowed character. -/
def isAllowedText : Text → Bool
  | [c] => isAllowedChar c
  | _ => false

/-- A text is a token character if it is one token character. -/
def isTokenText : Text → Bool
  | [c] => isTokenChar c
  | _ => false

/-- A text is an element name if it consists of name characters, at least one, and then at most one plus
sign. One line feed after that is passed over. -/
def isElementName (t : Text) : Bool :=
  let rest := t.dropWhile isNameChar
  (t.takeWhile isNameChar ≠ []) &&
    (rest == [] || rest == ['+'] || rest == ['\n'] || rest == ['+', '\n'])

end Shorthand
