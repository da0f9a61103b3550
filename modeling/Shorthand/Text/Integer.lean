import Shorthand.Text.Digit
import Shorthand.Text.Blank
import Shorthand.Text.Quoted

/-! # Integer literals

An integer literal is an optional sign and digits of any script, where a single underscore may stand
between two digits, with white space at both ends. Literals of more than 4300 digits are refused. -/

namespace Shorthand

/-- Why a text is not taken as an integer. -/
inductive IntegerFault where
  /-- The text has not the form of an integer literal. -/
  | malformed (literal : Text)
  /-- The literal has the given number of digits, which is beyond the limit. -/
  | tooLong (digits : Nat)
  deriving DecidableEq, Repr

namespace IntegerFault

/-- The number of digits that a literal may have. -/
def digitLimit : Nat := 4300

/-- The number of characters to which the quoted literal is cut in a message. -/
def quotedLimit : Nat := 200

/-- The text of the fault. -/
def message : IntegerFault → Text
  | .malformed literal =>
    "invalid literal for int() with base 10: ".toList ++ literal.quoted.take quotedLimit
  | .tooLong digits =>
    ("Exceeds the limit (" ++ toString digitLimit ++
      " digits) for integer string conversion: value has " ++ toString digits ++
      " digits; use sys.set_int_max_str_digits() to increase the limit").toList

end IntegerFault

namespace Text

/-- The value of a run of digits, if it is not too long. -/
def readDigits (digits : Text) : Except IntegerFault Nat :=
  if digits.length ≤ IntegerFault.digitLimit then .ok (numberOf digits)
  else .error (.tooLong digits.length)

/-- Whether the run of digits and underscores is a digit sequence with single underscores inside. -/
def isGrouped : Text → Bool
  | [] => false
  | [c] => c ≠ '_'
  | c :: d :: rest => c ≠ '_' && (isGrouped (d :: rest) || (d = '_' && isGrouped rest))

/-- Blanks that may stand around a literal: white space other than the four separator controls. -/
def isLiteralBlank (c : Char) : Bool := isBlank c && !(28 ≤ c.toNat && c.toNat ≤ 31)

/-- Read an integer literal. The length of the digit sequence is looked at before what follows it. -/
def readInteger (literal : Text) : Except IntegerFault Int :=
  let body := literal.dropWhile isLiteralBlank
  let (negative, unsigned) : Bool × Text :=
    match body with
    | '-' :: rest => (true, rest)
    | '+' :: rest => (false, rest)
    | _ => (false, body)
  let run := unsigned.takeWhile fun c => isDigit c || c == '_'
  let after := unsigned.dropWhile fun c => isDigit c || c == '_'
  if !isGrouped run then .error (.malformed literal)
  else
    match readDigits (run.filter (· ≠ '_')) with
    | .error fault => .error fault
    | .ok n =>
      if after.all isLiteralBlank then .ok (if negative then -(n : Int) else n)
      else .error (.malformed literal)

/-- A run of digits within the limit is read. -/
theorem readDigits_of_length_le {digits : Text} (h : digits.length ≤ IntegerFault.digitLimit) :
    readDigits digits = .ok (numberOf digits) := by simp [readDigits, h]

/-- Reading a run of digits fails exactly beyond the limit. -/
theorem readDigits_eq_error_iff {digits : Text} {fault : IntegerFault} :
    readDigits digits = .error fault ↔
      IntegerFault.digitLimit < digits.length ∧ fault = .tooLong digits.length := by
  unfold readDigits
  split
  · next short => simpa using fun long => absurd short (Nat.not_le.2 long)
  · next long => simp [Nat.not_le.1 long, eq_comm]

end Text

end Shorthand
