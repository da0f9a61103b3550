import Shorthand.Text.Printable

/-! # Quoted text

The form in which a message shows a piece of text. It stands between single quotes, or between double
quotes if it holds a single quote and no double quote. The quote that is used and the backslash are
escaped by a backslash, line feed, carriage return and tab have their letters, and any other character that
is not printable is written by its code point. -/

namespace Shorthand.Text

/-- The quote that a text is put into. -/
def quoteFor (t : Text) : Char := if t.contains '\'' && !t.contains '"' then '"' else '\''

/-- A code point in at least `width` lower-case hexadecimal digits. -/
def hex (width n : Nat) : Text :=
  let digits := Nat.toDigits 16 n
  List.replicate (width - digits.length) '0' ++ digits

/-- The written form of one character between two of the given quotes. -/
def escaped (quote c : Char) : Text :=
  if c = quote || c = '\\' then ['\\', c]
  else if c = '\t' then ['\\', 't']
  else if c = '\n' then ['\\', 'n']
  else if c = '\r' then ['\\', 'r']
  else if isPrintable c then [c]
  else if c.toNat < 0x100 then '\\' :: 'x' :: hex 2 c.toNat
  else if c.toNat < 0x10000 then '\\' :: 'u' :: hex 4 c.toNat
  else '\\' :: 'U' :: hex 8 c.toNat

/-- The quoted form of a text. -/
def quoted (t : Text) : Text :=
  let quote := quoteFor t
  quote :: (t.flatMap (escaped quote) ++ [quote])

/-- A printable character other than the quote and the backslash is shown as itself. -/
theorem escaped_of_isPrintable {quote c : Char} (plain : c ≠ quote) (notBackslash : c ≠ '\\')
    (notTab : c ≠ '\t') (notFeed : c ≠ '\n') (notReturn : c ≠ '\r') (h : isPrintable c = true) :
    escaped quote c = [c] := by
  simp [escaped, plain, notBackslash, notTab, notFeed, notReturn, h]

end Shorthand.Text
