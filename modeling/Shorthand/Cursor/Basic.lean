import Shorthand.Cursor.Pattern
import Shorthand.Attribute.Set
import Shorthand.Text.Case

/-! # Cursors

A cursor is a position in a text together with the position where a span was begun. Positions are integers
and are not kept inside the text: a caller may put them anywhere. A single character is looked at by its place
counted from the end if the position is negative, and there is nothing to be seen outside of the text.

* **`Cursor.upcoming`** — the characters that are met by going on one by one.
* **`Cursor.ahead?`** — the characters that a scan by places meets, which goes on from the end of the text to its
  beginning when it starts at a negative position.
* The operations look at one of the two and move the position past what they take. -/

namespace Shorthand

/-- A position in a text, and the beginning of a span. -/
structure Cursor where
  /-- The text. -/
  text : Text
  /-- The position. -/
  pos : Int := 0
  /-- The position where the span begins. -/
  start : Int := 0
  deriving DecidableEq, Repr

/-- What the character at a cursor is compared with. -/
inductive Matcher where
  /-- The text that is wanted. -/
  | exactly (t : Text)
  /-- A pattern that the character has to match. -/
  | pattern (p : Pattern)
  /-- A test of the character. -/
  | test (f : Char → Bool)

/-- Whether a matcher accepts a character, given as a text; at the end of the text it is the empty text. -/
def Matcher.accepts (m : Matcher) (t : Text) : Bool :=
  match m, t with
  | exactly wanted, t => t == wanted
  | _, [] => false
  | pattern p, t => (p.matchAt t 0).isSome
  | test f, c :: _ => f c

namespace Cursor

/-- The cursor at the beginning of a text. -/
def ofText (t : Text) : Cursor := { text := t }

/-- The cursor moved by a number of characters. -/
def advance (c : Cursor) (n : Nat) : Cursor := { c with pos := c.pos + n }

/-- The position is at or beyond the end. -/
def atEnd (c : Cursor) : Bool := c.text.length ≤ c.pos

/-- The characters that are met by going on one by one. From a negative position the last character of the
text is not met. -/
def upcoming (c : Cursor) : Text :=
  if 0 ≤ c.pos then c.text.drop c.pos.toNat
  else if c.pos < -c.text.length then []
  else (c.text.drop (c.pos + c.text.length).toNat).dropLast

/-- The characters that a scan by places meets. A position before the first place is out of range. -/
def ahead? (c : Cursor) : Option Text :=
  if 0 ≤ c.pos then some (c.text.drop c.pos.toNat)
  else if c.pos < -c.text.length then none
  else some (c.text.drop (c.pos + c.text.length).toNat ++ c.text)

/-- The current character, as a text; nothing outside of the text. -/
def peek (c : Cursor) : Text := c.upcoming.take 1

/-- Take the current character. -/
def next (c : Cursor) : Text × Cursor := (c.peek, c.advance c.peek.length)

/-- Take the current character if it is accepted. The empty text is accepted at the end by a matcher that
wants it, and the position moves then, too. -/
def eat (m : Matcher) (c : Cursor) : Text × Cursor :=
  if m.accepts c.peek then (c.peek, c.advance 1) else ([], c)

/-- Take characters as long as they are accepted, and tell whether the position moved. -/
def eatWhile (m : Matcher) (c : Cursor) : Bool × Cursor :=
  let run := c.upcoming.takeWhile fun x => m.accepts [x]
  let taken := c.advance run.length
  let last := if run.length = c.upcoming.length && m.accepts [] then taken.advance 1 else taken
  (c.pos < last.pos, last)

/-- Take gaps, and tell whether there were any. -/
def eatGaps? (c : Cursor) : Option (Bool × Cursor) :=
  c.ahead?.map fun ahead =>
    let gaps := ahead.takeWhile Text.isGap
    (!gaps.isEmpty, c.advance gaps.length)

/-- Move past the balanced span of a pair of delimiters. Without one the cursor stays. -/
def skipPair? (opener closer : Text) (c : Cursor) : Option (Bool × Cursor) :=
  c.ahead?.map fun ahead =>
    match pairSpan? (fun x => [x] == opener) (fun x => [x] == closer) 0 ahead with
    | some (span, _) => (true, c.advance span.length)
    | none => (false, c)

/-- Move past the closing quote, where a backslash protects the character after it. Without a quote the
cursor moves to the end. -/
def skipQuoted (quote : Text) (c : Cursor) : Bool × Cursor :=
  match quotedBody? (fun x => [x] == quote) c.upcoming with
  | some (body, _) => (true, c.advance (body.length + 1))
  | none => (false, c.advance c.upcoming.length)

/-- Move back by a number of characters. -/
def backUp (n : Int) (c : Cursor) : Cursor := { c with pos := c.pos - n }

/-- Begin a span at the position. -/
def mark (c : Cursor) : Cursor := { c with start := c.pos }

/-- Move to a position. -/
def seek (n : Int) (c : Cursor) : Cursor := { c with pos := n }

/-- Compare what follows with a text, with or without regard to case, and move past it if wanted. -/
def matchText (t : Text) (consume foldCase : Bool) (c : Cursor) : Bool × Cursor :=
  let candidate := c.text.slice c.pos (c.pos + t.length)
  let same := if foldCase then candidate.lower == t.lower else candidate == t
  (same, if same && consume then c.advance t.length else c)

/-- Match what follows with a pattern, and move past it if wanted. A position outside of the text counts as
the nearer end. -/
def matchPattern (p : Pattern) (consume : Bool) (c : Cursor) : Option PatternMatch × Cursor :=
  let k := min c.pos.toNat c.text.length
  match p.matchAt c.text k with
  | none => (none, c)
  | some found => (some found, if consume then c.seek (k + found.whole.length : Nat) else c)

/-- The text from the beginning of the span to the position. -/
def current (c : Cursor) : Text := c.text.slice c.start c.pos

@[simp] theorem advance_zero (c : Cursor) : c.advance 0 = c := by simp [advance]

@[simp] theorem advance_start (c : Cursor) (n : Nat) : (c.advance n).start = c.start := rfl

@[simp] theorem advance_pos (c : Cursor) (n : Nat) : (c.advance n).pos = c.pos + n := rfl

/-- Inside of the text, going on one by one and scanning by places meet the same characters. -/
theorem ahead?_eq_upcoming {c : Cursor} (h : 0 ≤ c.pos) : c.ahead? = some c.upcoming := by
  simp [ahead?, upcoming, h]

end Cursor

end Shorthand
