import Shorthand.Text.Basic

/-! # Strings and keys of a TOML document

Strings stand between one or three double or single quotes. Between double quotes a backslash introduces an
escape, between single quotes everything stands for itself. A key is a list of parts between dots; a part is a
bare word or a string on one line.

A reader gives what it read and the rest of the text, and nothing if the text is not of its form. -/

namespace Shorthand.Toml

/-- What a reader gives: the value that was read, and the rest of the text. -/
abbrev Reader (α : Type) := Text → Option (α × Text)

/-- Blanks inside of a line. -/
def isInlineBlank (c : Char) : Bool := c == ' ' || c == '\t'

/-- Blanks and line ends. -/
def isLineBlank (c : Char) : Bool := isInlineBlank c || c == '\n'

/-- The text without the blanks at its beginning. -/
def skipInline (t : Text) : Text := t.dropWhile isInlineBlank

/-- A control character other than the tab; none may stand in a comment or in a string on one line. -/
def isControl (c : Char) : Bool := (c.toNat < 32 && c != '\t') || c.toNat == 127

/-- A character that may not stand in a string. A string over several lines may hold line ends. -/
def isForbidden (multiline : Bool) (c : Char) : Bool := isControl c && !(multiline && c == '\n')

/-- The value of a hexadecimal digit. -/
def hexDigit? (c : Char) : Option Nat :=
  if '0' ≤ c && c ≤ '9' then some (c.toNat - 48)
  else if 'a' ≤ c && c ≤ 'f' then some (c.toNat - 87)
  else if 'A' ≤ c && c ≤ 'F' then some (c.toNat - 55)
  else none

/-- The value of a sequence of hexadecimal digits. -/
def hexNumber? (digits : Text) : Option Nat :=
  (digits.mapM hexDigit?).map fun values => values.foldl (fun n d => 16 * n + d) 0

/-- The character that a number of hexadecimal digits denotes. Surrogates are no characters. -/
def codePoint? (width : Nat) (t : Text) : Option Char :=
  if t.length < width then none
  else
    match hexNumber? (t.take width) with
    | none => none
    | some n => if n.isValidChar then some (Char.ofNat n) else none

/-- What the escape after a backslash inserts, and how many characters it takes. In a string over several lines
a backslash at the end of a line takes the line end and all blanks after it. -/
def escape? (multiline : Bool) : Text → Option (Text × Nat)
  | [] => none
  | c :: rest =>
    if multiline && isLineBlank c then
      let line := if c = '\n' then c :: rest else skipInline rest
      match line with
      | [] => some ([], rest.length + 1)
      | '\n' :: below => some ([], rest.length + 1 - (below.dropWhile isLineBlank).length)
      | _ => none
    else
      match c with
      | 'b' => some ([Char.ofNat 8], 1)
      | 't' => some (['\t'], 1)
      | 'n' => some (['\n'], 1)
      | 'f' => some ([Char.ofNat 12], 1)
      | 'r' => some (['\r'], 1)
      | '"' => some (['"'], 1)
      | '\\' => some (['\\'], 1)
      | 'u' => (codePoint? 4 rest).map fun x => ([x], 5)
      | 'U' => (codePoint? 8 rest).map fun x => ([x], 9)
      | _ => none

/-- The rest of a string between double quotes. -/
def basicString (multiline : Bool) (t : Text) : Option (Text × Text) :=
  match t with
  | [] => none
  | c :: rest =>
    if c = '"' then
      if !multiline then some ([], rest)
      else if rest.take 2 = ['"', '"'] then some ([], rest.drop 2)
      else (basicString multiline rest).map fun found => (c :: found.1, found.2)
    else if c = '\\' then
      match escape? multiline rest with
      | none => none
      | some (inserted, n) =>
        (basicString multiline (rest.drop n)).map fun found => (inserted ++ found.1, found.2)
    else if isForbidden multiline c then none
    else (basicString multiline rest).map fun found => (c :: found.1, found.2)
termination_by t.length
decreasing_by all_goals simp only [List.length_cons, List.length_drop]; omega

/-- The rest of a string between single quotes. -/
def literalString (multiline : Bool) : Reader Text
  | [] => none
  | c :: rest =>
    if c = '\'' && (!multiline || rest.take 2 = ['\'', '\'']) then
      some ([], if multiline then rest.drop 2 else rest)
    else if isForbidden multiline c then none
    else (literalString multiline rest).map fun found => (c :: found.1, found.2)

/-- Up to two quotes that follow the three quotes at the end of a string belong to the string. -/
def trailingQuotes (quote : Char) (found : Text × Text) : Text × Text :=
  let more := (found.2.take 2).takeWhile (· == quote)
  (found.1 ++ more, found.2.drop more.length)

/-- The text without a line end at its beginning. -/
def dropLineEnd : Text → Text
  | '\n' :: rest => rest
  | t => t

/-- Read a string on one line. -/
def readLineString : Reader Text
  | '"' :: rest => basicString false rest
  | '\'' :: rest => literalString false rest
  | _ => none

/-- Read a string of any form. -/
def readString : Reader Text
  | '"' :: '"' :: '"' :: rest => (basicString true (dropLineEnd rest)).map (trailingQuotes '"')
  | '\'' :: '\'' :: '\'' :: rest => (literalString true (dropLineEnd rest)).map (trailingQuotes '\'')
  | t => readLineString t

/-- A character of a bare key. -/
def isBareKey (c : Char) : Bool := c.isAlphanum || c == '-' || c == '_'

/-- Read a part of a key. -/
def readKeyPart (t : Text) : Option (Text × Text) :=
  let bare := t.takeWhile isBareKey
  if bare = [] then readLineString t else some (bare, t.dropWhile isBareKey)

/-- The parts of a key, from the outermost table to the innermost name. -/
abbrev Path := List Text

/-- Read a key of at most the given number of parts, and pass over the blanks after it. -/
def readKeyWithin : Nat → Reader Path
  | 0, _ => none
  | parts + 1, t => do
    let (part, rest) ← readKeyPart t
    match skipInline rest with
    | '.' :: more =>
      let (path, rest) ← readKeyWithin parts (skipInline more)
      return (part :: path, rest)
    | rest => return ([part], rest)

/-- Read a key and the blanks after it. A key has no more parts than characters. -/
def readKey : Reader Path := fun t => readKeyWithin t.length t

end Shorthand.Toml
