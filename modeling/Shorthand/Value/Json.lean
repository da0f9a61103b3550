import Shorthand.Value.Spelled

/-! # JSON text of values

The JSON form of a value is written in ASCII. Without an indentation everything stands in one line; with one,
every item stands in a line of its own, indented by its level. Empty lists and tables are written without a
line break.

* **`Value.json indent v`** — the JSON text of a value. -/

namespace Shorthand

/-- The code units that write a character in an ASCII text: one below `0x10000`, above it a pair. -/
def codeUnits (c : Char) : List Nat :=
  let n := c.toNat
  if n < 0x10000 then [n]
  else [0xD800 + (n - 0x10000) / 0x400, 0xDC00 + (n - 0x10000) % 0x400]

/-- The form of one character inside of a JSON text. -/
def jsonChar (c : Char) : Text :=
  if c = '"' then ['\\', '"']
  else if c = '\\' then ['\\', '\\']
  else if c = '\n' then ['\\', 'n']
  else if c = '\r' then ['\\', 'r']
  else if c = '\t' then ['\\', 't']
  else if c.toNat = 8 then ['\\', 'b']
  else if c.toNat = 12 then ['\\', 'f']
  else if 32 ≤ c.toNat && c.toNat < 127 then [c]
  else (codeUnits c).flatMap fun unit => '\\' :: 'u' :: Text.hex 4 unit

/-- A text in JSON. -/
def jsonText (t : Text) : Text := '"' :: (t.flatMap jsonChar ++ ['"'])

/-- The break before an item at the given level: nothing in one line, else a line feed and the
indentation. A negative indentation is none. -/
def jsonBreak (indent : Option Int) (level : Nat) : Text :=
  match indent with
  | none => []
  | some width => '\n' :: List.replicate (width * level).toNat ' '

/-- What stands between two items: a comma, and in one line also a space. -/
def jsonComma (indent : Option Int) : Text :=
  match indent with
  | none => [',', ' ']
  | some _ => [',']

/-- A floating-point number in JSON. -/
def jsonReal : Binary64 → Text
  | .nan => "NaN".toList
  | .infinite negative => (if negative then ['-'] else []) ++ "Infinity".toList
  | x => x.text

namespace Value

mutual
/-- The JSON text of a value at the given level, in front of what follows it. Moments in time are written
as text. -/
def jsonOnto (indent : Option Int) (level : Nat) : Value → Text → Text
  | null, tail => 'n' :: 'u' :: 'l' :: 'l' :: tail
  | bool b, tail => (if b then "true".toList else "false".toList) ++ tail
  | integer n, tail => Text.ofInt n ++ tail
  | real x, tail => jsonReal x ++ tail
  | text t, tail => jsonText t ++ tail
  | date d, tail => jsonText d.spelled ++ tail
  | time t, tail => jsonText t.spelled ++ tail
  | moment d t offset, tail => jsonText (moment d t offset).spelled ++ tail
  | list items, tail =>
    if items.isEmpty then '[' :: ']' :: tail
    else
      '[' :: (jsonBreak indent (level + 1) ++
        jsonItemsOnto indent (level + 1) items (jsonBreak indent level ++ ']' :: tail))
  | table entries, tail =>
    if entries.isEmpty then '\x7b' :: '\x7d' :: tail
    else
      '\x7b' :: (jsonBreak indent (level + 1) ++
        jsonEntriesOnto indent (level + 1) entries (jsonBreak indent level ++ '\x7d' :: tail))

/-- The JSON texts of the items of a list, in front of what follows them. -/
def jsonItemsOnto (indent : Option Int) (level : Nat) : List Value → Text → Text
  | [], tail => tail
  | v :: rest, tail =>
    jsonOnto indent level v
      (if rest.isEmpty then tail
        else jsonComma indent ++ jsonBreak indent level ++ jsonItemsOnto indent level rest tail)

/-- The JSON texts of the entries of a table, in front of what follows them. -/
def jsonEntriesOnto (indent : Option Int) (level : Nat) : List (Text × Value) → Text → Text
  | [], tail => tail
  | (key, v) :: rest, tail =>
    jsonText key ++ ':' :: ' ' :: jsonOnto indent level v
      (if rest.isEmpty then tail
        else jsonComma indent ++ jsonBreak indent level ++ jsonEntriesOnto indent level rest tail)
end

/-- The JSON text of a value. -/
def json (indent : Option Int) (v : Value) : Text := jsonOnto indent 0 v []

end Value

end Shorthand
