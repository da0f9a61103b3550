import Shorthand.Toml.Scalars

/-! # TOML documents

A document is a list of statements: assignments to keys, headers of tables, and headers of the items of arrays of
tables. While it is read, a draft keeps the table that has been built and two sets of paths: the tables that a
header or the inside of a key has declared and that no other header may declare again, and the values written
in one piece, into which nothing may be added.

* **`Toml.readValue`** — the value at the beginning of a text.
* **`Toml.read?`** — the table that a document describes; nothing for a malformed document. -/

namespace Shorthand.Toml

/-! ## Tables by paths -/

/-- Change the table at a path below a table, where missing tables are made. With `intoLists` a list on the way
stands for its last item. There is no such table if something else lies on the way. -/
def changeAt (intoLists : Bool) (change : Table Value → Option (Table Value)) :
    Path → Table Value → Option (Table Value)
  | [], entries => change entries
  | key :: path, entries =>
    match Table.find? key entries with
    | none =>
      (changeAt intoLists change path []).map fun inner => Table.put key (.table inner) entries
    | some (.table inner) =>
      (changeAt intoLists change path inner).map fun inner => Table.put key (.table inner) entries
    | some (.list items) =>
      match intoLists, items.getLast? with
      | true, some (.table inner) =>
        (changeAt intoLists change path inner).map fun inner =>
          Table.put key (.list (items.dropLast ++ [.table inner])) entries
      | _, _ => none
    | some _ => none

/-- Assign a value to a key that has none. -/
def assignNew (key : Text) (value : Value) (entries : Table Value) : Option (Table Value) :=
  if (Table.find? key entries).isSome then none else some (Table.put key value entries)

/-- Add an empty table to the list of a key. -/
def appendTable (key : Text) (entries : Table Value) : Option (Table Value) :=
  match Table.find? key entries with
  | none => some (Table.put key (.list [.table []]) entries)
  | some (.list items) => some (Table.put key (.list (items ++ [.table []])) entries)
  | some _ => none

/-- A value that is written in one piece and has parts. -/
def isCompound : Value → Bool
  | .list _ => true
  | .table _ => true
  | _ => false

/-- Whether some path of a set leads to the given path or to something that it lies in. -/
def coveredBy (paths : List Path) (path : Path) : Bool := paths.any fun p => p.isPrefixOf path

/-! ## Values -/

/-- Pass over a comment. No control character may stand in it. -/
def skipComment : Text → Option Text
  | '#' :: rest =>
    if (rest.takeWhile (· != '\n')).any isControl then none else some (rest.dropWhile (· != '\n'))
  | t => some t

/-- Pass over blanks, line ends and comments, at most the given number of comments. -/
def skipLinesWithin : Nat → Text → Option Text
  | 0, t => some (t.dropWhile isLineBlank)
  | comments + 1, t =>
    match t.dropWhile isLineBlank with
    | '#' :: rest => do
      let rest ← skipComment ('#' :: rest)
      skipLinesWithin comments rest
    | t => some t

/-- Pass over blanks, line ends and comments. -/
def skipLines (t : Text) : Option Text := skipLinesWithin t.length t

mutual
/-- The value at the beginning of a text. Values are nested in each other at most as often as the given
number says. -/
def readValueWithin : Nat → Reader Value
  | 0, _ => none
  | depth + 1, t =>
    match t with
    | '"' :: _ => (readString t).map fun r => (.text r.1, r.2)
    | '\'' :: _ => (readString t).map fun r => (.text r.1, r.2)
    | 't' :: 'r' :: 'u' :: 'e' :: rest => some (.bool true, rest)
    | 'f' :: 'a' :: 'l' :: 's' :: 'e' :: rest => some (.bool false, rest)
    | '[' :: rest => do
      let rest ← skipLines rest
      let (items, rest) ← readItemsWithin depth rest
      return (.list items, rest)
    | '\x7b' :: rest =>
      match skipInline rest with
      | '\x7d' :: rest => some (.table [], rest)
      | rest => do
        let (entries, rest) ← readEntriesWithin depth [] [] rest
        return (.table entries, rest)
    | _ => readScalar t

/-- The items of a list up to its closing bracket; a comma may stand after the last one. -/
def readItemsWithin : Nat → Reader (List Value)
  | 0, _ => none
  | depth + 1, t =>
    match t with
    | ']' :: rest => some ([], rest)
    | _ => do
      let (item, rest) ← readValueWithin depth t
      let rest ← skipLines rest
      match rest with
      | ']' :: rest => return ([item], rest)
      | ',' :: rest =>
        let rest ← skipLines rest
        let (items, rest) ← readItemsWithin depth rest
        return (item :: items, rest)
      | _ => none

/-- The entries of a table up to its closing brace, after those that were read already; no comma may stand
after the last one. The closed paths lead to the values into which nothing may be added. -/
def readEntriesWithin : Nat → List Path → Table Value → Reader (Table Value)
  | 0, _, _, _ => none
  | depth + 1, closed, entries, t => do
    let (path, rest) ← readKey t
    match rest with
    | '=' :: rest =>
      let (value, rest) ← readValueWithin depth (skipInline rest)
      if coveredBy closed path then none
      else
        let entries ←
          changeAt false (assignNew (path.getLast?.getD []) value) path.dropLast entries
        match skipInline rest with
        | '\x7d' :: rest => return (entries, rest)
        | ',' :: rest =>
          let closed := if isCompound value then path :: closed else closed
          readEntriesWithin depth closed entries (skipInline rest)
        | _ => none
    | _ => none
end

/-- The value at the beginning of a text. The parts of a value and the values inside of it are fewer than its
characters. -/
def readValue : Reader Value := fun t => readValueWithin (t.length + 1) t

/-! ## Statements -/

/-- A document under construction. -/
structure Draft where
  /-- The table that has been built. -/
  entries : Table Value := []
  /-- The path of the last header. -/
  header : Path := []
  /-- The tables that no header may declare again. -/
  declared : List Path := []
  /-- The tables inside of keys that count as declared from the next header on. -/
  pending : List Path := []
  /-- The values into which nothing may be added. -/
  closed : List Path := []

namespace Draft

/-- Assign a value to a key below the last header. -/
def assign (d : Draft) (path : Path) (value : Value) : Option Draft :=
  let inner := ((List.range (path.length - 1)).map fun k => d.header ++ path.take (k + 1))
  let parent := d.header ++ path.dropLast
  if inner.any d.declared.contains || coveredBy d.closed parent then none
  else
    (changeAt true (assignNew (path.getLast?.getD []) value) parent d.entries).map fun entries =>
      { d with
        entries
        pending := d.pending ++ inner
        closed := if isCompound value then (d.header ++ path) :: d.closed else d.closed }

/-- Begin a header: the tables inside of earlier keys count as declared from now on. -/
def beginHeader (d : Draft) : Draft :=
  { d with declared := d.pending ++ d.declared, pending := [] }

/-- Declare the table of a header. -/
def openTable (d : Draft) (path : Path) : Option Draft :=
  if d.declared.contains path || coveredBy d.closed path then none
  else
    (changeAt true some path d.entries).map fun entries =>
      { d with entries, header := path, declared := path :: d.declared }

/-- Declare one more item of an array of tables. What was said about the inside of the item before does not
hold for the new one. -/
def openItem (d : Draft) (path : Path) : Option Draft :=
  if coveredBy d.closed path then none
  else
    let outside (p : Path) : Bool := !path.isPrefixOf p
    (changeAt true (appendTable (path.getLast?.getD [])) path.dropLast d.entries).map fun entries =>
      { d with
        entries
        header := path
        declared := path :: d.declared.filter outside
        closed := d.closed.filter outside }

end Draft

/-- Read one statement and give what follows it in its line. -/
def readStatement (d : Draft) (t : Text) : Option (Draft × Text) :=
  match t with
  | '[' :: '[' :: rest => do
    let (path, rest) ← readKey (skipInline rest)
    let d ← d.beginHeader.openItem path
    match rest with
    | ']' :: ']' :: rest => return (d, rest)
    | _ => none
  | '[' :: rest => do
    let (path, rest) ← readKey (skipInline rest)
    let d ← d.beginHeader.openTable path
    match rest with
    | ']' :: rest => return (d, rest)
    | _ => none
  | '#' :: _ => some (d, t)
  | _ => do
    let (path, rest) ← readKey t
    match rest with
    | '=' :: rest =>
      let (value, rest) ← readValue (skipInline rest)
      let d ← d.assign path value
      return (d, rest)
    | _ => none

/-- Read the statements of a document of at most the given number of lines. -/
def readStatements : Nat → Draft → Text → Option Draft
  | 0, _, _ => none
  | lines + 1, d, t =>
    match skipInline t with
    | [] => some d
    | '\n' :: rest => readStatements lines d rest
    | t => do
      let (d, rest) ← readStatement d t
      let rest ← skipComment (skipInline rest)
      match rest with
      | [] => return d
      | '\n' :: rest => readStatements lines d rest
      | _ => none

/-- The text with a line feed for every carriage return and line feed. -/
def joinLineEnds : Text → Text
  | [] => []
  | [c] => [c]
  | c :: d :: rest =>
    if c = '\r' && d = '\n' then '\n' :: joinLineEnds rest else c :: joinLineEnds (d :: rest)

/-- The table that a document describes. A document has fewer lines than characters and one more. -/
def read? (document : Text) : Option (Table Value) :=
  let t := joinLineEnds document
  (readStatements (t.length + 1) {} t).map (·.entries)

end Shorthand.Toml
