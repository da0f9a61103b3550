import Shorthand.Attribute.Set
import Shorthand.Multiplier

/-! # Tokens

A token such as `a#top.nav[href=# title="Hi"]{Home}*2` describes one node. It is taken apart in this order:
the trailing multiplier, the text between braces, the markers of attributes, the element name.

* **`Token.splitText`** — the first text outside of attribute sets, and what stands before it.
* **`Token.splitMarks`** — the attributes that the markers give, and what stands before the first marker.
* **`Token.read`** — all that a token says; where it cannot be read on, the fault stands beside what was
  read up to there. -/

namespace Shorthand

/-- What a token says about its node. A part that is missing leaves the node as it is. -/
structure Token where
  /-- The multiplier at the end of the token. -/
  multiplier : Multiplier := .absent
  /-- The token without its multiplier. -/
  abbreviation : Option Text := none
  /-- The text between braces. -/
  text : Option Text := none
  /-- The attributes of the markers, merged. -/
  attributes : Option (List Attribute) := none
  /-- What stands before the markers and the text; nothing there means that the node has no name. -/
  name : Option Text := none
  deriving DecidableEq, Repr

namespace Token

/-- Find the first text in the end of a token of `size` characters: what stands before it, and the text
itself. Spans in square brackets and in parentheses are passed over if they have an end, and a backslash
protects the character after it. -/
def splitText (size : Nat) (t : Text) : Except AbbreviationFault (Option (Text × Text)) :=
  match t with
  | [] => .ok none
  | c :: rest =>
    if c = '[' || c = '(' then
      match _ : (if c = '[' then Delimiter.square else Delimiter.round).span? (c :: rest) with
      | some (span, after) =>
        (splitText size after).map (Option.map fun found => (span ++ found.1, found.2))
      | none => (splitText size rest).map (Option.map fun found => (c :: found.1, found.2))
    else if c = '\\' then
      match rest with
      | [] => .ok none
      | d :: after =>
        (splitText size after).map (Option.map fun found => (c :: d :: found.1, found.2))
    else if c = '\x7b' then
      match Delimiter.curly.span? (c :: rest) with
      | some (span, _) => .ok (some ([], span.interior))
      | none => .error (.unclosed .curly (size - (rest.length + 1)))
    else (splitText size rest).map (Option.map fun found => (c :: found.1, found.2))
termination_by t.length
decreasing_by
  · exact Delimiter.span?_length_lt (by assumption)
  · simp
  · simp only [List.length_cons]; omega
  · simp

/-- Whether a character introduces attributes: an identifier, a class or a set. -/
def isMark (c : Char) : Bool := c == '#' || c == '.' || c == '['

/-- The attributes that the markers in the end of a token of `size` characters give, in order. -/
def marks (size : Nat) (t : Text) : Except AbbreviationFault (List Attribute) :=
  match t with
  | [] => .ok []
  | c :: rest =>
    if c = '#' then
      (marks size (rest.dropWhile isWordChar)).map
        (⟨['i', 'd'], rest.takeWhile isWordChar⟩ :: ·)
    else if c = '.' then
      (marks size (rest.dropWhile isWordChar)).map
        (⟨['c', 'l', 'a', 's', 's'], rest.takeWhile isWordChar⟩ :: ·)
    else if c = '[' then
      match _ : Delimiter.square.span? (c :: rest) with
      | none => .error (.unclosedSet (size - (rest.length + 1)))
      | some (span, after) => do
        let inside ← Attribute.readSet span.interior
        if inside = [] then throw (.emptySet (size - (rest.length + 1)))
        let others ← marks size after
        return inside ++ others
    else marks size rest
termination_by t.length
decreasing_by
  · have := (List.dropWhile_sublist (l := rest) isWordChar).length_le
    simp only [List.length_cons]; omega
  · have := (List.dropWhile_sublist (l := rest) isWordChar).length_le
    simp only [List.length_cons]; omega
  · exact Delimiter.span?_length_lt (by assumption)
  · simp

/-- The text before the first marker, and the attributes of all markers, merged. Nothing is given for a text
without markers. -/
def splitMarks (t : Text) : Except AbbreviationFault (Option (Text × List Attribute)) :=
  (marks t.length t).map fun attributes =>
    if attributes = [] then none
    else some (t.takeWhile fun c => !isMark c, Attribute.merge attributes)

/-- Read a token: what it says, and the fault that ends the reading. -/
def read (t : Text) : Token × Option Fault :=
  match Multiplier.cut t with
  | .error fault => ({}, some fault)
  | .ok (abbreviation, multiplier) =>
    let token : Token := { multiplier, abbreviation := some abbreviation }
    match splitText abbreviation.length abbreviation with
    | .error fault => (token, some fault)
    | .ok split =>
      let element := (split.map (·.1)).getD abbreviation
      let token := { token with text := split.map (·.2) }
      match splitMarks element with
      | .error fault => (token, some fault)
      | .ok marked =>
        let name := (marked.map (·.1)).getD element
        let token := { token with attributes := marked.map (·.2), name := some name }
        if name = [] || isElementName name then (token, none)
        else (token, some (AbbreviationFault.badName name))

end Token

end Shorthand
