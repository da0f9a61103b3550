import Shorthand.Reading.Item

/-! # Scanning an abbreviation

One step of the scan reads one item at the beginning of what is left of a level: an operator, a group with its
multiplier, or a token.

* **`tokenRun`** — the longest token at the beginning of a text.
* **`readItems`** — the items of a level. The number of steps is limited, and so is the nesting of groups.
* **`readLevel`** — the items of a level with the white space at its ends left aside. -/

namespace Shorthand

/-- Whether a plus sign before the given text belongs to the name (as in `ul+`) and is no operator: nothing
or another operator follows it. -/
def endsName : Text → Bool
  | [] => true
  | c :: _ => c == '+' || c == '>' || c == '^' || c == '*'

/-- The longest token at the beginning of the end of a level of `size` characters, and what follows it. The
spans of attribute sets and of texts belong to it as a whole. -/
def tokenRun (size : Nat) (t : Text) : Except AbbreviationFault (Text × Text) :=
  match t with
  | [] => .ok ([], [])
  | c :: rest =>
    if c = '[' || c = '\x7b' then
      let d := if c = '[' then Delimiter.square else Delimiter.curly
      match _ : (if c = '[' then Delimiter.square else Delimiter.curly).span? (c :: rest) with
      | some (span, after) => (tokenRun size after).map fun run => (span ++ run.1, run.2)
      | none => .error (.unclosed d (size - (rest.length + 1)))
    else if (c == '+' && endsName rest) || isTokenChar c then
      (tokenRun size rest).map fun run => (c :: run.1, run.2)
    else .ok ([], c :: rest)
termination_by t.length
decreasing_by
  · exact Delimiter.span?_length_lt (by assumption)
  · simp

/-- The items of the end of a level of `size` characters, where `groups` levels of groups may still be opened
and `steps` steps may still be done. -/
def readItems (groups steps size : Nat) (t : Text) : Reading :=
  match t, steps with
  | [], _ => .done
  | _ :: _, 0 => .failed (AbbreviationFault.tooManySteps (size - t.length))
  | c :: rest, steps + 1 =>
    if c = '(' then
      match Delimiter.round.span? (c :: rest) with
      | none => .failed (AbbreviationFault.unclosed .round (size - t.length))
      | some (span, after) =>
        match groups with
        | 0 => .failed AbbreviationFault.groupsTooDeep
        | groups + 1 =>
          let inside := span.interior.trim
          let reading := readItems groups (stepLimit - 1) inside.length inside
          match reading.fault with
          | some fault => ⟨[.group reading.items .absent], some fault⟩
          | none =>
            match Multiplier.read after with
            | .error fault => ⟨[.group reading.items .absent], some fault⟩
            | .ok (multiplier, after) =>
              (readItems (groups + 1) steps size after).after (.group reading.items multiplier)
    else if c = '>' then (readItems groups steps size rest).after .descend
    else if c = '+' then (readItems groups steps size rest).after .sibling
    else if c = '^' then (readItems groups steps size rest).after .climb
    else
      match tokenRun size (c :: rest) with
      | .error fault => .failed fault
      | .ok ([], _) => .failed (AbbreviationFault.strayChar c (size - t.length))
      | .ok (source, after) =>
        let (token, fault) := Token.read source
        match fault with
        | some fault => ⟨[.token source (size - t.length) token], some fault⟩
        | none => (readItems groups steps size after).after (.token source (size - t.length) token)
termination_by (groups, steps)

/-- The items of a level, where `groups` levels of groups may be opened in it. -/
def readLevel (groups : Nat) (level : Text) : Reading :=
  readItems groups (stepLimit - 1) level.trim.length level.trim

/-- The items of an abbreviation. -/
def readAbbreviation (t : Text) : Reading := readLevel groupLimit t

end Shorthand
