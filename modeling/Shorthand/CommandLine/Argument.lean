import Shorthand.CommandLine.Switch

/-! # Arguments of the command line

Each argument is a plain text, a separator, or a switch, told apart by its spelling alone. A switch may be
spelled out, cut short while it is still unique, or stand with its value in one argument. After the first
separator every argument is plain.

* **`Argument.read`** — the sort of a single argument.
* **`Argument.readAll`** — the sorts of all arguments.
* **`Request.ofSwitch`** — the switches that stand in one argument, with their values. -/

namespace Shorthand.CommandLine

/-- An argument. -/
inductive Argument where
  /-- A text. -/
  | plain (t : Text)
  /-- The first pair of hyphens. -/
  | separator
  /-- A switch in its short or its long spelling, with the text that is attached to it. -/
  | switch (s : Switch) (short : Bool) (attached : Option Text)
  /-- What looks like a switch and is none. -/
  | unknown (t : Text)
  deriving DecidableEq, Repr

namespace Argument

/-- The pair of hyphens that separates switches from plain texts. -/
def separatorText : Text := ['-', '-']

/-- Whether a text is digits, or digits and a point before the last of them. -/
def isUnsignedNumber (t : Text) : Bool :=
  match t.dropWhile Text.isDigit with
  | [] => t ≠ []
  | '.' :: part => part ≠ [] && part.all Text.isDigit
  | _ => false

/-- Whether what follows a hyphen makes a negative number; one line end may follow it. -/
def isNumberTail (t : Text) : Bool :=
  isUnsignedNumber (if t.getLast? = some '\n' then t.dropLast else t)

/-- The sort of an argument that begins like a switch and is none: negative numbers and texts with a space are
plain. -/
def ofStray (t : Text) : Argument :=
  if isNumberTail t.tail || t.contains ' ' then plain t else unknown t

/-- The text before the first equals sign, and the text after it. -/
def splitValue (t : Text) : Text × Option Text :=
  match t.dropWhile (· ≠ '=') with
  | [] => (t, none)
  | _ :: value => (t.takeWhile (· ≠ '='), some value)

/-- The sort of a single argument. -/
def read (t : Text) : Except UsageFault Argument :=
  match t with
  | '-' :: c :: rest =>
    let (spelling, value) := splitValue t
    match Switch.ofSpelling? spelling with
    | some s => .ok (switch s (c ≠ '-') value)
    | none =>
      if c = '-' then
        match Switch.begunBy spelling with
        | [] => .ok (ofStray t)
        | [(_, s)] => .ok (switch s false value)
        | several => .error (.ambiguous t (several.map (·.1)))
      else
        match Switch.ofSpelling? ['-', c] with
        | some s => .ok (switch s true (some rest))
        | none => .ok (ofStray t)
  | _ => .ok (plain t)

/-- The sorts of all arguments. -/
def readAll : List Text → Except UsageFault (List Argument)
  | [] => .ok []
  | t :: rest =>
    if t = separatorText then .ok (separator :: rest.map plain)
    else do
      let first ← read t
      let others ← readAll rest
      return first :: others

/-- After a separator every argument is plain. -/
@[simp] theorem readAll_separator (rest : List Text) :
    readAll (separatorText :: rest) = .ok (separator :: rest.map plain) := by simp [readAll]

/-- A text that does not begin with a hyphen is plain. -/
theorem read_of_head_ne {c : Char} (h : c ≠ '-') (rest : Text) :
    read (c :: rest) = .ok (plain (c :: rest)) := by
  unfold read
  split
  · simp_all
  · rfl

end Argument

/-- A switch with its value, if it has one. -/
structure Request where
  /-- The switch. -/
  switch : Switch
  /-- Its value. -/
  value : Option Text
  deriving DecidableEq, Repr

namespace Request

/-- The switches that a switch and the text after it spell, where the text may go on with the letters of
further switches up to the first that takes the rest as its value. -/
def ofLetters (s : Switch) : Text → Except UsageFault (List Request)
  | [] => if s.takesValue then .ok [⟨s, some []⟩] else .error (.ignoredValue s [])
  | c :: rest =>
    if s.takesValue then .ok [⟨s, some (c :: rest)⟩]
    else
      match Switch.ofSpelling? ['-', c] with
      | none => .error (.ignoredValue s (c :: rest))
      | some next =>
        if rest = [] then .ok [⟨s, none⟩, ⟨next, none⟩]
        else (ofLetters next rest).map fun others => ⟨s, none⟩ :: others

/-- The switches that stand in one argument, with their values. -/
def ofSwitch (s : Switch) (short : Bool) : Option Text → Except UsageFault (List Request)
  | none => .ok [⟨s, none⟩]
  | some value =>
    if short then ofLetters s value
    else if s.takesValue then .ok [⟨s, some value⟩]
    else .error (.ignoredValue s value)

@[simp] theorem ofSwitch_none (s : Switch) (short : Bool) :
    ofSwitch s short none = .ok [⟨s, none⟩] := rfl

end Request

end Shorthand.CommandLine
