import Shorthand.Table
import Shorthand.Value.Binary64

/-! # Values of settings and annotations

The values that a settings file can hold, that callers attach to nodes, and that a parse passes to its hooks:
scalars, moments in time, lists and tables. -/

namespace Shorthand

/-- A day of the calendar. -/
structure Date where
  /-- The year, from 1 to 9999. -/
  year : Nat
  /-- The month, from 1 to 12. -/
  month : Nat
  /-- The day of the month. -/
  day : Nat
  deriving DecidableEq, Repr

/-- A time of day. -/
structure Time where
  /-- The hour, below 24. -/
  hour : Nat
  /-- The minute, below 60. -/
  minute : Nat
  /-- The second, below 60. -/
  second : Nat
  /-- The part of a second, in millionths. -/
  micro : Nat
  deriving DecidableEq, Repr

/-- A value. -/
inductive Value where
  /-- The missing value. -/
  | null
  /-- A truth value. -/
  | bool (b : Bool)
  /-- An integer of any size. -/
  | integer (n : Int)
  /-- A floating-point number. -/
  | real (x : Binary64)
  /-- A text. -/
  | text (t : Text)
  /-- A day. -/
  | date (d : Date)
  /-- A time of day. -/
  | time (t : Time)
  /-- A day and a time, with the distance to universal time in minutes if it is given. -/
  | moment (d : Date) (t : Time) (offset : Option Int)
  /-- A list of values. -/
  | list (items : List Value)
  /-- A table of values. -/
  | table (entries : List (Text × Value))

namespace Value

instance : Inhabited Value := ⟨null⟩

/-- The members of a table value; no other value has members. -/
def members? : Value → Option (Table Value)
  | table entries => some entries
  | _ => none

/-- The text of a text value. -/
def text? : Value → Option Text
  | text t => some t
  | _ => none

end Value

end Shorthand
