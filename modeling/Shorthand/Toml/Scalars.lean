import Shorthand.Toml.Strings
import Shorthand.Value.Basic
import Shorthand.Text.Integer

/-! # Numbers and moments of a TOML document

Integers are decimal, or with a leading `0x`, `0o` or `0b` of another base; floating-point numbers have a
fraction or an exponent. Single underscores may stand between digits. Dates and times are written in full, with
an optional distance to universal time. -/

namespace Shorthand.Toml

/-- A digit of a base up to sixteen. -/
def isDigitOf (base : Nat) (c : Char) : Bool :=
  match hexDigit? c with
  | none => false
  | some d => d < base

/-- The digits at the beginning of a text, where a single underscore may stand before each but the first; the
underscores are left out. -/
def digitTail (base : Nat) : Text → Text × Text
  | [] => ([], [])
  | [c] => if isDigitOf base c then ([c], []) else ([], [c])
  | c :: d :: rest =>
    if isDigitOf base c then
      let found := digitTail base (d :: rest)
      (c :: found.1, found.2)
    else if c = '_' && isDigitOf base d then
      let found := digitTail base rest
      (d :: found.1, found.2)
    else ([], c :: d :: rest)

/-- Read a sequence of digits, at least one. -/
def readDigits (base : Nat) : Reader Text
  | [] => none
  | c :: rest =>
    if isDigitOf base c then
      let found := digitTail base rest
      some (c :: found.1, found.2)
    else none

/-- The value of a sequence of digits. -/
def digitsIn (base : Nat) (digits : Text) : Nat :=
  digits.foldl (fun n c => base * n + (hexDigit? c).getD 0) 0

/-- Read an integer of another base than ten. -/
def readRadix : Reader Value
  | '0' :: 'x' :: rest => (readDigits 16 rest).map fun r => (.integer (digitsIn 16 r.1), r.2)
  | '0' :: 'o' :: rest => (readDigits 8 rest).map fun r => (.integer (digitsIn 8 r.1), r.2)
  | '0' :: 'b' :: rest => (readDigits 2 rest).map fun r => (.integer (digitsIn 2 r.1), r.2)
  | _ => none

/-- A sign at the beginning of a text. -/
def readSign : Text → Bool × Text
  | '-' :: rest => (true, rest)
  | '+' :: rest => (false, rest)
  | t => (false, t)

/-- The digits before the point: a zero alone, or digits that do not begin with zero. -/
def readWhole : Reader Text
  | '0' :: rest => some (['0'], rest)
  | t => readDigits 10 t

/-- The fraction at the beginning of a text, if there is one. -/
def readFraction? : Reader Text
  | '.' :: rest => readDigits 10 rest
  | _ => none

/-- The exponent at the beginning of a text, if there is one. -/
def readExponent? : Reader Int
  | c :: rest =>
    if c = 'e' || c = 'E' then
      let (negative, unsigned) := readSign rest
      (readDigits 10 unsigned).map fun r =>
        let n : Int := digitsIn 10 r.1
        (if negative then -n else n, r.2)
    else none
  | [] => none

/-- Read a decimal number. Integers of too many digits are refused. -/
def readDecimal (t : Text) : Option (Value × Text) := do
  let (negative, unsigned) := readSign t
  let (whole, rest) ← readWhole unsigned
  let fraction := readFraction? rest
  let rest := (fraction.map (·.2)).getD rest
  let exponent := readExponent? rest
  let rest := (exponent.map (·.2)).getD rest
  if fraction.isNone && exponent.isNone then
    if IntegerFault.digitLimit < whole.length then none
    else
      let n : Int := digitsIn 10 whole
      return (.integer (if negative then -n else n), rest)
  else
    let part := (fraction.map (·.1)).getD []
    let power := (exponent.map (·.1)).getD 0
    return (.real (Binary64.ofDecimal negative (digitsIn 10 (whole ++ part)) (power - part.length)),
      rest)

/-- Read an infinity, or what is no number. -/
def readSpecial (t : Text) : Option (Value × Text) :=
  let (negative, unsigned) := readSign t
  match unsigned with
  | 'i' :: 'n' :: 'f' :: rest => some (.real (.infinite negative), rest)
  | 'n' :: 'a' :: 'n' :: rest => some (.real .nan, rest)
  | _ => none

/-- Read a number of exactly the given count of digits that lies between two bounds. -/
def readFixed (width low high : Nat) (t : Text) : Option (Nat × Text) :=
  let digits := t.take width
  if digits.length = width && digits.all (isDigitOf 10) then
    let n := digitsIn 10 digits
    if low ≤ n && n ≤ high then some (n, t.drop width) else none
  else none

/-- Read one character of a set. -/
def readChar (wanted : Char → Bool) : Reader Char
  | c :: rest => if wanted c then some (c, rest) else none
  | [] => none

/-- Read the digits of a date. Whether the month has the day is not looked at. -/
def readDate (t : Text) : Option (Date × Text) := do
  let (year, t) ← readFixed 4 0 9999 t
  let (_, t) ← readChar (· == '-') t
  let (month, t) ← readFixed 2 1 12 t
  let (_, t) ← readChar (· == '-') t
  let (day, t) ← readFixed 2 1 31 t
  return (⟨year, month, day⟩, t)

/-- The millionths of a second that the digits after a point denote; further digits are passed over. -/
def readMicro (t : Text) : Nat × Text :=
  match t with
  | '.' :: rest =>
    let digits := rest.takeWhile (isDigitOf 10)
    if digits = [] then (0, t)
    else
      let six := (digits ++ ['0', '0', '0', '0', '0', '0']).take 6
      (digitsIn 10 six, rest.dropWhile (isDigitOf 10))
  | _ => (0, t)

/-- Read a time of day. -/
def readTime (t : Text) : Option (Time × Text) := do
  let (hour, t) ← readFixed 2 0 23 t
  let (_, t) ← readChar (· == ':') t
  let (minute, t) ← readFixed 2 0 59 t
  let (_, t) ← readChar (· == ':') t
  let (second, t) ← readFixed 2 0 59 t
  let (micro, t) := readMicro t
  return (⟨hour, minute, second, micro⟩, t)

/-- Read the distance to universal time, in minutes. -/
def readOffset (t : Text) : Option (Int × Text) :=
  match t with
  | 'Z' :: rest => some (0, rest)
  | 'z' :: rest => some (0, rest)
  | _ => do
    let (sign, t) ← readChar (fun c => c == '+' || c == '-') t
    let (hours, t) ← readFixed 2 0 23 t
    let (_, t) ← readChar (· == ':') t
    let (minutes, t) ← readFixed 2 0 59 t
    let distance : Int := hours * 60 + minutes
    return (if sign = '-' then -distance else distance, t)

/-- A year of 366 days. -/
def isLeapYear (year : Nat) : Bool := year % 4 == 0 && (year % 100 != 0 || year % 400 == 0)

/-- The number of days of a month. -/
def daysOf (year month : Nat) : Nat :=
  if month = 2 then (if isLeapYear year then 29 else 28)
  else if month = 4 || month = 6 || month = 9 || month = 11 then 30
  else 31

/-- The calendar has the day. -/
def isCalendarDay (d : Date) : Bool := 1 ≤ d.year && d.day ≤ daysOf d.year d.month

/-- The time of day after a date, with the distance to universal time, if there is one. -/
def readClock? (t : Text) : Option ((Time × Option Int) × Text) := do
  let (_, t) ← readChar (fun c => c == 'T' || c == 't' || c == ' ') t
  let (time, t) ← readTime t
  match readOffset t with
  | none => return ((time, none), t)
  | some (offset, t) => return ((time, some offset), t)

/-- Read a date, a time of day, a number, an infinity or what is no number. A date that the calendar does not
have is refused. -/
def readScalar (t : Text) : Option (Value × Text) :=
  match readDate t with
  | some (date, rest) =>
    if !isCalendarDay date then none
    else
      match readClock? rest with
      | none => some (.date date, rest)
      | some ((time, offset), rest) => some (.moment date time offset, rest)
  | none =>
    match readTime t with
    | some (time, rest) => some (.time time, rest)
    | none =>
      match readRadix t with
      | some found => some found
      | none =>
        match (readWhole (readSign t).2).isSome with
        | true => readDecimal t
        | false => readSpecial t

end Shorthand.Toml
