import Shorthand.Value.Basic
import Shorthand.Text.Integer

/-! # Spelling values as text

A setting may be given as a value of another kind than the text that is wanted; it is then taken as it is
spelled. A text on its own is spelled as it is. Inside of a list or a table texts are quoted, and moments in
time are spelled as the calls that make them. An integer of too many digits is not spelled, and neither is a value that
holds one.

* **`Value.spelled`** — the spelling of a value on its own.
* **`Value.nested`** — the spelling of a value inside of another value.
* **`Value.spell`** — the spelling of a value, or why there is none. -/

namespace Shorthand

/-- A number in at least `width` digits. -/
def paddedNat (width n : Nat) : Text :=
  let digits := Text.ofNat n
  List.replicate (width - digits.length) '0' ++ digits

namespace Date

/-- Year, month and day between hyphens. -/
def spelled (d : Date) : Text :=
  paddedNat 4 d.year ++ '-' :: paddedNat 2 d.month ++ '-' :: paddedNat 2 d.day

end Date

namespace Time

/-- Hour, minute and second between colons, with the millionths of a second if there are any. -/
def spelled (t : Time) : Text :=
  paddedNat 2 t.hour ++ ':' :: paddedNat 2 t.minute ++ ':' :: paddedNat 2 t.second ++
    (if t.micro = 0 then [] else '.' :: paddedNat 6 t.micro)

/-- The parts of a time of day, where the trailing parts that are zero are left out after the minutes. -/
def parts (t : Time) : List Nat :=
  if t.micro ≠ 0 then [t.hour, t.minute, t.second, t.micro]
  else if t.second ≠ 0 then [t.hour, t.minute, t.second]
  else [t.hour, t.minute]

end Time

namespace Value

/-- The distance to universal time, as hours and minutes. -/
def offsetSpelled (minutes : Int) : Text :=
  (if minutes < 0 then '-' else '+') ::
    (paddedNat 2 (minutes.natAbs / 60) ++ ':' :: paddedNat 2 (minutes.natAbs % 60))

/-- The distance to universal time inside of another value. A distance to the west is told as a day less. -/
def offsetNested (minutes : Int) : Text :=
  if minutes = 0 then "datetime.timezone.utc".toList
  else
    let seconds := 60 * minutes
    "datetime.timezone(datetime.timedelta(".toList ++
      (if seconds < 0 then "days=-1, ".toList else []) ++ "seconds=".toList ++
      Text.ofInt (if seconds < 0 then seconds + 86400 else seconds) ++ "))".toList

/-- Texts in a row, with a comma and a space between neighbours. -/
def listed (items : List Text) : Text := Text.joined [',', ' '] items

mutual
/-- The spelling of a value inside of another value. -/
def nested : Value → Text
  | null => "None".toList
  | bool b => if b then "True".toList else "False".toList
  | integer n => Text.ofInt n
  | real x => x.text
  | text t => t.quoted
  | date d =>
    "datetime.date(".toList ++ listed ([d.year, d.month, d.day].map Text.ofNat) ++ [')']
  | time t => "datetime.time(".toList ++ listed (t.parts.map Text.ofNat) ++ [')']
  | moment d t offset =>
    "datetime.datetime(".toList ++
      listed (([d.year, d.month, d.day] ++ t.parts).map Text.ofNat) ++
      (match offset with
        | none => []
        | some minutes => ", tzinfo=".toList ++ offsetNested minutes) ++ [')']
  | list items => '[' :: (listed (nestedItems items) ++ [']'])
  | table entries => '\x7b' :: (listed (nestedEntries entries) ++ ['\x7d'])

/-- The spellings of the items of a list. -/
def nestedItems : List Value → List Text
  | [] => []
  | v :: rest => nested v :: nestedItems rest

/-- The spellings of the entries of a table. -/
def nestedEntries : List (Text × Value) → List Text
  | [] => []
  | (key, v) :: rest => (key.quoted ++ ':' :: ' ' :: nested v) :: nestedEntries rest
end

/-- The spelling of a value on its own. -/
def spelled : Value → Text
  | text t => t
  | date d => d.spelled
  | time t => t.spelled
  | moment d t offset =>
    d.spelled ++ ' ' :: t.spelled ++
      (match offset with
        | none => []
        | some minutes => offsetSpelled minutes)
  | v => nested v

/-- Why an integer is not spelled: it has too many digits. -/
def digitFault? (n : Int) : Option IntegerFault :=
  let digits := (Text.ofNat n.natAbs).length
  if IntegerFault.digitLimit < digits then some (.tooLong digits) else none

mutual
/-- Why a value is not spelled: the first integer in it that has too many digits. -/
def spellingFault? : Value → Option IntegerFault
  | integer n => digitFault? n
  | list items => itemsFault? items
  | table entries => entriesFault? entries
  | _ => none

/-- Why the items of a list are not spelled. -/
def itemsFault? : List Value → Option IntegerFault
  | [] => none
  | v :: rest => (spellingFault? v).or (itemsFault? rest)

/-- Why the entries of a table are not spelled. -/
def entriesFault? : List (Text × Value) → Option IntegerFault
  | [] => none
  | (_, v) :: rest => (spellingFault? v).or (entriesFault? rest)
end

/-- The spelling of a value on its own, or why there is none. -/
def spell (v : Value) : Except IntegerFault Text :=
  match v.spellingFault? with
  | some fault => .error fault
  | none => .ok v.spelled

end Value

end Shorthand
