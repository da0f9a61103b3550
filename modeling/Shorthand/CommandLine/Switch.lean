import Shorthand.Table
import Shorthand.Settings.Basic

/-! # Switches of the command line

The switches that a command line can give, how each is spelled, and why a command line is not understood.

* **`Switch.spellings`** — all spellings, in the order in which they are told.
* **`Switch.ofSpelling?`** — the switch of a spelling.
* **`UsageFault.message`** — the message for a command line that is not understood. -/

namespace Shorthand.CommandLine

/-- A switch. -/
inductive Switch where
  /-- Tell how the program is used. -/
  | help
  /-- Print in the form that follows. -/
  | format
  /-- Indent by the number of spaces that follows. -/
  | indent
  /-- Leave the resources of the settings aside. -/
  | noResources
  /-- Report every step. -/
  | verbose
  deriving DecidableEq, Repr

namespace Switch

/-- Whether a value belongs to the switch. -/
def takesValue : Switch → Bool
  | format => true
  | indent => true
  | _ => false

/-- All spellings of the switches, in the order in which they are told. -/
def spellings : Table Switch :=
  [("-h".toList, help), ("--help".toList, help), ("--format".toList, format), ("-f".toList, format),
    ("--indent".toList, indent), ("-i".toList, indent), ("--no-resources".toList, noResources),
    ("--verbose".toList, verbose), ("-v".toList, verbose)]

/-- The switch of a spelling. -/
def ofSpelling? (t : Text) : Option Switch := Table.find? t spellings

/-- The spellings that a text begins. -/
def begunBy (t : Text) : Table Switch := spellings.filter fun entry => t.isPrefixOf entry.1

/-- The switch as messages name it: by all of its spellings. -/
def name (s : Switch) : Text :=
  Text.joined ['/'] ((spellings.filter fun entry => entry.2 == s).map (·.1))

/-- Every spelling begins with a hyphen and is longer than that. -/
theorem two_le_length_of_ofSpelling? {t : Text} {s : Switch} (h : ofSpelling? t = some s) :
    2 ≤ t.length := by
  have short : ∀ u : Text, u.length < 2 → ofSpelling? u = none := by
    intro u hu
    match u, hu with
    | [], _ => decide
    | [c], _ => simp [ofSpelling?, spellings, Table.find?]
  by_cases hu : t.length < 2
  · simp [short t hu] at h
  · omega

end Switch

/-- Why a command line is not understood. -/
inductive UsageFault where
  /-- A text begins several spellings. -/
  | ambiguous (argument : Text) (spellings : List Text)
  /-- A value is given to a switch that takes none. -/
  | ignoredValue (s : Switch) (value : Text)
  /-- The value of a switch is missing. -/
  | missingValue (s : Switch)
  /-- No form of printing has the given name. -/
  | unknownFormat (value : Text)
  /-- The indent is no acceptable integer. -/
  | badIndent (value : Text)
  /-- Arguments are left over. -/
  | unrecognized (arguments : List Text)
  deriving DecidableEq, Repr

namespace UsageFault

/-- The message of a fault with a switch. -/
def aboutSwitch (s : Switch) (message : Text) : Text :=
  "argument ".toList ++ s.name ++ ':' :: ' ' :: message

/-- The message of a fault. -/
def message : UsageFault → Text
  | ambiguous argument spellings =>
    "ambiguous option: ".toList ++ argument ++ " could match ".toList ++
      Text.joined [',', ' '] spellings
  | ignoredValue s value =>
    aboutSwitch s ("ignored explicit argument ".toList ++ value.quoted)
  | missingValue s => aboutSwitch s "expected one argument".toList
  | unknownFormat value =>
    aboutSwitch .format ("invalid choice: ".toList ++ value.quoted ++ " (choose from ".toList ++
      Text.joined [',', ' '] (OutputFormat.all.map fun format => format.name.quoted) ++ [')'])
  | badIndent value => aboutSwitch .indent ("invalid int value: ".toList ++ value.quoted)
  | unrecognized arguments =>
    "unrecognized arguments: ".toList ++ Text.joined [' '] arguments

end UsageFault

end Shorthand.CommandLine
