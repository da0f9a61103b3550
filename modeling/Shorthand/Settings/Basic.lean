import Shorthand.Resource
import Shorthand.Text.Case
import Shorthand.Text.Integer

/-! # Settings

What can be set about the printing of trees, and why a settings file is not taken.

* **`Settings`** — the settings; the defaults of its fields hold where nothing is set.
* **`SettingsFault`** — the reasons for which a settings file, or one of its entries, is refused. -/

namespace Shorthand

/-- The forms in which a tree can be printed. -/
inductive OutputFormat where
  /-- An outline with one line per node. -/
  | tree
  /-- A list of JSON objects. -/
  | json
  deriving DecidableEq, Repr

namespace OutputFormat

/-- All forms, in the order in which they are offered. -/
def all : List OutputFormat := [tree, json]

/-- The name of a form. -/
def name : OutputFormat → Text
  | tree => ['t', 'r', 'e', 'e']
  | json => ['j', 's', 'o', 'n']

/-- The form of a name. -/
def ofName? (t : Text) : Option OutputFormat := all.find? fun format => format.name == t

/-- Every form is found by its name, and by no other text. -/
theorem ofName?_eq_some_iff {t : Text} {format : OutputFormat} :
    ofName? t = some format ↔ t = format.name := by
  constructor
  · intro found
    unfold ofName? at found
    have named := List.find?_some found
    exact (beq_iff_eq.1 named).symm
  · rintro rfl
    cases format <;> decide

end OutputFormat

/-- The settings. -/
structure Settings where
  /-- The form in which trees are printed. -/
  format : OutputFormat := .tree
  /-- The number of spaces for each level of a tree. -/
  indent : Int := 2
  /-- The name of the least severity that is reported. -/
  level : Text := ['W', 'A', 'R', 'N', 'I', 'N', 'G']
  /-- What element names stand for. -/
  resources : Table Resource := []
  deriving DecidableEq, Repr

/-- Why a settings file is not taken. -/
inductive SettingsFault where
  /-- The file cannot be read. -/
  | unreadable
  /-- The file is no document. -/
  | malformed
  /-- No form of printing has the given name. -/
  | unknownFormat (name : Text)
  /-- The text is no acceptable integer. -/
  | integer (cause : IntegerFault)
  /-- What is no number has no integer part. -/
  | notANumber
  /-- An infinity has no integer part. -/
  | infinite
  /-- A value is not of a kind that can be used in its place. -/
  | unfit
  /-- A value is not a table. -/
  | noTable
  deriving DecidableEq, Repr

namespace SettingsFault

/-- Whether the fault ends the program; all others only make it do without the file. -/
def isFatal (fault : SettingsFault) : Bool := fault == infinite

/-- The message of the fault that ends the program. -/
def fatalMessage : Text := "cannot convert float infinity to integer".toList

end SettingsFault

end Shorthand
