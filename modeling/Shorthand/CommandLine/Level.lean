import Shorthand.Text.Quoted

/-! # Levels of reports

The settings name the least severity that is reported. The steps of a parse are of the severity `debug`, so only
two of the levels show them. A name that stands for no level leaves the usual one. Two names are reserved for the
layout of reports and cannot be used as levels.

* **`Level.showsSteps`** — whether the level of a name shows the steps of a parse. -/

namespace Shorthand.CommandLine

/-- Why a name cannot be used as a level. -/
inductive LevelFault where
  /-- The name is that of the layout of reports. -/
  | layout
  /-- The name is that of the table of layouts. -/
  | layouts
  deriving DecidableEq, Repr

namespace LevelFault

/-- The usual layout of reports. -/
def usualLayout : Text := "%(levelname)s:%(name)s:%(message)s".toList

/-- The message of a fault. -/
def message : LevelFault → Text
  | layout => "Unknown level: ".toList ++ usualLayout.quoted
  | layouts => "Level not an integer or a valid string".toList

end LevelFault

namespace Level

/-- Whether the level of a name shows the steps of a parse. -/
def showsSteps (name : Text) : Except LevelFault Bool :=
  if name = "BASIC_FORMAT".toList then .error .layout
  else if name = "_STYLES".toList then .error .layouts
  else .ok (name == "DEBUG".toList || name == "NOTSET".toList)

/-- The usual level shows no steps. -/
theorem showsSteps_warning : showsSteps "WARNING".toList = .ok false := rfl

end Level

end Shorthand.CommandLine
