import Shorthand.Settings.Document
import Shorthand.Toml.Document

/-! # Where settings come from

Settings come from a file, if there is one that can be used as a whole, and from variables of the environment,
which go before what the file says. A file that cannot be used is left aside with a warning, and a variable that
cannot be used is left aside without one.

* **`SettingsFile.read`** — the settings of a file, as a reader of documents reads it.
* **`Settings.withVariables`** — the settings with the variables applied.
* **`Settings.load`** — the settings from both sources; `Settings.loadBy` — with any reader of documents.
* **`SettingsCache.get`** — the settings, loaded when they are first asked for. -/

namespace Shorthand

/-- What is found in the place of the settings file. -/
inductive SettingsFile where
  /-- Nothing. -/
  | absent
  /-- Something that cannot be read as a file. -/
  | unreadable
  /-- A file with the given bytes. -/
  | content (bytes : ByteArray)

namespace SettingsFile

/-- The table that is written in a file, by the given reader of documents; nothing for anything but a well-formed
document. -/
def document? (reader : Text → Option (Table Value)) : SettingsFile → Option (Table Value)
  | content bytes => (String.fromUTF8? bytes).bind fun document => reader document.toList
  | _ => none

/-- The settings of a file, the defaults if there is none. -/
def read (reader : Text → Option (Table Value)) : SettingsFile → Except SettingsFault Settings
  | absent => .ok {}
  | unreadable => .error .unreadable
  | content bytes =>
    match document? reader (content bytes) with
    | none => .error .malformed
    | some entries => Settings.ofDocument (.table entries)

variable (reader : Text → Option (Table Value))

@[simp] theorem read_absent : read reader absent = .ok {} := rfl

@[simp] theorem read_unreadable : read reader unreadable = .error .unreadable := rfl

end SettingsFile

namespace Settings

/-- The settings with the form of printing that a variable names, if it names one. -/
def withFormat (named : Option Text) (s : Settings) : Settings :=
  match named.bind OutputFormat.ofName? with
  | some format => { s with format }
  | none => s

/-- The settings with the number of spaces that a variable gives, if it is an integer literal. -/
def withIndent (literal : Option Text) (s : Settings) : Settings :=
  match literal.map Text.readInteger with
  | some (.ok indent) => { s with indent }
  | _ => s

/-- The settings with the level that a variable names, in upper case. -/
def withLevel (named : Option Text) (s : Settings) : Settings :=
  match named with
  | some level => { s with level := level.upper }
  | none => s

/-- The settings with the variables of the environment applied. -/
def withVariables (environment : Table Text) (s : Settings) : Settings :=
  let value (name : String) : Option Text := Table.find? name.toList environment
  ((s.withFormat (value "ZENTREE_FORMAT")).withIndent (value "ZENTREE_INDENT")).withLevel
    (value "ZENTREE_LOG_LEVEL")

/-- Settings as they were loaded. -/
structure Loaded where
  /-- The settings. -/
  settings : Settings
  /-- Whether there is a settings file that was left aside. -/
  ignored : Bool

/-- Load the settings with the given reader of documents. A file that cannot be used is left aside, unless its fault
is fatal. -/
def loadBy (reader : Text → Option (Table Value)) (file : SettingsFile) (environment : Table Text) :
    Except SettingsFault Loaded :=
  match file.read reader with
  | .ok s => .ok ⟨s.withVariables environment, false⟩
  | .error fault =>
    if fault.isFatal then .error fault
    else .ok ⟨({} : Settings).withVariables environment, true⟩

/-- Load the settings. -/
def load (file : SettingsFile) (environment : Table Text) : Except SettingsFault Loaded :=
  loadBy Toml.read? file environment

/-- Without a variable nothing is overridden. -/
@[simp] theorem withVariables_nil (s : Settings) : s.withVariables [] = s := rfl

/-- The variables leave the resources. -/
@[simp] theorem resources_withVariables (environment : Table Text) (s : Settings) :
    (s.withVariables environment).resources = s.resources := by
  simp only [withVariables, withLevel, withIndent, withFormat]
  repeat' split
  all_goals rfl

/-- Without a file there are the defaults and the variables. -/
@[simp] theorem load_absent (environment : Table Text) :
    load .absent environment = .ok ⟨({} : Settings).withVariables environment, false⟩ := rfl

end Settings

/-- The settings of a running program, once they have been loaded. -/
structure SettingsCache where
  /-- The settings that were loaded. -/
  loaded : Option Settings := none

namespace SettingsCache

/-- The settings, loaded when they are first asked for, and whether this left a settings file aside. -/
def get (cache : SettingsCache) (file : SettingsFile) (environment : Table Text) :
    Except SettingsFault (Settings.Loaded × SettingsCache) :=
  match cache.loaded with
  | some settings => .ok (⟨settings, false⟩, cache)
  | none => (Settings.load file environment).map fun loaded => (loaded, ⟨some loaded.settings⟩)

/-- Forget the settings, so that they are loaded again. -/
def reset (_ : SettingsCache) : SettingsCache := {}

/-- Settings that were loaded stay as they are, whatever becomes of their sources. -/
@[simp] theorem get_of_loaded (settings : Settings) (file : SettingsFile) (environment : Table Text) :
    get ⟨some settings⟩ file environment = .ok (⟨settings, false⟩, ⟨some settings⟩) := rfl

end SettingsCache

end Shorthand
