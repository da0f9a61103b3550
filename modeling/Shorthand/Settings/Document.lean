import Shorthand.Settings.Basic

/-! # Settings from documents

A settings document has a section for the output, one for the reports, and a table of resources. Its entries are
applied one after the other, in a fixed order, and the first one that cannot be used ends this: what was set
before it stays set, and what comes after it is not looked at.

* **`Settings.edits`** — the changes that a document asks for, in their order.
* **`Settings.apply`** — the settings after the changes, with the fault that ended them.
* **`Settings.ofDocument`** — the settings of a document all of whose entries can be used. -/

namespace Shorthand

namespace Value

/-- What a section says about a key. Only a table has entries; a list of texts or a text that mentions the key
promises an entry that it cannot give. -/
def entry (key : Text) : Value → Except SettingsFault (Option Value)
  | table entries => .ok (Table.find? key entries)
  | list items => if items.any fun v => v.text? == some key then .error .unfit else .ok none
  | text t => if Text.hasPart key t then .error .unfit else .ok none
  | _ => .error .unfit

/-- The integer that a value stands for: a number without the part behind the point, a truth value as one or
zero, and a text by its literal. -/
def toInteger : Value → Except SettingsFault Int
  | integer n => .ok n
  | bool b => .ok (if b then 1 else 0)
  | real .nan => .error .notANumber
  | real x => match x.truncate? with
    | some n => .ok n
    | none => .error .infinite
  | text t => match Text.readInteger t with
    | .ok n => .ok n
    | .error cause => .error (.integer cause)
  | _ => .error .unfit

@[simp] theorem entry_table (key : Text) (entries : List (Text × Value)) :
    (table entries).entry key = .ok (Table.find? key entries) := rfl

@[simp] theorem toInteger_integer (n : Int) : (integer n).toInteger = .ok n := rfl

end Value

namespace Settings

/-- A change of the settings, which may fail. -/
abbrev Edit := Settings → Except SettingsFault Settings

/-- Set the form of printing by its name. -/
def setFormat (v : Value) : Edit := fun s =>
  match v.spell with
  | .error cause => .error (.integer cause)
  | .ok name =>
    match OutputFormat.ofName? name with
    | some format => .ok { s with format }
    | none => .error (.unknownFormat name)

/-- Set the number of spaces for each level. -/
def setIndent (v : Value) : Edit := fun s => v.toInteger.map fun indent => { s with indent }

/-- Set the level of reports; its name is kept in upper case. -/
def setLevel (v : Value) : Edit := fun s =>
  match v.spell with
  | .error cause => .error (.integer cause)
  | .ok name => .ok { s with level := name.upper }

/-- Add a resource under a key. -/
def addResource (key : Text) (v : Value) : Edit := fun s =>
  match Resource.ofEntry? key v, (Resource.spelledParts v).findSome? Value.spellingFault? with
  | none, _ => .error .noTable
  | some _, some cause => .error (.integer cause)
  | some resource, none => .ok { s with resources := Table.put key resource s.resources }

/-- Make the change that the entry of a section asks for; without the entry nothing changes. -/
def fromEntry (part : Value) (key : String) (edit : Value → Edit) : Edit := fun s =>
  match part.entry key.toList with
  | .error fault => .error fault
  | .ok none => .ok s
  | .ok (some v) => edit v s

/-- The changes that a section of a document asks for; a document without the section asks for none. -/
def sectionEdits (document : Value) (key : String) (edits : Value → List Edit) : List Edit :=
  match document.entry key.toList with
  | .error fault => [fun _ => .error fault]
  | .ok none => []
  | .ok (some v) => edits v

/-- The changes that a document asks for, in their order. -/
def edits (document : Value) : List Edit :=
  sectionEdits document "output" (fun output =>
    [fromEntry output "format" setFormat, fromEntry output "indent" setIndent]) ++
  sectionEdits document "logging" (fun logging => [fromEntry logging "level" setLevel]) ++
  sectionEdits document "resources" (fun resources =>
    match resources.members? with
    | some entries => entries.map fun e => addResource e.1 e.2
    | none => [fun _ => .error .noTable])

/-- Make changes one after the other, up to the first that fails. -/
def applyAll : List Edit → Settings → Settings × Option SettingsFault
  | [], s => (s, none)
  | edit :: rest, s =>
    match edit s with
    | .ok s => applyAll rest s
    | .error fault => (s, some fault)

/-- The settings after the changes that a document asks for, with the fault that ended them. -/
def apply (document : Value) (s : Settings) : Settings × Option SettingsFault :=
  applyAll (edits document) s

/-- The settings of a document all of whose entries can be used. -/
def ofDocument (document : Value) : Except SettingsFault Settings :=
  match apply document {} with
  | (s, none) => .ok s
  | (_, some fault) => .error fault

@[simp] theorem applyAll_nil (s : Settings) : applyAll [] s = (s, none) := rfl

/-- The changes of two lists are made one after the other. -/
theorem applyAll_append (first second : List Edit) (s : Settings) :
    applyAll (first ++ second) s =
      match applyAll first s with
      | (s, none) => applyAll second s
      | failed => failed := by
  induction first generalizing s with
  | nil => rfl
  | cons edit rest ih =>
    simp only [List.cons_append, applyAll]
    cases edit s with
    | ok next => exact ih next
    | error fault => rfl

/-- An empty document changes nothing. -/
@[simp] theorem ofDocument_empty : ofDocument (.table []) = .ok {} := rfl

end Settings

end Shorthand
