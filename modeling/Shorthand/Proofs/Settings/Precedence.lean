import Shorthand.Proofs.CommandLine.Overriding
import Shorthand.Proofs.Settings.Loading
import Shorthand.Proofs.Settings.Usable

/-! # Which source a setting comes from

A setting is what the variable of the environment says, if it can be used; else what the file says, if all of it can be
used; else the default. The command line goes before all of them.

* **`SettingsFile.applied?`** — the document of a file, if it is applied up to its end.
* **`Settings.Prefers`** — every setting comes from the first source that says it.
* `Settings.loadBy_precedence` — where the settings of a program come from. -/

namespace Shorthand

namespace SettingsFile

/-- The document of a file, if it is applied up to its end. -/
def applied? (reader : Text → Option (Table Value)) (file : SettingsFile) : Option (Table Value) :=
  (file.document? reader).filter fun document => (Settings.apply (.table document) {}).2.isNone

/-- A document is applied up to its end exactly if every entry of it can be used. -/
theorem applied?_eq_some_iff {reader : Text → Option (Table Value)} {file : SettingsFile} {document : Table Value} :
    file.applied? reader = some document ↔ file.document? reader = some document ∧ Settings.IsUsable document := by
  rw [applied?, Option.filter_eq_some_iff, Option.isNone_iff_eq_none]
  refine and_congr_right' ⟨fun ended => ?_, fun usable => ?_⟩
  · exact (Settings.apply_eq_iff.1 (Prod.ext rfl ended)).1
  · rw [Settings.apply_eq_iff.2 ⟨usable, rfl⟩]

end SettingsFile

namespace Settings

open CommandLine (Invocation Request)

/-- Every setting is what the variable says, if it can be used, else what the applied document says, else the
default. -/
structure Prefers (environment : Table Text) (applied : Option (Table Value)) (s : Settings) : Prop where
  /-- The form of printing is given by its name. -/
  format : s.format = (((Table.find? "ZENTREE_FORMAT".toList environment).bind OutputFormat.ofName?).or
    (applied.bind fun document => told? document "output" "format" Value.format?)).getD .tree
  /-- The number of spaces is given by an integer literal. -/
  indent : s.indent =
    (((Table.find? "ZENTREE_INDENT".toList environment).bind fun t => (Text.readInteger t).toOption).or
    (applied.bind fun document => told? document "output" "indent" Value.indent?)).getD 2
  /-- The level is kept in upper case. -/
  level : s.level = (((Table.find? "ZENTREE_LOG_LEVEL".toList environment).map Text.upper).or
    (applied.bind fun document => told? document "logging" "level" Value.level?)).getD "WARNING".toList
  /-- No variable gives resources. -/
  resources : s.resources = (applied.map toldResources).getD []

theorem withFormat_eq (named : Option Text) (s : Settings) :
    s.withFormat named = { s with format := (named.bind OutputFormat.ofName?).getD s.format } := by
  rw [withFormat]
  cases named.bind OutputFormat.ofName? <;> rfl

theorem withIndent_eq (literal : Option Text) (s : Settings) :
    s.withIndent literal =
      { s with indent := (literal.bind fun t => (Text.readInteger t).toOption).getD s.indent } := by
  rw [withIndent]
  cases literal with
  | none => rfl
  | some t => cases given : Text.readInteger t <;> simp [given, Except.toOption]

theorem withLevel_eq (named : Option Text) (s : Settings) :
    s.withLevel named = { s with level := (named.map Text.upper).getD s.level } := by
  cases named <;> rfl

/-- Settings to which the variables are applied prefer them to what they had before. -/
theorem prefers_withVariables (environment : Table Text) (applied : Option (Table Value)) :
    Prefers environment applied (((applied.map stated).getD {}).withVariables environment) := by
  rw [withVariables, withFormat_eq, withIndent_eq, withLevel_eq]
  refine ⟨?format, ?indent, ?level, ?resources⟩
  case resources => cases applied <;> rfl
  all_goals
    rw [Option.getD_or]
    cases applied <;> rfl

/-- A file is read as the settings that its applied document states, or else it is refused and no document is
applied. -/
theorem read_eq_or_refused (reader : Text → Option (Table Value)) (file : SettingsFile) :
    file.read reader = .ok (((file.applied? reader).map stated).getD {}) ∨
      file.applied? reader = none ∧ ∃ fault, file.read reader = .error fault := by
  cases file with
  | absent => exact .inl rfl
  | unreadable => exact .inr ⟨rfl, _, rfl⟩
  | content bytes =>
    rw [SettingsFile.read, SettingsFile.applied?]
    cases SettingsFile.document? reader (.content bytes) with
    | none => exact .inr ⟨rfl, _, rfl⟩
    | some document =>
      simp only [ofDocument]
      rcases applied : apply (.table document) {} with ⟨s, _ | fault⟩
      · obtain ⟨-, rfl⟩ := apply_eq_iff.1 applied
        exact .inl (by simp [Option.filter, applied])
      · exact .inr ⟨by simp [applied], fault, rfl⟩

/-- Settings are loaded from the document that is applied, if there is one, and from the variables. -/
theorem settings_of_loadBy {reader : Text → Option (Table Value)} {file : SettingsFile} {environment : Table Text}
    {loaded : Loaded} (done : loadBy reader file environment = .ok loaded) :
    loaded.settings = (((file.applied? reader).map stated).getD {}).withVariables environment := by
  rw [loadBy] at done
  rcases read_eq_or_refused reader file with read | ⟨refused, fault, read⟩
  · rw [read] at done
    cases done
    rfl
  · rw [read] at done
    simp only at done
    split at done
    · cases done
    · cases done
      rw [refused]
      rfl

/-- Where the settings of a program come from, by whatever reader the file is read. A document with an entry that cannot
be used gives none of them, wherever the entry stands; a variable that cannot be used matters only for its own setting;
and what the command line asks for last goes before all of this. -/
theorem loadBy_precedence {reader : Text → Option (Table Value)} {file : SettingsFile} {environment : Table Text}
    {loaded : Loaded} (done : loadBy reader file environment = .ok loaded) :
    (∀ document, file.applied? reader = some document ↔ file.document? reader = some document ∧ IsUsable document) ∧
    Prefers environment (file.applied? reader) loaded.settings ∧
    ∀ arguments invocation, Invocation.read loaded.settings arguments = .ok invocation →
      Request.override? .format OutputFormat.ofName? (Request.ofArguments arguments) loaded.settings.format =
        some invocation.format ∧
      Request.override? .indent (fun t => (Text.readInteger t).toOption) (Request.ofArguments arguments)
        loaded.settings.indent = some invocation.indent := by
  refine ⟨fun document => SettingsFile.applied?_eq_some_iff, ?prefers, fun arguments invocation read => ?overridden⟩
  case prefers =>
    rw [settings_of_loadBy done]
    exact prefers_withVariables environment (file.applied? reader)
  case overridden =>
    exact ⟨Invocation.format_follows.read read, Invocation.indent_follows.read read⟩

/-- A document with a section for the output and one resource. -/
def quotingDocument (resource : Value) : Table Value :=
  [("output".toList, .table [("format".toList, .text "json".toList), ("indent".toList, .integer 4)]),
    ("resources".toList, .table [("bq".toList, resource)])]

/-- The form of printing comes from the file if the variable names none, and a variable goes before the number of spaces
in the file. The command line goes before both. A resource that is no table discards the whole file, and the variable
is all that is left. -/
theorem loadBy_precedence_quotingDocument :
    let reader := fun (resource : Value) (_ : Text) => some (quotingDocument resource)
    let file := SettingsFile.content "".toUTF8
    let environment := [("ZENTREE_FORMAT".toList, "xml".toList), ("ZENTREE_INDENT".toList, "8".toList)]
    (∃ loaded, loadBy (reader (.table [])) file environment = .ok loaded ∧
      loaded.settings.format = .json ∧ loaded.settings.indent = 8 ∧
      loaded.settings.resources = [("bq".toList, { name := "bq".toList })] ∧
      ∃ invocation, Invocation.read loaded.settings ["-f".toList, "tree".toList] = .ok invocation ∧
        invocation.format = .tree ∧ invocation.indent = 8) ∧
    ∃ loaded, loadBy (reader (.integer 3)) file environment = .ok loaded ∧
      loaded.settings.format = .tree ∧ loaded.settings.indent = 8 ∧ loaded.settings.resources = [] := by
  intro reader file environment
  have document : ∀ resource, file.document? (reader resource) = some (quotingDocument resource) :=
    fun resource => document?_toUTF8 (reader resource) ""
  constructor
  · have applied : file.applied? (reader (.table [])) = some (quotingDocument (.table [])) := by
      rw [SettingsFile.applied?, document]
      rfl
    have done : loadBy (reader (.table [])) file environment =
        .ok ⟨(stated (quotingDocument (.table []))).withVariables environment, false⟩ := by
      rw [loadBy, SettingsFile.read, document]
      rfl
    obtain ⟨-, prefers, overridden⟩ := loadBy_precedence done
    rw [applied] at prefers
    refine ⟨_, done, prefers.format, prefers.indent, prefers.resources, _, rfl, ?_⟩
    obtain ⟨format, indent⟩ := overridden ["-f".toList, "tree".toList] _ rfl
    exact ⟨Option.some.inj (format.symm.trans rfl), Option.some.inj (indent.symm.trans rfl)⟩
  · have applied : file.applied? (reader (.integer 3)) = none := by
      rw [SettingsFile.applied?, document]
      rfl
    have done : loadBy (reader (.integer 3)) file environment =
        .ok ⟨({} : Settings).withVariables environment, true⟩ := by
      rw [loadBy, SettingsFile.read, document]
      rfl
    obtain ⟨-, prefers, -⟩ := loadBy_precedence done
    rw [applied] at prefers
    exact ⟨_, done, prefers.format, prefers.indent, prefers.resources⟩

end Settings

end Shorthand
