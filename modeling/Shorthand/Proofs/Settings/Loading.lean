import Shorthand.Settings.Source

/-! # How loading settings ends

A settings file that cannot be used is left aside, and so is a variable. There is one exception: an infinity as the
number of spaces ends the program, if nothing that is applied before it is refused. Loading ends with settings for every
other file, whatever it holds and by whatever reader of documents it is read.

* **`Settings.GivesInfiniteIndent`** — a document gives an infinity as the number of spaces, and this is looked at.
* **`Settings.IsMild`** — a change of settings is not refused for an infinity.
* `Settings.ofDocument_eq_infinite_iff` — the documents that end the program.
* `Settings.loadBy_or_infinite` — how loading ends. -/

namespace Shorthand

namespace Value

/-- Only a table gives the value of a key. -/
theorem entry_eq_ok_some_iff {key : Text} {part v : Value} :
    part.entry key = .ok (some v) ↔ ∃ entries, part = .table entries ∧ Table.find? key entries = some v := by
  cases part with
  | table entries => simp [entry]
  | list items | text t =>
    simp only [entry]
    split <;> simp
  | _ => simp [entry]

/-- A section is never refused for an infinity. -/
theorem entry_ne_infinite (key : Text) (part : Value) : part.entry key ≠ .error .infinite := by
  cases part with
  | list items | text t =>
    simp only [entry]
    split <;> simp
  | _ => simp [entry]

/-- Only an infinity is refused as one. -/
theorem toInteger_eq_infinite_iff {v : Value} :
    v.toInteger = .error .infinite ↔ ∃ negative, v = .real (.infinite negative) := by
  cases v with
  | real x => cases x <;> simp [toInteger, Binary64.truncate?]
  | text t =>
    simp only [toInteger]
    split <;> simp
  | _ => simp [toInteger]

end Value

namespace Settings

/-- A document gives an infinity as the number of spaces, and this is looked at: the section for the output is a table,
and if it gives a form of printing, too, then by its name. -/
def GivesInfiniteIndent (document : Table Value) : Prop :=
  ∃ output negative, Table.find? "output".toList document = some (.table output) ∧
    Table.find? "indent".toList output = some (.real (.infinite negative)) ∧
    ∀ v ∈ Table.find? "format".toList output, ∃ format : OutputFormat, v.spell = .ok format.name

/-! ## Single changes -/

/-- The change is not refused for an infinity. -/
def IsMild (edit : Edit) : Prop := ∀ s, edit s ≠ .error .infinite

/-- Setting the form of printing is accepted if the form is given by its name. -/
theorem exists_setFormat_eq_ok_iff {v : Value} {s : Settings} :
    (∃ next, setFormat v s = .ok next) ↔ ∃ format : OutputFormat, v.spell = .ok format.name := by
  rw [setFormat]
  cases v.spell with
  | error cause => simp
  | ok name =>
    cases found : OutputFormat.ofName? name with
    | none =>
      have unknown : ∀ format : OutputFormat, name ≠ format.name := by
        intro format same
        rw [OutputFormat.ofName?_eq_some_iff.2 same] at found
        cases found
      simp [found, unknown]
    | some format =>
      obtain rfl := OutputFormat.ofName?_eq_some_iff.1 found
      simp only [found, Except.ok.injEq, exists_eq']
      exact ⟨fun _ => ⟨format, rfl⟩, fun _ => trivial⟩

theorem setLevel_isMild (v : Value) : IsMild (setLevel v) := by
  intro s
  rw [setLevel]
  cases v.spell <;> simp

theorem addResource_isMild (key : Text) (v : Value) : IsMild (addResource key v) := by
  intro s
  rw [addResource]
  split <;> simp

/-- An entry is refused for an infinity only by the change that it asks for. -/
theorem fromEntry_eq_infinite_iff {part : Value} {key : String} {edit : Value → Edit} {s : Settings} :
    fromEntry part key edit s = .error .infinite ↔
      ∃ v, part.entry key.toList = .ok (some v) ∧ edit v s = .error .infinite := by
  have unlike := Value.entry_ne_infinite key.toList part
  rw [fromEntry]
  cases entry : part.entry key.toList with
  | error fault =>
    rw [entry] at unlike
    simpa using unlike
  | ok found => cases found <;> simp

theorem fromEntry_isMild {edit : Value → Edit} (mild : ∀ v, IsMild (edit v)) (part : Value) (key : String) :
    IsMild (fromEntry part key edit) := by
  intro s refused
  obtain ⟨v, -, refused⟩ := fromEntry_eq_infinite_iff.1 refused
  exact mild v s refused

/-- The number of spaces is refused for an infinity exactly if the section gives one. -/
theorem indent_eq_infinite_iff {output : Value} {s : Settings} :
    fromEntry output "indent" setIndent s = .error .infinite ↔
      ∃ entries negative, output = .table entries ∧
        Table.find? "indent".toList entries = some (.real (.infinite negative)) := by
  have changed : ∀ v : Value, setIndent v s = .error .infinite ↔ v.toInteger = .error .infinite := by
    intro v
    rw [setIndent]
    cases v.toInteger <;> simp [Except.map]
  simp only [fromEntry_eq_infinite_iff, changed, Value.toInteger_eq_infinite_iff, Value.entry_eq_ok_some_iff]
  constructor
  · rintro ⟨v, ⟨entries, rfl, found⟩, negative, rfl⟩
    exact ⟨entries, negative, rfl, found⟩
  · rintro ⟨entries, negative, rfl, found⟩
    exact ⟨_, ⟨entries, rfl, found⟩, negative, rfl⟩

/-- The form of printing in a section is accepted if it is missing or given by its name. -/
theorem exists_format_eq_ok_iff {entries : Table Value} {s : Settings} :
    (∃ next, fromEntry (.table entries) "format" setFormat s = .ok next) ↔
      ∀ v ∈ Table.find? "format".toList entries, ∃ format : OutputFormat, v.spell = .ok format.name := by
  rw [fromEntry, Value.entry_table]
  cases Table.find? "format".toList entries with
  | none => simp
  | some v =>
    simp only [Option.mem_def, Option.some.injEq, forall_eq']
    exact exists_setFormat_eq_ok_iff

/-! ## Lists of changes -/

/-- Changes none of which is refused for an infinity do not end with one. -/
theorem applyAll_ne_infinite {edits : List Edit} (mild : ∀ edit ∈ edits, IsMild edit) (s : Settings) :
    (applyAll edits s).2 ≠ some .infinite := by
  induction edits generalizing s with
  | nil => simp
  | cons edit rest ih =>
    rw [applyAll]
    cases done : edit s with
    | ok next => exact ih (fun other later => mild other (List.mem_cons_of_mem edit later)) next
    | error fault =>
      intro same
      rw [Option.some.inj same] at done
      exact mild edit List.mem_cons_self s done

/-- After changes that may be refused for an infinity others do not matter for that. -/
theorem applyAll_append_eq_infinite_iff {first second : List Edit} (mild : ∀ edit ∈ second, IsMild edit)
    (s : Settings) :
    (applyAll (first ++ second) s).2 = some .infinite ↔ (applyAll first s).2 = some .infinite := by
  rw [applyAll_append]
  split
  · next next done => simp [done, applyAll_ne_infinite mild next]
  · rfl

/-- The changes that a section asks for are mild if those for its value are. -/
theorem isMild_of_mem_sectionEdits {document : Value} {key : String} {edits : Value → List Edit}
    (mild : ∀ v, ∀ edit ∈ edits v, IsMild edit) : ∀ edit ∈ sectionEdits document key edits, IsMild edit := by
  intro edit asked
  have unlike := Value.entry_ne_infinite key.toList document
  rw [sectionEdits] at asked
  split at asked
  · next fault refused =>
    obtain rfl := List.mem_singleton.1 asked
    rw [refused] at unlike
    intro s
    simpa using unlike
  · cases asked
  · next v found => exact mild v edit asked

/-- The changes for the output end with an infinity exactly if the form of printing is accepted and the number of spaces
is refused. -/
theorem applyAll_output_eq_infinite_iff {output : Value} {s : Settings} :
    (applyAll [fromEntry output "format" setFormat, fromEntry output "indent" setIndent] s).2 = some .infinite ↔
      (∃ next, fromEntry output "format" setFormat s = .ok next) ∧
        ∃ entries negative, output = .table entries ∧
          Table.find? "indent".toList entries = some (.real (.infinite negative)) := by
  have formatIsMild : IsMild (fromEntry output "format" setFormat) := by
    refine fromEntry_isMild (fun v s => ?_) output "format"
    rw [setFormat]
    cases v.spell with
    | error cause => simp
    | ok name => cases found : OutputFormat.ofName? name <;> simp [found]
  rw [applyAll]
  cases formatted : fromEntry output "format" setFormat s with
  | error fault =>
    have unlike := formatIsMild s
    rw [formatted] at unlike
    simpa using unlike
  | ok next =>
    rw [← indent_eq_infinite_iff (s := next)]
    simp only [applyAll, Except.ok.injEq, exists_eq', true_and]
    cases fromEntry output "indent" setIndent next <;> simp

/-! ## Documents and files -/

/-- The documents that end the program. -/
theorem ofDocument_eq_infinite_iff {document : Table Value} :
    ofDocument (.table document) = .error .infinite ↔ GivesInfiniteIndent document := by
  have ends : ofDocument (.table document) = .error .infinite ↔
      (apply (.table document) {}).2 = some .infinite := by
    rw [ofDocument]
    obtain ⟨s, fault⟩ := apply (.table document) {}
    cases fault <;> simp
  rw [ends, apply, edits]
  -- what comes after the section for the output is mild
  refine (applyAll_append_eq_infinite_iff ?resources {}).trans
    ((applyAll_append_eq_infinite_iff ?logging {}).trans ?output)
  case resources =>
    refine isMild_of_mem_sectionEdits fun resources edit asked => ?_
    split at asked
    · next entries members =>
      obtain ⟨e, -, rfl⟩ := List.mem_map.1 asked
      exact addResource_isMild e.1 e.2
    · obtain rfl := List.mem_singleton.1 asked
      intro s
      simp
  case logging =>
    refine isMild_of_mem_sectionEdits fun logging edit asked => ?_
    obtain rfl := List.mem_singleton.1 asked
    exact fromEntry_isMild setLevel_isMild logging "level"
  case output =>
    rw [sectionEdits, Value.entry_table, GivesInfiniteIndent]
    cases Table.find? "output".toList document with
    | none => simp
    | some output =>
      simp only [applyAll_output_eq_infinite_iff, Option.some.injEq]
      constructor
      · rintro ⟨formatted, entries, negative, rfl, found⟩
        exact ⟨entries, negative, rfl, found, exists_format_eq_ok_iff.1 formatted⟩
      · rintro ⟨entries, negative, rfl, found, named⟩
        exact ⟨exists_format_eq_ok_iff.2 named, entries, negative, rfl, found⟩

/-- A file is refused with the fault that ends the program exactly if it holds such a document. -/
theorem read_eq_infinite_iff {reader : Text → Option (Table Value)} {file : SettingsFile} :
    file.read reader = .error .infinite ↔
      ∃ document, file.document? reader = some document ∧ GivesInfiniteIndent document := by
  cases file with
  | absent | unreadable => simp [SettingsFile.document?]
  | content bytes =>
    rw [SettingsFile.read]
    cases found : SettingsFile.document? reader (.content bytes) with
    | none => simp
    | some document => simp [ofDocument_eq_infinite_iff]

/-- Loading ends with settings, whatever the file holds and whatever the variables say, exactly if the file does not hold a
document that gives an infinity as the number of spaces. The settings have one of the two forms of printing, and after
any fault of the file they are those that are loaded without a file. -/
theorem loadBy_or_infinite (reader : Text → Option (Table Value)) (file : SettingsFile)
    (environment : Table Text) :
    (loadBy reader file environment = .error .infinite ∧
      ∃ document, file.document? reader = some document ∧ GivesInfiniteIndent document) ∨
    (¬ ∃ document, file.document? reader = some document ∧ GivesInfiniteIndent document) ∧
    ∃ loaded, loadBy reader file environment = .ok loaded ∧
      (loaded.settings.format.name = "tree".toList ∨ loaded.settings.format.name = "json".toList) ∧
      ∀ fault, file.read reader = .error fault →
        loadBy reader .absent environment = .ok ⟨loaded.settings, false⟩ := by
  have printed : ∀ s : Settings, s.format.name = "tree".toList ∨ s.format.name = "json".toList := by
    intro s
    cases s.format
    · exact .inl rfl
    · exact .inr rfl
  rw [← read_eq_infinite_iff, loadBy]
  cases read : file.read reader with
  | ok s => exact .inr ⟨by simp, _, rfl, printed _, by simp⟩
  | error fault =>
    -- of all faults of a file only the infinity ends the program
    by_cases fatal : fault = .infinite
    · subst fatal
      exact .inl ⟨rfl, rfl⟩
    · refine .inr ⟨by simpa using fatal, ⟨({} : Settings).withVariables environment, true⟩, ?_, printed _,
        fun _ _ => rfl⟩
      have mild : fault.isFatal = false := by simpa [SettingsFault.isFatal] using fatal
      simp only [mild, Bool.false_eq_true, if_false]

/-- A document that is given as UTF-8 is passed to the reader. -/
theorem document?_toUTF8 (reader : Text → Option (Table Value)) (document : String) :
    SettingsFile.document? reader (.content document.toUTF8) = reader document.toList := by
  have decoded : String.fromUTF8? document.toUTF8 = some document := dif_pos document.isValidUTF8
  rw [SettingsFile.document?, decoded]
  rfl

/-- A file that names an unknown form of printing goes as a whole, its number of spaces too; the variables stay. -/
theorem loadBy_or_infinite_unknownFormat :
    let reader := fun _ : Text => some
      [("output".toList, Value.table [("indent".toList, .integer 4), ("format".toList, .text "xml".toList)])]
    let file := SettingsFile.content "[output]\nindent = 4\nformat = 'xml'\n".toUTF8
    let environment := [("ZENTREE_FORMAT".toList, "json".toList)]
    file.read reader = .error (.unknownFormat "xml".toList) ∧
      ∃ loaded, loadBy reader file environment = .ok loaded ∧ loaded.settings = { format := .json } := by
  intro reader file environment
  have refused : file.read reader = .error (.unknownFormat "xml".toList) := by
    rw [SettingsFile.read, document?_toUTF8]
    rfl
  refine ⟨refused, ?_⟩
  rcases loadBy_or_infinite reader file environment with ⟨-, document, found, output, negative, section_, given, -⟩ |
    ⟨-, loaded, done, -, absent⟩
  · rw [document?_toUTF8] at found
    cases found
    cases section_
    cases given
  · exact ⟨loaded, done, (congrArg Loaded.settings (Except.ok.inj (absent _ refused))).symm⟩

end Settings

end Shorthand
