import Shorthand.Settings.Document

/-! # Documents that can be used as a whole

The changes that a document asks for are made one after the other, and the first that is refused ends this. None is
refused exactly if each section that the document has can be asked for its keys and every entry that it gives can be
used; where the entries stand does not matter. Every setting is then what its own entry says.

* **`Value.format?`**, **`Value.indent?`**, **`Value.level?`**, **`Resource.accepted?`** — what an entry is read as.
* **`Settings.told?`** — what an entry of a section of a document is read as.
* **`Settings.IsUsable`** — every entry of a document can be used.
* **`Settings.stated`** — the settings that a document states.
* `Settings.apply_eq_iff` — the documents that are applied up to their end, and the settings that this gives. -/

namespace Shorthand

namespace Value

/-- The form of printing that a value names. -/
def format? (v : Value) : Option OutputFormat := v.spell.toOption.bind OutputFormat.ofName?

/-- The number of spaces that a value gives. -/
def indent? (v : Value) : Option Int := v.toInteger.toOption

/-- The level that a value names, in upper case. -/
def level? (v : Value) : Option Text := v.spell.toOption.map Text.upper

/-- A section can be asked for a key, and what it says about the key can be read. -/
def Offers {α : Type} (part : Value) (key : String) (read : Value → Option α) : Prop :=
  ∃ said, part.entry key.toList = .ok said ∧ ∀ v ∈ said, (read v).isSome

/-- What a section says about a key, as it is read. -/
def offered? {α : Type} (part : Value) (key : String) (read : Value → Option α) : Option α :=
  (part.members?.bind (Table.find? key.toList)).bind read

/-- A section that can be asked for a key says what it has among its members. -/
theorem members?_bind_of_entry {part : Value} {key : Text} {said : Option Value} (asked : part.entry key = .ok said) :
    part.members?.bind (Table.find? key) = said := by
  cases part with
  | table entries => exact Except.ok.inj asked
  | list items | text t =>
    rw [entry] at asked
    split at asked
    · cases asked
    · exact Except.ok.inj asked
  | _ => cases asked

end Value

namespace Resource

/-- The resource that a settings entry describes, unless a part of it has no spelling. -/
def accepted? (key : Text) (entry : Value) : Option Resource :=
  if ((spelledParts entry).findSome? Value.spellingFault?).isNone then ofEntry? key entry else none

end Resource

namespace Settings

variable {s next : Settings}

/-! ## Single changes -/

/-- A change is made exactly if there is something to set, and then it sets this. -/
def Sets {α : Type} (edit : Edit) (read : Option α) (set : α → Settings → Settings) : Prop :=
  ∀ s next, edit s = .ok next ↔ ∃ a ∈ read, next = set a s

theorem setFormat_sets (v : Value) : Sets (setFormat v) v.format? fun format s => { s with format } := by
  intro s next
  rw [setFormat, Value.format?]
  cases v.spell with
  | error cause => simp [Except.toOption]
  | ok name =>
    simp only [Except.toOption, Option.bind_some]
    cases OutputFormat.ofName? name <;> simp [eq_comm]

theorem setIndent_sets (v : Value) : Sets (setIndent v) v.indent? fun indent s => { s with indent } := by
  intro s next
  rw [setIndent, Value.indent?]
  cases v.toInteger <;> simp [Except.map, Except.toOption, eq_comm]

theorem setLevel_sets (v : Value) : Sets (setLevel v) v.level? fun level s => { s with level } := by
  intro s next
  rw [setLevel, Value.level?]
  cases v.spell <;> simp [Except.toOption, eq_comm]

theorem addResource_sets (key : Text) (v : Value) :
    Sets (addResource key v) (Resource.accepted? key v)
      fun resource s => { s with resources := Table.put key resource s.resources } := by
  intro s next
  rw [addResource, Resource.accepted?]
  cases Resource.ofEntry? key v with
  | none => simp
  | some resource =>
    cases (Resource.spelledParts v).findSome? Value.spellingFault? <;> simp [eq_comm]

/-- The change that an entry asks for is made exactly if the section offers what is read from the entry. Without the
entry it leaves what is there. -/
theorem fromEntry_eq_ok_iff {α : Type} {edit : Value → Edit} {read : Value → Option α} {set : α → Settings → Settings}
    {get : Settings → α} (sets : ∀ v, Sets (edit v) (read v) set) (kept : ∀ s, set (get s) s = s)
    {part : Value} {key : String} :
    fromEntry part key edit s = .ok next ↔
      part.Offers key read ∧ next = set ((part.offered? key read).getD (get s)) s := by
  rw [fromEntry, Value.Offers]
  cases asked : part.entry key.toList with
  | error fault => simp
  | ok said =>
    rw [Value.offered?, Value.members?_bind_of_entry asked]
    cases said with
    | none => simpa [kept] using eq_comm
    | some v =>
      simp only [sets v s next, Option.bind_some, Except.ok.injEq, Option.mem_def, exists_eq_left', Option.some.injEq,
        forall_eq']
      cases read v <;> simp

theorem format_eq_ok_iff {part : Value} :
    fromEntry part "format" setFormat s = .ok next ↔ part.Offers "format" Value.format? ∧
      next = { s with format := (part.offered? "format" Value.format?).getD s.format } :=
  fromEntry_eq_ok_iff setFormat_sets fun _ => rfl

theorem indent_eq_ok_iff {part : Value} :
    fromEntry part "indent" setIndent s = .ok next ↔ part.Offers "indent" Value.indent? ∧
      next = { s with indent := (part.offered? "indent" Value.indent?).getD s.indent } :=
  fromEntry_eq_ok_iff setIndent_sets fun _ => rfl

theorem level_eq_ok_iff {part : Value} :
    fromEntry part "level" setLevel s = .ok next ↔ part.Offers "level" Value.level? ∧
      next = { s with level := (part.offered? "level" Value.level?).getD s.level } :=
  fromEntry_eq_ok_iff setLevel_sets fun _ => rfl

/-! ## Lists of changes -/

theorem applyAll_cons_eq_iff {edit : Edit} {rest : List Edit} :
    applyAll (edit :: rest) s = (next, none) ↔ ∃ mid, edit s = .ok mid ∧ applyAll rest mid = (next, none) := by
  rw [applyAll]
  cases edit s <;> simp

theorem applyAll_append_eq_iff {first second : List Edit} :
    applyAll (first ++ second) s = (next, none) ↔
      ∃ mid, applyAll first s = (mid, none) ∧ applyAll second mid = (next, none) := by
  induction first generalizing s with
  | nil => simp
  | cons edit rest ih =>
    simp only [List.cons_append, applyAll_cons_eq_iff, ih]
    grind

/-- The changes of a section are all made exactly if the section is missing or its value allows it. -/
theorem applyAll_sectionEdits_eq_iff {document : Table Value} {key : String} {edits : Value → List Edit}
    {allows : Value → Prop} (result : Option Value → Settings) (missing : result none = s)
    (made : ∀ part, applyAll (edits part) s = (next, none) ↔ allows part ∧ next = result (some part)) :
    applyAll (sectionEdits (.table document) key edits) s = (next, none) ↔
      (∀ part ∈ Table.find? key.toList document, allows part) ∧ next = result (Table.find? key.toList document) := by
  rw [sectionEdits, Value.entry_table]
  cases Table.find? key.toList document with
  | none => simpa [missing] using eq_comm
  | some part => simp [made]

/-- Resources are all added exactly if every entry describes one. -/
theorem applyAll_addResource_eq_iff {entries : Table Value} :
    applyAll (entries.map fun e => addResource e.1 e.2) s = (next, none) ↔
      (∀ e ∈ entries, (Resource.accepted? e.1 e.2).isSome) ∧
        next = { s with
          resources := (entries.filterMap fun e => (Resource.accepted? e.1 e.2).map fun r => (e.1, r)).foldl
            (fun table a => Table.put a.1 a.2 table) s.resources } := by
  induction entries generalizing s with
  | nil => simpa using eq_comm
  | cons e rest ih =>
    simp only [List.map_cons, applyAll_cons_eq_iff, ih, addResource_sets e.1 e.2 s, List.forall_mem_cons]
    cases accepted : Resource.accepted? e.1 e.2 with
    | none => simp
    | some resource => simp [accepted]

/-! ## Documents -/

/-- What the entry of a section of a document is read as. -/
def told? {α : Type} (document : Table Value) (part key : String) (read : Value → Option α) : Option α :=
  (Table.find? part.toList document).bind fun v => v.offered? key read

/-- The resources that a document describes. -/
def toldResources (document : Table Value) : Table Resource :=
  Table.ofList ((((Table.find? "resources".toList document).bind Value.members?).getD []).filterMap fun e =>
    (Resource.accepted? e.1 e.2).map fun r => (e.1, r))

/-- Every entry of a document can be used. -/
structure IsUsable (document : Table Value) : Prop where
  /-- The section for the output offers a form of printing and a number of spaces. -/
  output : ∀ part ∈ Table.find? "output".toList document,
    part.Offers "format" Value.format? ∧ part.Offers "indent" Value.indent?
  /-- The section for the reports offers a level. -/
  logging : ∀ part ∈ Table.find? "logging".toList document, part.Offers "level" Value.level?
  /-- The resources are a table, and every entry describes one. -/
  resources : ∀ part ∈ Table.find? "resources".toList document,
    ∃ entries, part = .table entries ∧ ∀ e ∈ entries, (Resource.accepted? e.1 e.2).isSome

/-- The settings that a document states; the defaults hold where it tells nothing. -/
def stated (document : Table Value) : Settings where
  format := (told? document "output" "format" Value.format?).getD .tree
  indent := (told? document "output" "indent" Value.indent?).getD 2
  level := (told? document "logging" "level" Value.level?).getD "WARNING".toList
  resources := toldResources document

/-- The changes that the section for the output asks for. -/
theorem applyAll_output_eq_iff {document : Table Value} :
    applyAll (sectionEdits (.table document) "output" fun output =>
        [fromEntry output "format" setFormat, fromEntry output "indent" setIndent]) s = (next, none) ↔
      (∀ part ∈ Table.find? "output".toList document,
        part.Offers "format" Value.format? ∧ part.Offers "indent" Value.indent?) ∧
      next = { s with
        format := (told? document "output" "format" Value.format?).getD s.format
        indent := (told? document "output" "indent" Value.indent?).getD s.indent } := by
  refine applyAll_sectionEdits_eq_iff (fun part => { s with
    format := (part.bind fun v => v.offered? "format" Value.format?).getD s.format
    indent := (part.bind fun v => v.offered? "indent" Value.indent?).getD s.indent }) rfl fun output => ?_
  simp only [applyAll_cons_eq_iff, format_eq_ok_iff, indent_eq_ok_iff, applyAll_nil, Prod.mk.injEq, and_true, and_assoc,
    exists_and_left, exists_eq_left, Option.bind_some, eq_comm (b := next)]

/-- The changes that the section for the reports asks for. -/
theorem applyAll_logging_eq_iff {document : Table Value} :
    applyAll (sectionEdits (.table document) "logging" fun logging => [fromEntry logging "level" setLevel]) s =
        (next, none) ↔
      (∀ part ∈ Table.find? "logging".toList document, part.Offers "level" Value.level?) ∧
      next = { s with level := (told? document "logging" "level" Value.level?).getD s.level } := by
  refine applyAll_sectionEdits_eq_iff (fun part => { s with
    level := (part.bind fun v => v.offered? "level" Value.level?).getD s.level }) rfl fun logging => ?_
  simp only [applyAll_cons_eq_iff, level_eq_ok_iff, applyAll_nil, Prod.mk.injEq, and_true, and_assoc, exists_and_left,
    exists_eq_left, Option.bind_some, eq_comm (b := next)]

/-- The changes that the resources ask for, where there are none before. -/
theorem applyAll_resources_eq_iff {document : Table Value} (empty : s.resources = []) :
    applyAll (sectionEdits (.table document) "resources" fun resources =>
        match resources.members? with
        | some entries => entries.map fun e => addResource e.1 e.2
        | none => [fun _ => .error .noTable]) s = (next, none) ↔
      (∀ part ∈ Table.find? "resources".toList document,
        ∃ entries, part = .table entries ∧ ∀ e ∈ entries, (Resource.accepted? e.1 e.2).isSome) ∧
      next = { s with resources := toldResources document } := by
  refine applyAll_sectionEdits_eq_iff (fun part => { s with
    resources := Table.ofList (((part.bind Value.members?).getD []).filterMap fun e =>
      (Resource.accepted? e.1 e.2).map fun r => (e.1, r)) }) ?_ fun resources => ?_
  · cases s
    cases empty
    rfl
  · cases resources with
    | table entries => simp [Value.members?, applyAll_addResource_eq_iff, empty, Table.ofList]
    | _ => simp [Value.members?, applyAll_cons_eq_iff]

/-- The documents that are applied up to their end are those that can be used, and the settings are then the ones that
the document states. -/
theorem apply_eq_iff {document : Table Value} :
    apply (.table document) {} = (next, none) ↔ IsUsable document ∧ next = stated document := by
  rw [apply, edits, applyAll_append_eq_iff]
  simp only [applyAll_append_eq_iff, applyAll_output_eq_iff, applyAll_logging_eq_iff, and_assoc, exists_and_left,
    exists_eq_left]
  refine (and_congr_right' (and_congr_right' (applyAll_resources_eq_iff rfl))).trans ⟨?_, ?_⟩
  · rintro ⟨output, logging, resources, rfl⟩
    exact ⟨⟨output, logging, resources⟩, rfl⟩
  · rintro ⟨usable, rfl⟩
    exact ⟨usable.output, usable.logging, usable.resources, rfl⟩

end Settings

end Shorthand
