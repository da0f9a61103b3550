import Shorthand.CommandLine.Invocation

/-! # What a command line overrides

A command line is a list of requests, each of which sets one part of the invocation. So a part is what was asked for it
last, whatever else the command line says, and what the settings say if nothing was asked for it.

* **`Request.ofArguments`** — the requests of a command line.
* **`Request.override?`** — a value after requests that may set it.
* **`Invocation.Follows`** — a part of the invocation is set by the requests for a switch.
* `Invocation.Follows.read` — the part in the invocation of a command line. -/

namespace Shorthand.CommandLine

namespace Argument

/-- The requests of arguments, from left to right. A switch that lacks its value takes it from the argument after it;
where this fails the requests end. -/
def requests : List Argument → List Request
  | .switch s short attached :: rest =>
    match Request.ofSwitch s short attached with
    | .error _ => []
    | .ok asked =>
      match Intake.lacking? asked, rest with
      | none, rest => asked ++ requests rest
      | some _, .plain value :: rest => Intake.supply value asked ++ requests rest
      | some _, _ => []
  | _ :: rest => requests rest
  | [] => []

@[simp] theorem requests_plain (t : Text) (rest : List Argument) : requests (plain t :: rest) = requests rest := by
  rw [requests]
  simp

@[simp] theorem requests_separator (rest : List Argument) : requests (separator :: rest) = requests rest := by
  rw [requests]
  simp

@[simp] theorem requests_unknown (t : Text) (rest : List Argument) : requests (unknown t :: rest) = requests rest := by
  rw [requests]
  simp

end Argument

namespace Request

/-- The requests of a command line. -/
def ofArguments (arguments : List Text) : List Request :=
  match Argument.readAll arguments with
  | .ok sorted => Argument.requests sorted
  | .error _ => []

/-- The value that is given to a switch last. -/
def lastValue? (s : Switch) (requests : List Request) : Option Text :=
  (requests.filter fun r => r.switch = s).getLast?.map fun r => r.value.getD []

theorem lastValue?_append (s : Switch) (first second : List Request) :
    lastValue? s (first ++ second) = (lastValue? s second).or (lastValue? s first) := by
  rw [lastValue?, List.filter_append, List.getLast?_append, Option.map_or]
  rfl

variable {α : Type} {s : Switch} {read : Text → Option α} {before mid : α}

/-- A value after requests: what the last one for the switch is read as, and the value before them if there is none. -/
def override? (s : Switch) (read : Text → Option α) (requests : List Request) (before : α) : Option α :=
  (lastValue? s requests).elim (some before) read

/-- Requests that come first only matter by the value that they leave. -/
theorem override?_append {first second : List Request} (made : override? s read first before = some mid) :
    override? s read (first ++ second) before = override? s read second mid := by
  rw [override?] at made
  rw [override?, override?, lastValue?_append]
  cases lastValue? s second with
  | none => exact made
  | some value => rfl

end Request

namespace Invocation

variable {α : Type} {part : Invocation → α} {s : Switch} {reading : Text → Option α}

/-- A part of the invocation is set by the requests for a switch, and by nothing else. -/
structure Follows (part : Invocation → α) (s : Switch) (reading : Text → Option α) : Prop where
  /-- A request for the switch sets the part to what its value is read as. -/
  perform : ∀ {r i next}, perform r i = .ok next → Request.override? s reading [r] (part i) = some (part next)
  /-- A plain text does not matter for the part. -/
  takePlain : ∀ t (intake : Intake), part (intake.takePlain t).invocation = part intake.invocation

/-- The requests for a form of printing and for a number of spaces set these, and others leave them. -/
theorem perform_format_indent {r : Request} {i next : Invocation} (done : perform r i = .ok next) :
    Request.override? .format OutputFormat.ofName? [r] i.format = some next.format ∧
      Request.override? .indent (fun t => (Text.readInteger t).toOption) [r] i.indent = some next.indent := by
  obtain ⟨s, value⟩ := r
  rw [perform] at done
  cases s with
  | help => cases done
  | format =>
    cases named : OutputFormat.ofName? (value.getD []) with
    | none => simp [named] at done
    | some format =>
      simp only [named] at done
      cases done
      exact ⟨named, rfl⟩
  | indent =>
    cases given : Text.readInteger (value.getD []) with
    | error fault => simp [given] at done
    | ok indent =>
      simp only [given] at done
      cases done
      exact ⟨rfl, congrArg Except.toOption given⟩
  | noResources | verbose =>
    cases done
    exact ⟨rfl, rfl⟩

theorem takePlain_format_indent (t : Text) (intake : Intake) :
    (intake.takePlain t).invocation.format = intake.invocation.format ∧
      (intake.takePlain t).invocation.indent = intake.invocation.indent := by
  rw [Intake.takePlain]
  split <;> exact ⟨rfl, rfl⟩

theorem format_follows : Follows Invocation.format .format OutputFormat.ofName? :=
  ⟨fun done => (perform_format_indent done).1, fun t intake => (takePlain_format_indent t intake).1⟩

theorem indent_follows : Follows Invocation.indent .indent fun t => (Text.readInteger t).toOption :=
  ⟨fun done => (perform_format_indent done).2, fun t intake => (takePlain_format_indent t intake).2⟩

/-! ## Whole command lines -/

/-- A computation of two steps succeeds only if both do. -/
theorem ok_of_bind_eq_ok {ε β γ : Type} {x : Except ε β} {f : β → Except ε γ} {c : γ}
    (done : x >>= f = .ok c) : ∃ b, x = .ok b ∧ f b = .ok c := by
  cases x with
  | error fault => cases done
  | ok b => exact ⟨b, rfl, done⟩

namespace Follows

variable (follows : Follows part s reading)

include follows

theorem foldlM_perform {requests : List Request} {i next : Invocation}
    (done : requests.foldlM (fun i r => i.perform r) i = .ok next) :
    Request.override? s reading requests (part i) = some (part next) := by
  induction requests generalizing i with
  | nil =>
    cases done
    rfl
  | cons r rest ih =>
    rw [List.foldlM_cons] at done
    obtain ⟨mid, first, done⟩ := ok_of_bind_eq_ok done
    rw [← List.singleton_append, Request.override?_append (follows.perform first), ih done]

/-- Performing requests sets the part to what the last one for the switch asks for. -/
theorem performAll {requests : List Request} {intake next : Intake} (done : intake.performAll requests = .ok next) :
    Request.override? s reading requests (part intake.invocation) = some (part next.invocation) := by
  rw [Intake.performAll] at done
  obtain ⟨i, performed, done⟩ := ok_of_bind_eq_ok done
  cases done
  exact follows.foldlM_perform performed

/-- Taking arguments sets the part to what the last request for the switch asks for. -/
theorem take {arguments : List Argument} {intake next : Intake} (done : Intake.take arguments intake = .ok next) :
    Request.override? s reading (Argument.requests arguments) (part intake.invocation) =
      some (part next.invocation) := by
  fun_induction Intake.take arguments intake with
  | case1 intake =>
    cases done
    rfl
  -- a plain text, with or without a separator
  | case2 t intake rest _ ih | case3 t intake rest _ ih | case5 t intake rest _ ih =>
    rw [← ih done, follows.takePlain]
    simp
  -- what is left over, and a separator
  | case4 _ _ _ ih | case6 _ _ _ _ ih | case7 _ _ _ ih =>
    rw [← ih done]
    simp
  | case8 => cases done
  -- switches that need no other value, and switches that take one from the next argument
  | case9 s short attached intake requests spelled rest complete ih =>
    obtain ⟨mid, performed, done⟩ := ok_of_bind_eq_ok done
    rw [← ih mid done, ← Request.override?_append (follows.performAll performed), Argument.requests, spelled]
    simp [complete]
  | case10 s short attached intake requests spelled lacking value rest incomplete ih =>
    obtain ⟨mid, performed, done⟩ := ok_of_bind_eq_ok done
    rw [← ih mid done, ← Request.override?_append (follows.performAll performed), Argument.requests, spelled]
    simp [incomplete]
  | case11 => cases done

/-- The part in the invocation of a command line is what the last request for the switch asks for, and what the settings
say if there is none. -/
theorem read {settings : Settings} {arguments : List Text} {i : Invocation}
    (done : Invocation.read settings arguments = .ok i) :
    Request.override? s reading (Request.ofArguments arguments) (part (ofSettings settings)) = some (part i) := by
  rw [Invocation.read] at done
  rw [Request.ofArguments]
  cases read : Argument.readAll arguments with
  | error fault => simp [read] at done
  | ok sorted =>
    simp only [read] at done
    cases taken : Intake.take sorted { invocation := ofSettings settings } with
    | error stop => simp [taken] at done
    | ok intake =>
      simp only [taken] at done
      split at done
      · cases done
        exact follows.take taken
      · cases done

end Follows

end Invocation

end Shorthand.CommandLine
