import Shorthand.CommandLine.Argument

/-! # Invocations

What a command line asks for. The arguments are taken from left to right, so that of repeated switches the last
one counts; what the command line does not say is as in the settings. The first fault from the left ends the
reading, and arguments that are left over are a fault at its end.

* **`Invocation.read`** — the invocation of a command line. -/

namespace Shorthand.CommandLine

/-- What a command line asks for. -/
structure Invocation where
  /-- The abbreviation, if it is given. -/
  abbreviation : Option Text := none
  /-- The form in which the tree is printed. -/
  format : OutputFormat
  /-- The number of spaces for each level. -/
  indent : Int
  /-- Whether names are resolved by the resources of the settings. -/
  useResources : Bool := true
  /-- Whether every step is reported. -/
  verbose : Bool := false
  deriving DecidableEq, Repr

/-- Why a command line asks for no tree. -/
inductive Stop where
  /-- It asks how the program is used. -/
  | help
  /-- It is not understood. -/
  | misuse (fault : UsageFault)
  deriving DecidableEq, Repr

/-- An invocation under construction. -/
structure Intake where
  /-- The invocation so far. -/
  invocation : Invocation
  /-- Whether the place of the abbreviation is taken. -/
  filled : Bool := false
  /-- The arguments that are left over. -/
  leftOver : List Text := []

namespace Invocation

/-- The invocation of a command line without arguments. -/
def ofSettings (s : Settings) : Invocation := { format := s.format, indent := s.indent }

/-- Do what a switch asks for. -/
def perform (request : Request) (i : Invocation) : Except Stop Invocation :=
  let value := request.value.getD []
  match request.switch with
  | .help => .error .help
  | .format =>
    match OutputFormat.ofName? value with
    | some format => .ok { i with format }
    | none => .error (.misuse (.unknownFormat value))
  | .indent =>
    match Text.readInteger value with
    | .ok indent => .ok { i with indent }
    | .error _ => .error (.misuse (.badIndent value))
  | .noResources => .ok { i with useResources := false }
  | .verbose => .ok { i with verbose := true }

end Invocation

namespace Intake

/-- Do what switches ask for, one after the other. -/
def performAll (requests : List Request) (intake : Intake) : Except Stop Intake := do
  let invocation ← requests.foldlM (fun i request => i.perform request) intake.invocation
  return { intake with invocation }

/-- Take a plain text: the first one is the abbreviation, and the others are left over. -/
def takePlain (t : Text) (intake : Intake) : Intake :=
  if intake.filled then { intake with leftOver := intake.leftOver ++ [t] }
  else { intake with filled := true, invocation := { intake.invocation with abbreviation := some t } }

/-- The switch at the end of some requests, if it still lacks its value. -/
def lacking? (requests : List Request) : Option Switch :=
  match requests.getLast? with
  | some ⟨s, none⟩ => if s.takesValue then some s else none
  | _ => none

/-- The requests with a value for the last one. -/
def supply (value : Text) (requests : List Request) : List Request :=
  requests.dropLast ++ (requests.getLast?.map fun r => { r with value := some value }).toList

/-- Take the arguments from left to right. A separator goes with the abbreviation before or after it; without one
it is left over. -/
def take : List Argument → Intake → Except Stop Intake
  | [], intake => .ok intake
  | .plain t :: rest, intake =>
    match intake.filled, rest with
    | false, .separator :: rest => take rest (intake.takePlain t)
    | _, rest => take rest (intake.takePlain t)
  | .separator :: rest, intake =>
    match intake.filled, rest with
    | true, rest =>
      take rest { intake with leftOver := intake.leftOver ++ [Argument.separatorText] }
    | false, .plain t :: rest => take rest (intake.takePlain t)
    | false, rest => take rest intake
  | .unknown t :: rest, intake => take rest { intake with leftOver := intake.leftOver ++ [t] }
  | .switch s short attached :: rest, intake =>
    match Request.ofSwitch s short attached with
    | .error fault => .error (.misuse fault)
    | .ok requests =>
      match lacking? requests, rest with
      | none, rest => do
        let intake ← intake.performAll requests
        take rest intake
      | some _, .plain value :: rest => do
        let intake ← intake.performAll (supply value requests)
        take rest intake
      | some lacking, _ => .error (.misuse (.missingValue lacking))

end Intake

namespace Invocation

/-- The invocation of a command line. -/
def read (s : Settings) (arguments : List Text) : Except Stop Invocation :=
  match Argument.readAll arguments with
  | .error fault => .error (.misuse fault)
  | .ok sorted =>
    match Intake.take sorted { invocation := ofSettings s } with
    | .error stop => .error stop
    | .ok intake =>
      if intake.leftOver = [] then .ok intake.invocation
      else .error (.misuse (.unrecognized intake.leftOver))

/-- A command line without arguments asks for what the settings say. -/
@[simp] theorem read_nil (s : Settings) : read s [] = .ok (ofSettings s) := rfl

end Invocation

end Shorthand.CommandLine
