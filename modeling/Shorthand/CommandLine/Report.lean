import Shorthand.CommandLine.Invocation
import Shorthand.CommandLine.Level
import Shorthand.Node.View
import Shorthand.Pipeline
import Shorthand.Settings.Source

/-! # Reports

What the program answers to a command line: a number for the caller and the texts of its two outputs. A command
line becomes either a report at once, if there is no tree to be made, or a job that makes the report from an
abbreviation. Rejected abbreviations are reported; what has no report is an `Escape`.

* **`Job.prepare`** — the report or the job of a command line.
* **`Job.report`** — the report on an abbreviation.
* **`run`** — both steps in one. -/

namespace Shorthand.CommandLine

/-- The answer to a command line. -/
structure Report where
  /-- The number that tells the caller how it went. -/
  status : Nat
  /-- What is printed. -/
  output : Text
  /-- What is printed about the run itself. -/
  remarks : Text
  deriving DecidableEq, Repr

/-- A fault for which there is no report. -/
inductive Escape where
  /-- The settings cannot be loaded. -/
  | settings (fault : SettingsFault)
  /-- The level of reports cannot be used. -/
  | level (fault : LevelFault)
  /-- A number in an abbreviation is refused. -/
  | integer (fault : IntegerFault)
  deriving DecidableEq, Repr

/-- The making of a report. -/
structure Job where
  /-- What the command line asks for. -/
  invocation : Invocation
  /-- The resources of the settings. -/
  resources : Table Resource
  /-- Whether every step is reported. -/
  showsSteps : Bool
  /-- What was remarked before. -/
  remarks : Text

/-- The remark on a settings file that is left aside. -/
def ignoredRemark : Text := "Ignoring config file\n".toList

/-- The remark on a command line that is not understood. -/
def misuseRemark (fault : UsageFault) : Text :=
  "zentree: error: ".toList ++ fault.message ++ ['\n']

/-- The remark on a request that cannot be met. -/
def errorRemark (message : Text) : Text := "Error: ".toList ++ message ++ ['\n']

/-- The remark on a step. -/
def stepRemark (note : Note) : Text := "DEBUG: ".toList ++ note.text ++ ['\n']

/-- How the program is used. -/
def usage : Text :=
  ("usage: zentree [-h] [--format FORMAT] [--indent INDENT] [--no-resources] [--verbose] [abbreviation]\n" ++
    "\nExpand abbreviations like div>ul>li*3 into a markup tree\n\n" ++
    "  abbreviation        abbreviation to parse (read from the standard input if it is not given)\n" ++
    "  -h, --help          show how the program is used\n" ++
    "  --format, -f        output format: tree or json\n" ++
    "  --indent, -i        spaces per nesting level\n" ++
    "  --no-resources      do not resolve names against configured resources\n" ++
    "  --verbose, -v       report every step\n").toList

namespace Job

/-- The report or the job of a command line. -/
def prepare (file : SettingsFile) (environment : Table Text) (arguments : List Text) :
    Except Escape (Report ⊕ Job) :=
  match Settings.load file environment with
  | .error fault => .error (.settings fault)
  | .ok loaded =>
    let remarks := if loaded.ignored then ignoredRemark else []
    match Invocation.read loaded.settings arguments with
    | .error .help => .ok (.inl ⟨0, usage, remarks⟩)
    | .error (.misuse fault) => .ok (.inl ⟨2, [], remarks ++ misuseRemark fault⟩)
    | .ok invocation =>
      let job (showsSteps : Bool) : Job := ⟨invocation, loaded.settings.resources, showsSteps, remarks⟩
      if invocation.verbose then .ok (.inr (job true))
      else
        match Level.showsSteps loaded.settings.level with
        | .error fault => .error (.level fault)
        | .ok showsSteps => .ok (.inr (job showsSteps))

/-- The hooks that a job lists: a resolver, if there are resources that are to be used. -/
def pipeline (job : Job) : Pipeline Resolver :=
  if job.invocation.useResources && !job.resources.isEmpty then
    { preprocessors := [Resolver.ofTable job.resources] }
  else {}

/-- What is printed for a tree. -/
def printed (i : Invocation) (root : Node) : Text :=
  match i.format with
  | .json => root.json (some i.indent) ++ ['\n']
  | .tree =>
    let outline := root.outline i.indent
    if outline = [] then [] else outline ++ ['\n']

/-- The remarks on the steps of a parse. -/
def stepRemarks (job : Job) (notes : List Note) : Text :=
  if job.showsSteps then notes.flatMap stepRemark else []

/-- The report on an abbreviation. -/
def report (job : Job) (abbreviation : Text) : Except Escape Report :=
  if job.invocation.indent < 0 then
    .ok ⟨1, [],
      job.remarks ++
        errorRemark ("Indent must be >= 0, got ".toList ++ Text.ofInt job.invocation.indent)⟩
  else
    let outcome : Outcome Resolver Unit Empty := job.pipeline.parse Resolver.act () abbreviation
    let remarks := job.remarks ++ job.stepRemarks outcome.notes
    match outcome.result with
    | .ok root => .ok ⟨0, printed job.invocation root, remarks⟩
    | .error (.inl (.abbreviation cause)) => .ok ⟨1, [], remarks ++ errorRemark cause.message⟩
    | .error (.inl (.integer cause)) => .error (.integer cause)
    | .error (.inr impossible) => nomatch impossible

end Job

/-- The report on a command line; the abbreviation is the input unless it is given as an argument. -/
def run (file : SettingsFile) (environment : Table Text) (arguments : List Text) (input : Text) :
    Except Escape Report :=
  match Job.prepare file environment arguments with
  | .error escape => .error escape
  | .ok (.inl report) => .ok report
  | .ok (.inr job) => job.report (job.invocation.abbreviation.getD input)

end Shorthand.CommandLine
