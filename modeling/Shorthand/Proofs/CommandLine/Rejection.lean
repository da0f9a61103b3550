import Shorthand.CommandLine.Report
import Shorthand.Proofs.Optimize.Unroll
import Shorthand.Proofs.Reading.Faults
import Shorthand.Proofs.Reading.SingleToken
import Shorthand.Proofs.Text.Quoted

/-! # How a rejection is reported

The program reports the faults of abbreviations, and no others. Resolvers raise no faults and keep the number of
levels, so that a pipeline of resolvers rejects what a parse without hooks rejects. So a parse gives a tree, or a fault
that is reported in one line, or else some multiplier has too many digits: that fault is none of the abbreviation, and
it escapes.

* `Pipeline.result_of_parse_error` — a pipeline of resolvers rejects what is rejected without hooks.
* `CommandLine.Job.report_of_parse_error`, `CommandLine.Job.report_of_parse_integer` — what is reported, and what
  escapes.
* `CommandLine.parse_or_report` — the three outcomes of a parse.
* `CommandLine.parse_long_run` — a token with too many digits after its star has the third one. -/

namespace Shorthand

namespace Pipeline

variable {σ ε : Type}

/-- Resolvers raise no faults, and they keep the number of levels. -/
theorem runHooks_resolvers (resolvers : List Resolver) (run : Run Resolver σ) :
    ∃ run', runHooks (ε := ε) Resolver.act resolvers run = (run', none) ∧
      run'.tree.height = run.tree.height := by
  induction resolvers generalizing run with
  | nil => exact ⟨run, rfl, rfl⟩
  | cons r rest ih =>
    obtain ⟨run', ended, height⟩ := ih (run.resolve r)
    refine ⟨run', ended, height.trans ?_⟩
    obtain ⟨⟨content, kids⟩, memory, pipeline, notes⟩ := run
    rw [Run.tree_resolve, Resolver.resolve, Node.mapBelow, Node.withChildren, Node.height,
      Node.height, Node.heightAll_mapEach]

/-- A pipeline of resolvers rejects what a parse without hooks rejects, for the same reason. -/
theorem result_of_parse_error {t : Text} {fault : Fault} (rejected : Shorthand.parse t = .error fault)
    (p : Pipeline Resolver) (memory : σ) :
    (p.parse (ε := ε) Resolver.act memory t).result = .error (.inl fault) := by
  unfold Shorthand.parse parseRaw at rejected
  unfold Pipeline.parse
  cases ended : (readAbbreviation t).fault with
  | some cause =>
    simp only [ended] at rejected ⊢
    cases rejected
    rfl
  | none =>
    simp only [ended, bind, Except.bind, optimizeWithin] at rejected ⊢
    obtain ⟨run', ran, height⟩ := runHooks_resolvers (ε := ε) p.preprocessors
      ⟨(readAbbreviation t).tree, memory, p,
        (readAbbreviation t).notes ++ [.parsed t (readAbbreviation t).tree.children.length]⟩
    rw [ran]
    simp only [height]
    split at rejected
    · cases rejected
    · next refused =>
      split at refused
      · cases refused
      · next tooHigh =>
        rw [if_neg tooHigh]
        cases refused
        cases rejected
        rfl

end Pipeline

namespace CommandLine

/-- A rejection is reported in one line, after the remarks that were made before. -/
theorem Job.report_of_parse_error {t : Text} {cause : AbbreviationFault}
    (rejected : parse t = .error (.abbreviation cause)) (job : Job)
    (indented : 0 ≤ job.invocation.indent) :
    ∃ notes, job.report t = .ok ⟨1, [], job.remarks ++ job.stepRemarks notes ++
      errorRemark cause.message⟩ := by
  have result := Pipeline.result_of_parse_error (ε := Empty) rejected job.pipeline ()
  refine ⟨(job.pipeline.parse (ε := Empty) Resolver.act () t).notes, ?_⟩
  rw [Job.report, if_neg (Int.not_lt.2 indented)]
  simp only [result]

/-- A number that cannot be read is not reported: it escapes. -/
theorem Job.report_of_parse_integer {t : Text} {cause : IntegerFault}
    (rejected : parse t = .error (.integer cause)) (job : Job) (indented : 0 ≤ job.invocation.indent) :
    job.report t = .error (.integer cause) := by
  have result := Pipeline.result_of_parse_error (ε := Empty) rejected job.pipeline ()
  rw [Job.report, if_neg (Int.not_lt.2 indented)]
  simp only [result]

/-- A parse gives a tree, or a fault of the abbreviation, which is reported in one line, or it ends at a multiplier with
too many digits, and then the fault escapes. -/
theorem parse_or_report (t : Text) :
    (∃ root, parse t = .ok root) ∨
    (∃ cause, parse t = .error (.abbreviation cause) ∧ '\n' ∉ cause.message ∧
      ∀ job : Job, 0 ≤ job.invocation.indent →
        ∃ notes, job.report t = .ok ⟨1, [], job.remarks ++ job.stepRemarks notes ++
          errorRemark cause.message⟩) ∨
    (∃ count, parse t = .error (.integer (.tooLong count)) ∧ Multiplier.HasLongRun count t ∧
      ∀ job : Job, 0 ≤ job.invocation.indent →
        job.report t = .error (.integer (.tooLong count))) := by
  cases parsed : parse t with
  | ok root => exact .inl ⟨root, rfl⟩
  | error fault =>
    cases fault with
    | abbreviation cause =>
      exact .inr <| .inl ⟨cause, rfl, cause.lineFeed_not_mem_message,
        fun job indented => job.report_of_parse_error parsed indented⟩
    | integer cause =>
      obtain ⟨count, rfl, long⟩ := parse_integer parsed
      exact .inr <| .inr ⟨count, rfl, long,
        fun job indented => job.report_of_parse_integer parsed indented⟩

/-- A stray character after a repeated group, reported without steps. -/
theorem parse_or_report_strayChar :
    ∃ cause, parse "(a*2)*3>b%".toList = .error (.abbreviation cause) ∧ '\n' ∉ cause.message ∧
      Job.report ⟨{ format := .tree, indent := 2 }, [], false, []⟩ "(a*2)*3>b%".toList =
        .ok ⟨1, [], errorRemark cause.message⟩ := by
  have refused : parse "(a*2)*3>b%".toList = .error (.abbreviation (.strayChar '%' 9)) := by cbv
  rcases parse_or_report "(a*2)*3>b%".toList with ⟨root, accepted⟩ | ⟨cause, rejected, line, reported⟩ |
    ⟨count, rejected, -, -⟩
  · rw [refused] at accepted
    cases accepted
  · obtain ⟨notes, report⟩ := reported ⟨{ format := .tree, indent := 2 }, [], false, []⟩ (by decide)
    exact ⟨cause, rejected, line, report⟩
  · rw [refused] at rejected
    cases rejected

/-- A token with too many digits after a star is rejected for the number. -/
theorem parse_long_run {t digits : Text} (isToken : t.IsToken)
    (plain : Multiplier.cut t = .ok (t, .absent)) (areDigits : ∀ c ∈ digits, c.isDigit = true)
    (long : IntegerFault.digitLimit < digits.length) :
    parse (t ++ '*' :: digits) = .error (.integer (.tooLong digits.length)) := by
  have reading := (isToken.append_star areDigits).readAbbreviation
  have split := Multiplier.splitAtStar?_append (Multiplier.cut_eq_absent_iff.1 plain)
    fun c inside => Text.isDigit_of_isDigit (areDigits c inside)
  have number : Text.readDigits digits = .error (.tooLong digits.length) :=
    Text.readDigits_eq_error_iff.2 ⟨long, rfl⟩
  have nonempty : digits ≠ [] := by
    rintro rfl
    cases long
  have refused : (Token.read (t ++ '*' :: digits)).2 = some (.integer (.tooLong digits.length)) := by
    rw [Token.read, Multiplier.cut, split]
    simp only [Multiplier.ofDigits, if_neg nonempty, number]
    rfl
  rw [parse, parseRaw, reading]
  simp only [refused]
  rfl

end CommandLine

end Shorthand
