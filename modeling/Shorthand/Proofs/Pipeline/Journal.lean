import Shorthand.Pipeline

/-! # How a parse runs its hooks

To see which hooks run, they are made to keep a journal: each hook is entered with the state that it sees before it acts.
The journal tells how a parse went. The preprocessors are those that are listed when the first of them begins, the
postprocessors are those that are listed when the last preprocessor has ended, and each of them begins where the one
before it ended, up to the first that raises a fault.

* **`Pipeline.recorded`**, **`Pipeline.journal`** — hooks that keep a journal, and the journal of a parse.
* **`Pipeline.PhaseRun`**, **`Pipeline.Course`** — how a phase goes, and how a parse goes.
* `Pipeline.runHooks_recorded` — the journal of a phase.
* `Pipeline.journal_course` — the journal of a parse is that of a course with its outcome. -/

namespace Shorthand

/-- The state with another memory. -/
def Run.mapMemory {κ σ τ : Type} (f : σ → τ) (run : Run κ σ) : Run κ τ :=
  ⟨run.tree, f run.memory, run.pipeline, run.notes⟩

namespace Pipeline

variable {κ σ ε : Type}

/-! ## Journals -/

/-- The hooks that ran, each with the state in which it began. -/
abbrev Journal (κ σ : Type) := List (κ × Run κ σ)

/-- The state with a journal beside its memory. -/
def withJournal (run : Run κ σ) (journal : Journal κ σ) : Run κ (σ × Journal κ σ) :=
  run.mapMemory fun memory => (memory, journal)

/-- The hooks keep a journal: a hook is entered with the state that it sees, and then it acts. -/
def recorded (act : Act κ σ ε) : Act κ (σ × Journal κ σ) ε := fun key run =>
  let seen := run.mapMemory Prod.fst
  (withJournal (act key seen).1 (run.memory.2 ++ [(key, seen)]), (act key seen).2)

/-- The journal of a parse. -/
def journal (act : Act κ σ ε) (p : Pipeline κ) (memory : σ) (t : Text) : Journal κ σ :=
  (p.parse (recorded act) (memory, []) t).memory.2

/-- The hooks of a journal ran one after the other: each began in the state that the one before it left. -/
def Leads (act : Act κ σ ε) : Run κ σ → Journal κ σ → Run κ σ → Prop
  | start, [], stop => stop = start
  | start, (key, seen) :: rest, stop => seen = start ∧ Leads act (act key seen).1 rest stop

/-- How a phase went that had the given hooks to run: all of them ran, and none raised a fault, or one of them raised a
fault, and it was the last that ran. -/
structure PhaseRun (act : Act κ σ ε) (keys : List κ) (start : Run κ σ) (entries : Journal κ σ)
    (stop : Run κ σ) (raised : Option ε) : Prop where
  /-- Each hook began where the one before it ended. -/
  leads : Leads act start entries stop
  /-- All hooks but one that raised a fault ran without a fault, in order. -/
  ends : match raised with
    | none => entries.map Prod.fst = keys ∧ ∀ entry ∈ entries, (act entry.1 entry.2).2 = none
    | some fault => ∃ before key seen rest, entries = before ++ [(key, seen)] ∧
        keys = before.map Prod.fst ++ key :: rest ∧
        (∀ entry ∈ before, (act entry.1 entry.2).2 = none) ∧ (act key seen).2 = some fault

section

variable {act : Act κ σ ε} {keys : List κ} {start stop : Run κ σ} {entries : Journal κ σ}
  {raised : Option ε}

/-- Whatever happened, the hooks that ran are the first ones of those that were to run. -/
theorem PhaseRun.map_fst_isPrefix (phase : PhaseRun act keys start entries stop raised) :
    entries.map Prod.fst <+: keys := by
  obtain ⟨-, ends⟩ := phase
  cases raised with
  | none => exact ends.1 ▸ List.prefix_rfl
  | some fault =>
    obtain ⟨before, key, seen, rest, rfl, rfl, -⟩ := ends
    exact ⟨rest, by simp⟩

/-- A hook that raises no fault goes before the hooks that run after it. -/
theorem PhaseRun.cons {key : κ} (quiet : (act key start).2 = none)
    (phase : PhaseRun act keys (act key start).1 entries stop raised) :
    PhaseRun act (key :: keys) start ((key, start) :: entries) stop raised := by
  obtain ⟨leads, ends⟩ := phase
  refine ⟨⟨rfl, leads⟩, ?_⟩
  cases raised with
  | none =>
    refine ⟨by rw [List.map_cons, ends.1], ?_⟩
    intro entry inside
    rcases List.mem_cons.1 inside with rfl | later
    · exact quiet
    · exact ends.2 entry later
  | some fault =>
    obtain ⟨before, last, seen, rest, rfl, rfl, others, raises⟩ := ends
    refine ⟨(key, start) :: before, last, seen, rest, rfl, rfl, ?_, raises⟩
    intro entry inside
    rcases List.mem_cons.1 inside with rfl | later
    · exact quiet
    · exact others entry later

/-- Hooks that keep a journal enter just what ran, and do what they do without. -/
theorem runHooks_recorded (act : Act κ σ ε) (keys : List κ) (run : Run κ σ) (journal : Journal κ σ) :
    ∃ entries, runHooks (recorded act) keys (withJournal run journal) =
        (withJournal (runHooks act keys run).1 (journal ++ entries), (runHooks act keys run).2) ∧
      PhaseRun act keys run entries (runHooks act keys run).1 (runHooks act keys run).2 := by
  induction keys generalizing run journal with
  | nil =>
    refine ⟨[], ?_, ⟨rfl, rfl, ?_⟩⟩
    · rw [List.append_nil]
      rfl
    · intro entry inside
      exact absurd inside List.not_mem_nil
  | cons key rest ih =>
    have step : recorded act key (withJournal run journal) =
        (withJournal (act key run).1 (journal ++ [(key, run)]), (act key run).2) := rfl
    rw [runHooks, runHooks, step]
    cases acts : act key run with
    | mk next raised =>
      cases raised with
      | some fault =>
        refine ⟨[(key, run)], rfl, ⟨rfl, by rw [acts]; rfl⟩, [], key, run, rest, rfl, rfl, ?_, by rw [acts]⟩
        intro entry inside
        exact absurd inside List.not_mem_nil
      | none =>
        obtain ⟨entries, same, phase⟩ := ih next (journal ++ [(key, run)])
        refine ⟨(key, run) :: entries, ?_, PhaseRun.cons (by rw [acts]) ?_⟩
        · rw [List.append_assoc, List.singleton_append] at same
          exact same
        · rw [acts]
          exact phase

end

/-! ## A parse -/

/-- The state in which the preprocessors begin. -/
def rawRun (p : Pipeline κ) (memory : σ) (t : Text) : Run κ σ :=
  let reading := readAbbreviation t
  ⟨reading.tree, memory, p, reading.notes ++ [.parsed t reading.tree.children.length]⟩

/-- The state in which the postprocessors begin, by the one in which the preprocessors ended and the tree that is left
of its tree when it is optimized. -/
def optimizedRun (t : Text) (run : Run κ σ) (tree : Node) : Run κ σ :=
  { run with tree, notes := run.notes ++ [.optimized t tree.children.length] }

/-- What a parse ends with that ends in a state with a result. -/
def endWith (run : Run κ σ) (result : Except (Fault ⊕ ε) Node) : Outcome κ σ ε :=
  ⟨result, run.memory, run.pipeline, run.notes⟩

section Stages

variable {act : Act κ σ ε} {p : Pipeline κ} {memory : σ} {t : Text} {root tree : Node} {stop last : Run κ σ}

/-- A fault of a preprocessor ends a parse. -/
theorem parse_of_preprocessor {fault : ε} (accepted : parseRaw t = .ok root)
    (first : runHooks act p.preprocessors (rawRun p memory t) = (stop, some fault)) :
    p.parse act memory t = endWith stop (.error (.inr fault)) := by
  have noFault := (parseRaw_eq_ok_iff.1 accepted).1
  rw [rawRun] at first
  rw [parse]
  simp only [noFault, first]
  rfl

/-- A tree that is not optimized ends a parse. -/
theorem parse_of_notOptimized {fault : AbbreviationFault} (accepted : parseRaw t = .ok root)
    (first : runHooks act p.preprocessors (rawRun p memory t) = (stop, none))
    (refused : optimizeWithin treeLimit stop.tree = .error fault) :
    p.parse act memory t = endWith stop (.error (.inl fault)) := by
  have noFault := (parseRaw_eq_ok_iff.1 accepted).1
  rw [rawRun] at first
  rw [parse]
  simp only [noFault, first, refused]
  rfl

/-- When the tree is optimized, the postprocessors tell how a parse ends. -/
theorem parse_of_optimized {raised : Option ε} (accepted : parseRaw t = .ok root)
    (first : runHooks act p.preprocessors (rawRun p memory t) = (stop, none))
    (optimized : optimizeWithin treeLimit stop.tree = .ok tree)
    (second : runHooks act stop.pipeline.postprocessors (optimizedRun t stop tree) = (last, raised)) :
    p.parse act memory t =
      endWith last (raised.elim (.ok last.tree) fun fault => .error (.inr fault)) := by
  have noFault := (parseRaw_eq_ok_iff.1 accepted).1
  rw [rawRun] at first
  rw [optimizedRun] at second
  rw [parse]
  simp only [noFault, first, optimized, second]
  cases raised <;> rfl

end Stages

variable (act : Act κ σ ε) (p : Pipeline κ) (memory : σ) (t : Text)

/-- How the parse of an accepted abbreviation went: the hooks that the two phases ran, and what the parse ended with. -/
inductive Course : Journal κ σ → Journal κ σ → Outcome κ σ ε → Prop where
  /-- A preprocessor raised a fault, and no hook ran after it. -/
  | preprocessorRaised {pre stop fault}
      (first : PhaseRun act p.preprocessors (rawRun p memory t) pre stop (some fault)) :
      Course pre [] (endWith stop (.error (.inr fault)))
  /-- The preprocessors ran, and the tree that they left is not optimized. -/
  | notOptimized {pre stop fault} (first : PhaseRun act p.preprocessors (rawRun p memory t) pre stop none)
      (refused : optimizeWithin treeLimit stop.tree = .error fault) :
      Course pre [] (endWith stop (.error (.inl fault)))
  /-- The preprocessors ran, and after them a postprocessor raised a fault, and no hook ran after it. -/
  | postprocessorRaised {pre stop tree post last fault}
      (first : PhaseRun act p.preprocessors (rawRun p memory t) pre stop none)
      (optimized : optimizeWithin treeLimit stop.tree = .ok tree)
      (second : PhaseRun act stop.pipeline.postprocessors (optimizedRun t stop tree) post last (some fault)) :
      Course pre post (endWith last (.error (.inr fault)))
  /-- The preprocessors and the postprocessors ran. -/
  | done {pre stop tree post last} (first : PhaseRun act p.preprocessors (rawRun p memory t) pre stop none)
      (optimized : optimizeWithin treeLimit stop.tree = .ok tree)
      (second : PhaseRun act stop.pipeline.postprocessors (optimizedRun t stop tree) post last none) :
      Course pre post (endWith last (.ok last.tree))

variable {t}

/-- The journal of a parse is that of a course that ends with what the parse ends with. -/
theorem journal_course {root : Node} (accepted : parseRaw t = .ok root) :
    ∃ pre post, journal act p memory t = pre ++ post ∧ (rawRun p memory t).tree = root ∧
      Course act p memory t pre post (p.parse act memory t) := by
  have sameTree : (rawRun p memory t).tree = root := (parseRaw_eq_ok_iff.1 accepted).2.symm
  have sameStart : withJournal (rawRun p memory t) [] = rawRun p (memory, []) t := rfl
  obtain ⟨pre, firstNoted, first⟩ := runHooks_recorded act p.preprocessors (rawRun p memory t) []
  rw [sameStart] at firstNoted
  cases firstRan : runHooks act p.preprocessors (rawRun p memory t) with
  | mk stop raised =>
    rw [firstRan] at firstNoted first
    cases raised with
    | some fault =>
      refine ⟨pre, [], ?_, sameTree, ?_⟩
      · rw [journal, parse_of_preprocessor accepted firstNoted, List.append_nil]
        rfl
      · rw [parse_of_preprocessor accepted firstRan]
        exact .preprocessorRaised first
    | none =>
      cases optimized : optimizeWithin treeLimit stop.tree with
      | error fault =>
        refine ⟨pre, [], ?_, sameTree, ?_⟩
        · rw [journal, parse_of_notOptimized accepted firstNoted optimized, List.append_nil]
          rfl
        · rw [parse_of_notOptimized accepted firstRan optimized]
          exact .notOptimized first optimized
      | ok tree =>
        obtain ⟨post, secondNoted, second⟩ :=
          runHooks_recorded act stop.pipeline.postprocessors (optimizedRun t stop tree) pre
        cases secondRan : runHooks act stop.pipeline.postprocessors (optimizedRun t stop tree) with
        | mk last raised =>
          rw [secondRan] at secondNoted second
          refine ⟨pre, post, ?_, sameTree, ?_⟩
          · rw [journal, parse_of_optimized accepted firstNoted optimized secondNoted]
            rfl
          · rw [parse_of_optimized accepted firstRan optimized secondRan]
            cases raised with
            | some fault => exact .postprocessorRaised first optimized second
            | none => exact .done first optimized second

/-- The parse of a rejected abbreviation runs no hook. -/
theorem parse_of_rejected {fault : Fault} (rejected : parseRaw t = .error fault) :
    journal act p memory t = [] ∧
      p.parse act memory t = ⟨.error (.inl fault), memory, p, (readAbbreviation t).notes⟩ := by
  rw [parseRaw] at rejected
  rw [journal, Pipeline.parse, Pipeline.parse]
  cases faults : (readAbbreviation t).fault with
  | none =>
    rw [faults] at rejected
    cases rejected
  | some cause =>
    rw [faults] at rejected
    cases rejected
    exact ⟨rfl, rfl⟩

end Pipeline

end Shorthand
