import Shorthand.Note
import Shorthand.Optimize.Basic

/-! # The parse pipeline

A parse reads an abbreviation, lets the *preprocessors* see the tree as it was read, optimizes it, and lets the
*postprocessors* see the result. A pipeline knows its hooks by keys of which each is listed at most once; what
the hook of a key does is told apart from the lists, so that a hook may edit the lists of the pipeline that runs
it. The hooks of a phase are those that are listed when the phase begins.

* **`Pipeline.add`**, **`Pipeline.remove`** — edit one of the lists.
* **`Pipeline.parse`** — parse an abbreviation with the hooks of the pipeline.
* **`parse`** — parse an abbreviation without hooks. -/

namespace Shorthand

/-- The two phases in which hooks run. -/
inductive Phase where
  /-- Before the tree is optimized. -/
  | pre
  /-- After the tree is optimized. -/
  | post
  deriving DecidableEq, Repr

/-- The keys of the hooks of a parse, in the order in which they run. -/
structure Pipeline (κ : Type) where
  /-- The hooks that run before the tree is optimized. -/
  preprocessors : List κ := []
  /-- The hooks that run after the tree is optimized. -/
  postprocessors : List κ := []

/-- The state of a parse that hooks see and change. -/
structure Run (κ σ : Type) where
  /-- The tree. -/
  tree : Node
  /-- What is passed to all hooks and kept by the caller. -/
  memory : σ
  /-- The pipeline that runs. -/
  pipeline : Pipeline κ
  /-- The notes made so far. -/
  notes : List Note

/-- How a parse ended, and what it left. -/
structure Outcome (κ σ ε : Type) where
  /-- The tree, or the fault of the abbreviation or of a hook. -/
  result : Except (Fault ⊕ ε) Node
  /-- What is passed to all hooks, as the hooks left it. -/
  memory : σ
  /-- The pipeline as the hooks left it. -/
  pipeline : Pipeline κ
  /-- The notes that were made. -/
  notes : List Note

/-- What the hook of a key does: it changes the state, and it may raise a fault of its own. -/
abbrev Act (κ σ ε : Type) := κ → Run κ σ → Run κ σ × Option ε

namespace Run

variable {κ σ : Type}

/-- Attach the resources of a resolver to the nodes of the tree. -/
def resolve (r : Resolver) (run : Run κ σ) : Run κ σ :=
  { run with tree := r.resolve run.tree, notes := run.notes ++ r.notes run.tree }

@[simp] theorem tree_resolve (r : Resolver) (run : Run κ σ) :
    (run.resolve r).tree = r.resolve run.tree := rfl

end Run

/-- What a resolver does as a hook. -/
def Resolver.act {σ ε : Type} : Act Resolver σ ε := fun r run => (run.resolve r, none)

namespace Pipeline

variable {κ σ ε : Type}

/-- The hooks of a phase. -/
def hooks (p : Pipeline κ) : Phase → List κ
  | .pre => p.preprocessors
  | .post => p.postprocessors

/-- Replace the hooks of a phase. -/
def withHooks (p : Pipeline κ) (phase : Phase) (keys : List κ) : Pipeline κ :=
  match phase with
  | .pre => { p with preprocessors := keys }
  | .post => { p with postprocessors := keys }

/-- List a hook at the end of a phase, unless it is listed there already. -/
def add [BEq κ] (p : Pipeline κ) (phase : Phase) (key : κ) : Pipeline κ :=
  if (p.hooks phase).contains key then p else p.withHooks phase (p.hooks phase ++ [key])

/-- Strike a hook from a phase. -/
def remove [BEq κ] (p : Pipeline κ) (phase : Phase) (key : κ) : Pipeline κ :=
  p.withHooks phase ((p.hooks phase).filter fun k => !(k == key))

/-- The pipeline of two lists of hooks, in which a hook may be repeated. -/
def ofLists [BEq κ] (pre post : List κ) : Pipeline κ :=
  post.foldl (fun p key => p.add .post key) (pre.foldl (fun p key => p.add .pre key) {})

/-- Run hooks one after the other, up to the first that raises a fault. -/
def runHooks (act : Act κ σ ε) : List κ → Run κ σ → Run κ σ × Option ε
  | [], run => (run, none)
  | key :: rest, run =>
    match act key run with
    | (run, some fault) => (run, some fault)
    | (run, none) => runHooks act rest run

/-- Parse an abbreviation with the hooks of a pipeline. -/
def parse (act : Act κ σ ε) (p : Pipeline κ) (memory : σ) (abbreviation : Text) :
    Outcome κ σ ε :=
  let reading := readAbbreviation abbreviation
  match reading.fault with
  | some fault => ⟨.error (.inl fault), memory, p, reading.notes⟩
  | none =>
    let notes := reading.notes ++ [.parsed abbreviation reading.tree.children.length]
    match runHooks act p.preprocessors ⟨reading.tree, memory, p, notes⟩ with
    | (run, some fault) => ⟨.error (.inr fault), run.memory, run.pipeline, run.notes⟩
    | (run, none) =>
      match optimizeWithin treeLimit run.tree with
      | .error fault => ⟨.error (.inl fault), run.memory, run.pipeline, run.notes⟩
      | .ok tree =>
        let notes := run.notes ++ [.optimized abbreviation tree.children.length]
        match runHooks act run.pipeline.postprocessors { run with tree, notes } with
        | (run, some fault) => ⟨.error (.inr fault), run.memory, run.pipeline, run.notes⟩
        | (run, none) => ⟨.ok run.tree, run.memory, run.pipeline, run.notes⟩

@[simp] theorem hooks_withHooks (p : Pipeline κ) (phase : Phase) (keys : List κ) :
    (p.withHooks phase keys).hooks phase = keys := by cases phase <;> rfl

@[simp] theorem runHooks_nil (act : Act κ σ ε) (run : Run κ σ) :
    runHooks act [] run = (run, none) := rfl

end Pipeline

/-- Parse an abbreviation without hooks. -/
def parse (abbreviation : Text) : Except Fault Node := do
  let root ← parseRaw abbreviation
  match optimizeWithin treeLimit root with
  | .ok tree => .ok tree
  | .error fault => .error fault

end Shorthand
