import Shorthand.Pipeline
import Shorthand.Node.Property

/-! # Stock hooks

Hooks of common use: they look at the tree, mark, add or take out nodes, fill in slots, set options, resolve
names, or edit the pipeline that runs them. All but the resolver keep a journal of their runs.

* **`HookTable.act`** — what the hook of a name does, by a table of hooks. -/

namespace Shorthand

/-- What a hook does. -/
inductive Hook where
  /-- Write the names and counts of the nodes at the top and the options into the journal. -/
  | record
  /-- Attach a value under a key to all nodes of a name. -/
  | tag (name key : Text) (value : Value)
  /-- Fill the slots of all named nodes with their tags. -/
  | slots
  /-- Add a node for a token at a place at the top. -/
  | insert (position : Option Int) (abbreviation : Text)
  /-- Take out all nodes of a name. -/
  | drop (name : Text)
  /-- Set a property of all nodes, the root included. -/
  | update (name : Text) (value : Value)
  /-- Set an option. -/
  | option (key : Text) (value : Value)
  /-- Raise a fault. -/
  | raise (message : Text)
  /-- List a hook in a phase, or strike it. -/
  | edit (listed : Bool) (phase : Phase) (target : Text)
  /-- Resolve the names of the nodes. -/
  | resolve (resolver : Resolver)

/-- A fault that a hook raises. -/
inductive HookFault where
  /-- A token is refused. -/
  | refused (fault : Fault)
  /-- A property cannot be set. -/
  | property (fault : PropertyFault)
  /-- The hook gives up with a message. -/
  | raised (message : Text)

/-- What a hook saw of the tree and the options. -/
structure Sight where
  /-- The names of the nodes at the top. -/
  names : List (Option Text)
  /-- The repetition counts of the nodes at the top. -/
  counts : List Int
  /-- The options. -/
  options : Table Value

/-- What the hooks of a parse share. -/
structure HookMemory where
  /-- The options of the parse. -/
  options : Table Value := []
  /-- The names of the hooks that ran, with what the recording ones saw. -/
  journal : List (Text × Option Sight) := []

namespace Node

mutual
/-- A node without what is below it of the given sort; nothing if it is of that sort itself. -/
def pruned (sort : Content → Bool) : Node → List Node
  | mk content kids => if sort content then [] else [mk content (prune sort kids)]

/-- The nodes of a list without those, at any depth, whose content is of the given sort. -/
def prune (sort : Content → Bool) : List Node → List Node
  | [] => []
  | n :: rest => pruned sort n ++ prune sort rest
end

end Node

namespace Content

/-- The content with the tags of its element in the slots around it, if it has a name. -/
def tagged (c : Content) : Content :=
  match c.name? with
  | none => c
  | some name =>
    { c with opening := '<' :: (name ++ ['>']), closing := '<' :: '/' :: (name ++ ['>']) }

end Content

namespace Hook

/-- What a hook does to the state of a parse, apart from the journal. -/
def perform : Hook → Run Text HookMemory → Run Text HookMemory × Option HookFault
  | record, run => (run, none)
  | tag name key value, run =>
    let mark (c : Content) : Content :=
      if c.isNamed name then { c with data := Table.put key value c.data } else c
    ({ run with tree := run.tree.mapBelow mark }, none)
  | slots, run => ({ run with tree := run.tree.mapBelow Content.tagged }, none)
  | insert position abbreviation, run =>
    let read := Token.read abbreviation
    let node := Node.blank.withContent (·.assign read.1)
    ({ run with tree := run.tree.withChildren (insertAt position node) },
      read.2.map .refused)
  | drop name, run => ({ run with tree := run.tree.withChildren (Node.prune (·.isNamed name)) }, none)
  | update name value, run =>
    match Assignment.read name value with
    | .error fault => (run, some (.property fault))
    | .ok assignment => ({ run with tree := run.tree.update assignment }, none)
  | option key value, run =>
    ({ run with
        memory := { run.memory with options := Table.put key value run.memory.options } }, none)
  | raise message, run => (run, some (.raised message))
  | edit listed phase target, run =>
    ({ run with
        pipeline :=
          if listed then run.pipeline.add phase target else run.pipeline.remove phase target },
      none)
  | resolve resolver, run => (run.resolve resolver, none)

/-- What a hook sees of a state. -/
def look (run : Run Text HookMemory) : Sight :=
  { names := run.tree.children.map (·.content.name?)
    counts := run.tree.children.map (·.content.repeatCount)
    options := run.memory.options }

/-- The entry that a run of a hook makes in the journal. -/
def journalEntry (name : Text) (run : Run Text HookMemory) : Hook → List (Text × Option Sight)
  | record => [(name, some (look run))]
  | resolve _ => []
  | _ => [(name, none)]

end Hook

/-- Hooks by name. -/
abbrev HookTable := Table Hook

namespace HookTable

/-- What the hook of a name does: it writes its entry into the journal and then acts. A name without a hook
does nothing. -/
def act (hooks : HookTable) : Act Text HookMemory HookFault := fun name run =>
  match Table.find? name hooks with
  | none => (run, none)
  | some hook =>
    let journal := run.memory.journal ++ hook.journalEntry name run
    hook.perform { run with memory := { run.memory with journal } }

end HookTable

end Shorthand
