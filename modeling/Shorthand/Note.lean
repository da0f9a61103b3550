import Shorthand.Reading.Spine
import Shorthand.Resolver

/-! # Notes on a parse

What a parse reports about its progress to whoever follows it closely: the tokens as they are read, the names
that are resolved, and the number of nodes at the top of the tree before and after it is optimized. -/

namespace Shorthand

/-- A note on the progress of a parse. -/
inductive Note where
  /-- A token was read at a position of its level. -/
  | token (source : Text) (start : Nat)
  /-- An abbreviation was read; its tree has the given number of nodes at the top. -/
  | parsed (abbreviation : Text) (count : Nat)
  /-- The tree of an abbreviation was optimized. -/
  | optimized (abbreviation : Text) (count : Nat)
  /-- An element name was resolved to a resource of the given kind and name. -/
  | resolved (name kind meant : Text)
  deriving DecidableEq, Repr

namespace Note

/-- The text of a note. -/
def text : Note → Text
  | token source start => "token ".toList ++ source.quoted ++ " at ".toList ++ Text.ofNat start
  | parsed abbreviation count =>
    "parsed ".toList ++ abbreviation.quoted ++ " into ".toList ++ Text.ofNat count ++
      " top-level nodes".toList
  | optimized abbreviation count =>
    "optimized ".toList ++ abbreviation.quoted ++ " into ".toList ++ Text.ofNat count ++
      " top-level nodes".toList
  | resolved name kind meant =>
    "resolved ".toList ++ name.quoted ++ " to ".toList ++ kind ++ ' ' :: meant.quoted

end Note

/-- The notes on the tokens of a reading. -/
def Reading.notes (r : Reading) : List Note :=
  (Item.sourcesAll r.items).map fun source => .token source.1 source.2

/-- The notes on the names that a resolver resolves in a tree. -/
def Resolver.notes (r : Resolver) (root : Node) : List Note :=
  root.descendants.filterMap fun n =>
    (r.lookup n.content.elementName).map fun resource =>
      .resolved (n.content.elementName.getD []) resource.kind resource.name

end Shorthand
