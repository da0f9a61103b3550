import Shorthand.Token

/-! # Scan items

Read from left to right, a level of an abbreviation (the whole of it, or the inside of a group) is a list of
items: operators, tokens and groups. A reading is the list of the items that were read, together with the fault
that ended it, if one did.

* **`Item.sources`** — the tokens of a list of items in the order in which they are written, groups
  included. -/

namespace Shorthand

/-- An item of a level. -/
inductive Item where
  /-- The operator `>`: what follows goes below the current node. -/
  | descend
  /-- The operator `+`: what follows goes beside the current node. -/
  | sibling
  /-- The operator `^`: what follows goes beside the parent of the current node. -/
  | climb
  /-- A token with its text, the position where it begins, and what it says. -/
  | token (source : Text) (start : Nat) (token : Token)
  /-- A group with the items of its inside and the multiplier after it. -/
  | group (inside : List Item) (multiplier : Multiplier)

/-- What was read of a level. -/
structure Reading where
  /-- The items that were read. -/
  items : List Item
  /-- The fault that ended the reading before the end of the level. -/
  fault : Option Fault

namespace Reading

/-- The reading of an empty level. -/
def done : Reading := ⟨[], none⟩

/-- The reading that a fault ends at once. -/
def failed (fault : Fault) : Reading := ⟨[], some fault⟩

/-- The reading with one more item in front. -/
def after (item : Item) (r : Reading) : Reading := ⟨item :: r.items, r.fault⟩

@[simp] theorem items_after (item : Item) (r : Reading) : (after item r).items = item :: r.items :=
  rfl

@[simp] theorem fault_after (item : Item) (r : Reading) : (after item r).fault = r.fault := rfl

end Reading

namespace Item

/-- Induction on a list of items and on what stands inside of their groups. -/
@[elab_as_elim] theorem induction {motive : List Item → Prop} (nil : motive [])
    (descend : ∀ rest, motive rest → motive (descend :: rest))
    (sibling : ∀ rest, motive rest → motive (sibling :: rest))
    (climb : ∀ rest, motive rest → motive (climb :: rest))
    (token : ∀ source start said rest, motive rest → motive (token source start said :: rest))
    (group : ∀ inside multiplier rest,
      motive inside → motive rest → motive (group inside multiplier :: rest)) :
    ∀ items, motive items
  | [] => nil
  | .descend :: rest => descend rest (induction nil descend sibling climb token group rest)
  | .sibling :: rest => sibling rest (induction nil descend sibling climb token group rest)
  | .climb :: rest => climb rest (induction nil descend sibling climb token group rest)
  | .token source start said :: rest =>
    token source start said rest (induction nil descend sibling climb token group rest)
  | .group inside multiplier :: rest =>
    group inside multiplier rest (induction nil descend sibling climb token group inside)
      (induction nil descend sibling climb token group rest)

mutual
/-- The tokens of an item with the positions where they begin. -/
def sources : Item → List (Text × Nat)
  | token source start _ => [(source, start)]
  | group inside _ => sourcesAll inside
  | _ => []

/-- The tokens of a list of items with the positions where they begin, in the order in which they are
written. Positions are counted in the level of the token. -/
def sourcesAll : List Item → List (Text × Nat)
  | [] => []
  | item :: rest => sources item ++ sourcesAll rest
end

end Item

end Shorthand
