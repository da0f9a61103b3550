import Shorthand.Reading.Spine

/-! # What building leaves alone

Building the tree changes the right edge alone. So what was finished before stays in front of what is built later, and
what is built below a node is what would be built at the top, as long as nothing climbs out of the node.

* **`Spine.behind`**, **`Spine.under`** — a tree under construction put after finished nodes, and below a node.
* `Item.build_group_sibling` — a group at the beginning of a level gives one node, and the others follow it.
* `Item.build_token_descend` — a token at the beginning of a level has the nodes of what follows `>` below it. -/

namespace Shorthand

namespace Node

/-- Children that are adopted one after the other are adopted together. -/
theorem adopt_adopt (n : Node) (first second : List Node) :
    (n.adopt first).adopt second = n.adopt (first ++ second) := by
  obtain ⟨c, kids⟩ := n
  simp only [adopt, withChildren, List.append_assoc]

end Node

namespace Spine

variable {before : List Node} {parent : Node}

/-- A tree under construction with finished nodes before it. -/
def behind (before : List Node) (s : Spine) : Spine := { s with finished := before ++ s.finished }

/-- A tree under construction below a node. -/
def under (parent : Node) (s : Spine) : Spine :=
  ⟨s.current, s.ancestors ++ [parent.adopt s.finished], []⟩

theorem forest_behind (s : Spine) : (s.behind before).forest = before ++ s.forest :=
  List.append_assoc ..

/-- Closing a node into its ancestors ends with the outermost one. -/
theorem close_append (n root : Node) (ancestors : List Node) :
    close n (ancestors ++ [root]) = root.adopt [close n ancestors] := by
  induction ancestors generalizing n with
  | nil => rfl
  | cons parent rest ih => rw [List.cons_append, close_cons, close_cons, ih]

theorem forest_under (s : Spine) : (s.under parent).forest = [parent.adopt s.forest] := by
  rw [forest, under, close_append, Node.adopt_adopt]
  rfl

/-- No item reaches the nodes that were finished before. -/
theorem apply_behind (item : Item) (s : Spine) :
    item.apply (s.behind before) = (item.apply s).behind before := by
  obtain ⟨current, ancestors, finished⟩ := s
  cases item with
  | descend => simp only [Item.apply]; rfl
  | sibling =>
    cases ancestors with
    | nil => simp only [Item.apply, beside, behind, List.append_assoc]
    | cons parent rest => simp only [Item.apply]; rfl
  | climb =>
    -- climbing ends beside the current node, its parent, or its grandparent's child
    obtain _ | ⟨parent, _ | ⟨next, rest⟩⟩ := ancestors <;>
      simp only [Item.apply, up, beside, behind, List.append_assoc]
  | token source start said => simp only [Item.apply]; rfl
  | group inside multiplier => simp only [Item.apply]; rfl

theorem applyAll_behind (items : List Item) (s : Spine) :
    Item.applyAll items (s.behind before) = (Item.applyAll items s).behind before := by
  induction items generalizing s with
  | nil => rw [Item.applyAll_nil, Item.applyAll_nil]
  | cons item rest ih => rw [Item.applyAll_cons, Item.applyAll_cons, apply_behind, ih]

/-- Only climbing leaves a node. -/
theorem apply_under {item : Item} (stays : item ≠ .climb) (s : Spine) :
    item.apply (s.under parent) = (item.apply s).under parent := by
  obtain ⟨current, ancestors, finished⟩ := s
  cases item with
  | descend => simp only [Item.apply]; rfl
  | sibling =>
    cases ancestors with
    | nil => simp only [Item.apply, beside, under, List.nil_append, Node.adopt_adopt]
    | cons parent rest => simp only [Item.apply]; rfl
  | climb => exact absurd rfl stays
  | token source start said => simp only [Item.apply]; rfl
  | group inside multiplier => simp only [Item.apply]; rfl

theorem applyAll_under {items : List Item} (stays : .climb ∉ items) (s : Spine) :
    Item.applyAll items (s.under parent) = (Item.applyAll items s).under parent := by
  induction items generalizing s with
  | nil => rw [Item.applyAll_nil, Item.applyAll_nil]
  | cons item rest ih =>
    have first : item ≠ .climb := fun same => stays (same ▸ List.mem_cons_self)
    have others : .climb ∉ rest := fun inside => stays (List.mem_cons_of_mem item inside)
    rw [Item.applyAll_cons, Item.applyAll_cons, apply_under first, ih others]

end Spine

namespace Item

@[simp] theorem build_nil : build [] = [.blank] := by
  rw [build, applyAll_nil]
  rfl

/-- A token alone gives one node. -/
theorem build_token (source : Text) (start : Nat) (said : Token) :
    build [.token source start said] = [.mk (({} : Content).assign said) []] := by
  rw [build, applyAll_cons, applyAll_nil, apply]
  rfl

/-- A group alone gives one node, which has the nodes of the inside below it. -/
theorem build_group (inside : List Item) (multiplier : Multiplier) :
    build [.group inside multiplier] = [.mk (({} : Content).repeatBy multiplier) (build inside)] := by
  rw [build, applyAll_cons, applyAll_nil, apply]
  rfl

/-- What follows a group and `+` comes after the node of the group. -/
theorem build_group_sibling (inside : List Item) (multiplier : Multiplier) (rest : List Item) :
    build (.group inside multiplier :: .sibling :: rest) =
      .mk (({} : Content).repeatBy multiplier) (build inside) :: build rest := by
  have moved : apply .sibling (apply (.group inside multiplier) .start) =
      Spine.start.behind [.mk (({} : Content).repeatBy multiplier) (build inside)] := by
    simp only [apply]
    rfl
  rw [build, applyAll_cons, applyAll_cons, moved, Spine.applyAll_behind, Spine.forest_behind]
  rfl

/-- What follows a token and `>` is below the node of the token, unless it climbs. -/
theorem build_token_descend (source : Text) (start : Nat) (said : Token) {rest : List Item}
    (stays : .climb ∉ rest) :
    build (.token source start said :: .descend :: rest) =
      [.mk (({} : Content).assign said) (build rest)] := by
  have moved : apply .descend (apply (.token source start said) .start) =
      Spine.start.under (.mk (({} : Content).assign said) []) := by
    simp only [apply]
    rfl
  rw [build, applyAll_cons, applyAll_cons, moved, Spine.applyAll_under stays, Spine.forest_under]
  rfl

end Item

end Shorthand
