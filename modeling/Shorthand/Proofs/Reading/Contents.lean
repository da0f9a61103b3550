import Shorthand.Proofs.Optimize.Inert
import Shorthand.Proofs.Reading.Scan
import Shorthand.Reading.Spine

/-! # What reading writes into nodes

Building a tree begins with blank contents, and all that is written into them are tokens and multipliers. A change of
contents that a blank content does not show, and that can be made before or after those are written, is not to be seen
in the tree of a list of items. In the same way, what holds of a blank content and of whatever is written into such a
content holds of all contents of the tree.

* **`Content.IsUnread`** — the change leaves a blank content alone, and commutes with tokens and multipliers.
* **`Spine.map`** — a tree under construction with changed contents.
* `Item.mapEach_build` — such a change leaves the tree of a list of items as it is.
* **`Content.IsKept`** — the property holds of a blank content, and tokens and multipliers keep it.
* `holds_of_parseRaw` — such a property holds of all contents of the tree of an abbreviation. -/

namespace Shorthand

/-- A change of contents that reading does not notice. -/
structure Content.IsUnread (f : Content → Content) : Prop where
  /-- A blank content shows nothing of it. -/
  blank : f {} = {}
  /-- A multiplier may be applied before or after. -/
  repeatBy_comm : ∀ c multiplier, f (c.repeatBy multiplier) = (f c).repeatBy multiplier
  /-- A token may be assigned before or after. -/
  assign_comm : ∀ c said, f (c.assign said) = (f c).assign said

namespace Spine

variable {f : Content → Content}

/-- A tree under construction with changed contents. -/
def map (f : Content → Content) (s : Spine) : Spine :=
  ⟨s.current.mapAll f, Node.mapEach f s.ancestors, Node.mapEach f s.finished⟩

theorem mapAll_adopt (n : Node) (kids : List Node) :
    (n.adopt kids).mapAll f = (n.mapAll f).adopt (Node.mapEach f kids) := by
  obtain ⟨c, others⟩ := n
  simp only [Node.adopt, Node.withChildren, Node.mapAll_mk, Node.mapEach_append]

theorem mapAll_close (n : Node) (ancestors : List Node) :
    (close n ancestors).mapAll f = close (n.mapAll f) (Node.mapEach f ancestors) := by
  induction ancestors generalizing n with
  | nil => rw [Node.mapEach_nil, close_nil, close_nil]
  | cons parent rest ih =>
    have below : Node.mapEach f [n] = [n.mapAll f] := by rw [Node.mapEach_eq_map, List.map_singleton]
    rw [close_cons, ih, mapAll_adopt, below, Node.mapEach, close_cons]

theorem mapAll_blank (unread : Content.IsUnread f) : Node.mapAll f .blank = .blank := by
  rw [Node.blank, Node.mapAll_mk, unread.blank, Node.mapEach_nil]

/-- Nothing is to be seen of the change at the beginning of a level. -/
theorem map_start (unread : Content.IsUnread f) : Spine.start.map f = .start := by
  rw [map, start, mapAll_blank unread, Node.mapEach_nil]

/-- Contents may be changed before or after the tree is closed. -/
theorem forest_map (s : Spine) : (s.map f).forest = Node.mapEach f s.forest := by
  rw [forest, forest, Node.mapEach_append, Node.mapEach_eq_map f [_], List.map_singleton, mapAll_close]
  rfl

end Spine

namespace Item

variable {f : Content → Content}

/-- Contents may be changed before or after an item is applied that is no group. -/
theorem apply_map (unread : Content.IsUnread f) {item : Item}
    (single : ∀ inside multiplier, item ≠ .group inside multiplier) (s : Spine) :
    apply item (s.map f) = (apply item s).map f := by
  obtain ⟨⟨c, kids⟩, ancestors, finished⟩ := s
  have blank := Spine.mapAll_blank unread
  have current : Node.mapEach f [.mk c kids] = [(Node.mk c kids).mapAll f] := by
    rw [Node.mapEach_eq_map, List.map_singleton]
  cases item with
  | descend =>
    simp only [apply, Spine.below, Spine.map, blank, Node.mapEach]
  | sibling =>
    cases ancestors with
    | nil => simp only [apply, Spine.beside, Spine.map, blank, Node.mapEach_nil, Node.mapEach_append, current]
    | cons parent rest =>
      simp only [apply, Spine.beside, Spine.map, blank, Node.mapEach, Spine.mapAll_adopt]
  | climb =>
    -- climbing ends beside the current node, its parent, or its grandparent's child
    obtain _ | ⟨parent, _ | ⟨next, rest⟩⟩ := ancestors <;>
      simp only [apply, Spine.up, Spine.beside, Spine.map, blank, Node.mapEach, Node.mapEach_append,
        Spine.mapAll_adopt]
  | token source start said =>
    simp only [apply, Spine.change, Node.withContent, Spine.map, Node.mapAll_mk, unread.assign_comm]
  | group inside multiplier => exact absurd rfl (single inside multiplier)

/-- Contents may be changed before or after items are applied. -/
theorem applyAll_map (unread : Content.IsUnread f) (items : List Item) (s : Spine) :
    applyAll items (s.map f) = (applyAll items s).map f := by
  induction items using Item.induction generalizing s with
  | nil => rw [applyAll_nil, applyAll_nil]
  | descend rest ih | sibling rest ih | climb rest ih | token _ _ _ rest ih =>
    rw [applyAll_cons, applyAll_cons, apply_map unread (by simp), ih]
  | group inside multiplier rest insideInduction ih =>
    -- the nodes of the group are not changed, for they begin blank
    have group : apply (.group inside multiplier) (s.map f) =
        (apply (.group inside multiplier) s).map f := by
      obtain ⟨⟨c, kids⟩, ancestors, finished⟩ := s
      have nodes : Node.mapEach f (applyAll inside .start).forest = (applyAll inside .start).forest := by
        rw [← Spine.forest_map, ← insideInduction, Spine.map_start unread]
      simp only [apply, Spine.change, Node.withContent, Spine.map, Node.mapAll_mk, Spine.mapAll_adopt,
        unread.repeatBy_comm, nodes]
    rw [applyAll_cons, applyAll_cons, group, ih]

/-- A change that reading does not notice leaves the tree of a list of items as it is. -/
theorem mapEach_build (unread : Content.IsUnread f) (items : List Item) :
    Node.mapEach f (build items) = build items := by
  rw [build, ← Spine.forest_map, ← applyAll_map unread, Spine.map_start unread]

end Item

/-! ## Properties of contents -/

/-- A property of contents that reading keeps, so long as multipliers are positive. -/
structure Content.IsKept (P : Content → Prop) : Prop where
  /-- A blank content has it. -/
  blank : P {}
  /-- A multiplier keeps it. -/
  repeatBy : ∀ {c : Content} {multiplier : Multiplier}, multiplier.IsPositive → P c → P (c.repeatBy multiplier)
  /-- A token keeps it. -/
  assign : ∀ {c : Content} {said : Token}, said.multiplier.IsPositive → P c → P (c.assign said)

namespace Node

variable {P : Content → Prop}

/-- The property holds of all contents of a list of trees. -/
def Holds (P : Content → Prop) (nodes : List Node) : Prop := ∀ c ∈ contentsAll nodes, P c

@[simp] theorem holds_nil : Holds P [] := by simp [Holds]

@[simp] theorem holds_cons (n : Node) (rest : List Node) :
    Holds P (n :: rest) ↔ P n.content ∧ Holds P n.children ∧ Holds P rest := by
  obtain ⟨c, kids⟩ := n
  simp [Holds, or_imp, forall_and]

@[simp] theorem holds_append (before after : List Node) :
    Holds P (before ++ after) ↔ Holds P before ∧ Holds P after := by
  simp [Holds, contentsAll_append, or_imp, forall_and]

/-- Adopting leaves the content as it is, and puts the children behind those that are there. -/
@[simp] theorem content_adopt (n : Node) (kids : List Node) : (n.adopt kids).content = n.content := by
  cases n
  rfl

@[simp] theorem children_adopt (n : Node) (kids : List Node) : (n.adopt kids).children = n.children ++ kids := by
  cases n
  rfl

end Node

namespace Spine

variable {P : Content → Prop} {s : Spine}

/-- The property holds of all contents of a tree under construction. -/
def Holds (P : Content → Prop) (s : Spine) : Prop := Node.Holds P (s.current :: (s.ancestors ++ s.finished))

/-- Closing a node into its ancestors leaves the contents in place. -/
theorem holds_close (n : Node) (ancestors : List Node) :
    Node.Holds P [close n ancestors] ↔ Node.Holds P (n :: ancestors) := by
  induction ancestors generalizing n with
  | nil => rw [close_nil]
  | cons parent rest ih =>
    rw [close_cons, ih]
    simp only [Node.holds_cons, Node.content_adopt, Node.children_adopt, Node.holds_append, Node.holds_nil]
    grind

/-- What holds of all contents under construction holds when the tree is closed. -/
theorem Holds.forest (holds : s.Holds P) : Node.Holds P s.forest := by
  rw [Spine.forest, Node.holds_append, holds_close]
  simp only [Holds, Node.holds_cons, Node.holds_append] at holds ⊢
  grind

/-- Moving up leaves the contents in place. -/
theorem Holds.up (holds : s.Holds P) : s.up.Holds P := by
  obtain ⟨current, _ | ⟨parent, rest⟩, finished⟩ := s
  · exact holds
  · simp only [Holds, Spine.up, List.cons_append, Node.holds_cons, Node.content_adopt, Node.children_adopt,
      Node.holds_append, Node.holds_nil] at holds ⊢
    grind

/-- A blank node has no content but a blank one. -/
theorem holds_start (blank : P {}) : start.Holds P := by
  simp only [Holds, start, Node.blank, List.nil_append, Node.holds_cons, Node.content_mk, Node.children_mk,
    Node.holds_nil, and_true]
  exact blank

/-- A new node below the current one is blank. -/
theorem Holds.below (blank : P {}) (holds : s.Holds P) : s.below.Holds P := by
  simp only [Holds, Spine.below, Node.blank, List.cons_append, Node.holds_cons, Node.content_mk, Node.children_mk,
    Node.holds_nil, true_and] at holds ⊢
  exact ⟨blank, holds⟩

/-- So is a new node beside it. -/
theorem Holds.beside (blank : P {}) (holds : s.Holds P) : s.beside.Holds P := by
  obtain ⟨current, _ | ⟨parent, rest⟩, finished⟩ := s
  all_goals
    simp only [Holds, Spine.beside, Node.blank, List.nil_append, List.cons_append, Node.holds_cons, Node.content_mk,
      Node.children_mk, Node.content_adopt, Node.children_adopt, Node.holds_append, Node.holds_nil] at holds ⊢
    grind

end Spine

/-- Items keep what blank contents have and what tokens and multipliers keep. -/
theorem Item.holds_applyAll {P : Content → Prop} (kept : Content.IsKept P) {items : List Item}
    (faithful : AreFaithful items) {s : Spine} (holds : s.Holds P) : (applyAll items s).Holds P := by
  induction items using Item.induction generalizing s with
  | nil => rwa [applyAll_nil]
  | descend rest ih =>
    rw [applyAll_cons, apply]
    exact ih ((areFaithful_cons ..).1 faithful).2 (holds.below kept.blank)
  | sibling rest ih =>
    rw [applyAll_cons, apply]
    exact ih ((areFaithful_cons ..).1 faithful).2 (holds.beside kept.blank)
  | climb rest ih =>
    rw [applyAll_cons, apply]
    exact ih ((areFaithful_cons ..).1 faithful).2 (holds.up.beside kept.blank)
  | token source start said rest ih =>
    obtain ⟨own, others⟩ := (areFaithful_cons ..).1 faithful
    rw [IsFaithful] at own
    obtain ⟨left, cut, -⟩ := Token.cut_of_read own
    rw [applyAll_cons, apply]
    refine ih others ?_
    obtain ⟨⟨c, kids⟩, ancestors, finished⟩ := s
    simp only [Spine.Holds, Node.holds_cons, Node.content_mk, Node.children_mk] at holds
    simp only [Spine.Holds, Spine.change, Node.withContent, Node.holds_cons, Node.content_mk, Node.children_mk]
    exact ⟨kept.assign (Multiplier.cut_isPositive cut) holds.1, holds.2⟩
  | group inside multiplier rest insideInduction ih =>
    obtain ⟨own, others⟩ := (areFaithful_cons ..).1 faithful
    rw [IsFaithful] at own
    have nodes := (insideInduction own.1 (Spine.holds_start kept.blank)).forest
    rw [applyAll_cons, apply]
    refine ih others ?_
    obtain ⟨⟨c, kids⟩, ancestors, finished⟩ := s
    simp only [Spine.Holds, Node.holds_cons, Node.content_mk, Node.children_mk, Node.holds_append] at holds
    simp only [Spine.Holds, Spine.change, Node.withContent, Node.holds_cons, Node.content_adopt, Node.children_adopt,
      Node.content_mk, Node.children_mk, Node.holds_append]
    exact ⟨kept.repeatBy own.2 holds.1, ⟨holds.2.1, nodes⟩, holds.2.2⟩

/-- Such a property holds of all contents of the tree of an abbreviation. -/
theorem holds_of_parseRaw {P : Content → Prop} (kept : Content.IsKept P) {t : Text} {root : Node}
    (accepted : parseRaw t = .ok root) : root.content = {} ∧ Node.Holds P root.children := by
  obtain ⟨ended, rfl⟩ := parseRaw_eq_ok_iff.1 accepted
  have start : Spine.start.Holds P := Spine.holds_start kept.blank
  exact ⟨rfl, (Item.holds_applyAll kept (readItems_areFaithful ended) start).forest⟩

end Shorthand
