import Mathlib
import Shorthand.Reading.Spine
import Shorthand.Proofs.Reading.Scan

/-! # Reading an abbreviation without a tree

The items of an abbreviation can be read as a list of *entries*: one for each node, in pre-order, with the depth at
which the node stands. No tree is built for that, and nothing is linked to a parent: an operator appends a blank
entry whose depth follows from the depth of the current entry, and a group appends the entries of its inside.

* **`FlatReading`** — the entries read so far, one of them current.
* **`FlatReading.ofItems`** — the entries that a list of items describes.
* `Spine.flat_applyAll` — building the tree along its right edge and reading flat keep in step.
* `parseRaw_preorder` — the tree of an abbreviation lists its nodes as the flat reading does. -/

namespace Shorthand

/-- What a flat reading tells of a node: how deep it stands, its abbreviation, and how it is repeated. -/
structure Entry where
  /-- The depth of the node; the nodes at the top have depth one. -/
  depth : Nat
  /-- The token of the node without its multiplier. -/
  abbreviation : Text := []
  /-- How often the node is to be repeated. -/
  repeatCount : Int := 1
  /-- Whether a star without a number was given. -/
  implicitRepeat : Bool := false
  deriving DecidableEq, Repr

namespace Entry

/-- The entry of a content at a depth. -/
def ofContent (depth : Nat) (c : Content) : Entry :=
  ⟨depth, c.abbreviation, c.repeatCount, c.implicitRepeat⟩

/-- The entries of a list of nodes and of everything below them, in pre-order. -/
def ofNodes (depth : Nat) (nodes : List Node) : List Entry :=
  (Node.levelsAll depth nodes).map fun found => ofContent found.1 found.2.content

/-- Apply a multiplier: a number sets the count, which is one at least, and a bare star sets the flag alone. -/
def repeatBy (e : Entry) : Multiplier → Entry
  | .absent => e
  | .bare => { e with implicitRepeat := true }
  | .times n => { e with repeatCount := max 1 n }

/-- Take over a token: its multiplier is applied, and the rest of it is the abbreviation. -/
def assign (source : Text) (e : Entry) : Entry :=
  match Multiplier.cut source with
  | .error _ => e
  | .ok (rest, multiplier) => { e.repeatBy multiplier with abbreviation := rest }

/-- The entry with its depth increased. -/
def deeper (levels : Nat) (e : Entry) : Entry := { e with depth := e.depth + levels }

@[simp] theorem ofNodes_nil (depth : Nat) : ofNodes depth [] = [] := by
  rw [ofNodes, Node.levelsAll_nil, List.map_nil]

@[simp] theorem ofNodes_append (depth : Nat) (before after : List Node) :
    ofNodes depth (before ++ after) = ofNodes depth before ++ ofNodes depth after := by
  rw [ofNodes, Node.levelsAll_append, List.map_append, ofNodes, ofNodes]

/-- A node is entered before what is below it. -/
theorem ofNodes_cons (depth : Nat) (n : Node) (rest : List Node) :
    ofNodes depth (n :: rest) =
      ofContent depth n.content :: (ofNodes (depth + 1) n.children ++ ofNodes depth rest) := by
  obtain ⟨c, kids⟩ := n
  simp only [ofNodes, Node.levelsAll_cons, Node.levels_mk, List.cons_append, List.map_cons,
    List.map_append, Node.content_mk, Node.children_mk]

/-- Nodes that are put further down have deeper entries. -/
theorem map_deeper_ofNodes (levels depth : Nat) (nodes : List Node) :
    (ofNodes depth nodes).map (deeper levels) = ofNodes (depth + levels) nodes := by
  induction nodes using Node.induction generalizing depth with
  | nil => rw [ofNodes_nil, ofNodes_nil, List.map_nil]
  | cons c kids rest kidsInduction restInduction =>
    rw [ofNodes_cons, ofNodes_cons, List.map_cons, List.map_append, Node.content_mk,
      Node.children_mk, kidsInduction, restInduction, Nat.add_right_comm]
    rfl

/-- Applying a positive multiplier to a content shows in its entry. -/
theorem ofContent_repeatBy (depth : Nat) (c : Content) {m : Multiplier} (positive : m.IsPositive) :
    ofContent depth (c.repeatBy m) = (ofContent depth c).repeatBy m := by
  cases m with
  | absent => rfl
  | bare => rfl
  | times n =>
    -- the reading has raised the number to one already
    have count : max 1 n = n := Int.max_eq_right positive
    simp only [Content.repeatBy_times, repeatBy, ofContent, count]

/-- Assigning a token that says what its text says shows in the entry. -/
theorem ofContent_assign (depth : Nat) (c : Content) {source : Text} {said : Token}
    (read : Token.read source = (said, none)) :
    ofContent depth (c.assign said) = (ofContent depth c).assign source := by
  obtain ⟨rest, cut, kept⟩ := Token.cut_of_read read
  have whole : ofContent depth (c.assign said) =
      { ofContent depth (c.repeatBy said.multiplier) with abbreviation := rest } := by
    simp only [ofContent, Content.assign, kept, Option.getD_some]
  rw [whole, ofContent_repeatBy depth c (Multiplier.cut_isPositive cut), assign, cut]

end Entry

/-! ## The flat reading -/

/-- The entries that were read so far. One of them is current: tokens, groups and multipliers belong to it. -/
structure FlatReading where
  /-- The entries before the current one. -/
  before : List Entry
  /-- The current entry. -/
  current : Entry
  /-- The entries after the current one. -/
  after : List Entry

namespace FlatReading

/-- The reading begins with one blank entry at depth one. -/
def start : FlatReading := ⟨[], { depth := 1 }, []⟩

/-- All entries in order. -/
def entries (r : FlatReading) : List Entry := r.before ++ r.current :: r.after

/-- Append a blank entry at a depth, which becomes the current one. -/
def begin (depth : Nat) (r : FlatReading) : FlatReading := ⟨r.entries, { depth }, []⟩

/-- Change the current entry. -/
def change (f : Entry → Entry) (r : FlatReading) : FlatReading := { r with current := f r.current }

/-- Append entries; the current one stays current. -/
def append (more : List Entry) (r : FlatReading) : FlatReading := { r with after := r.after ++ more }

mutual
/-- Read an item flat. -/
def read : Item → FlatReading → FlatReading
  | .descend, r => r.begin (r.current.depth + 1)
  | .sibling, r => r.begin r.current.depth
  | .climb, r => r.begin (max 1 (r.current.depth - 1))
  | .token source _ _, r => r.change (Entry.assign source)
  | .group inside multiplier, r =>
    (r.change (·.repeatBy multiplier)).append
      ((readAll inside start).entries.map (Entry.deeper r.current.depth))

/-- Read a list of items flat, from left to right. -/
def readAll : List Item → FlatReading → FlatReading
  | [], r => r
  | item :: rest, r => readAll rest (read item r)
end

/-- The entries that a list of items describes. -/
def ofItems (items : List Item) : List Entry := (readAll items start).entries

@[simp] theorem readAll_nil (r : FlatReading) : readAll [] r = r := by rw [readAll]

@[simp] theorem readAll_cons (item : Item) (rest : List Item) (r : FlatReading) :
    readAll (item :: rest) r = readAll rest (read item r) := by rw [readAll]

end FlatReading

/-! ## In step with the tree -/

namespace Spine

open Entry

/-- The entries of the ancestors of the current node and of their finished children, the nearest ancestor
last. -/
def entriesAbove : List Node → List Entry
  | [] => []
  | parent :: rest =>
    entriesAbove rest ++
      (ofContent (rest.length + 1) parent.content :: ofNodes (rest.length + 2) parent.children)

/-- What was read flat when the tree has come to this state: the current node is met after its ancestors and all
that is finished, and only what is below it is met later. -/
def flat (s : Spine) : FlatReading where
  before := ofNodes 1 s.finished ++ entriesAbove s.ancestors
  current := ofContent (s.ancestors.length + 1) s.current.content
  after := ofNodes (s.ancestors.length + 2) s.current.children

/-- Closing a node into its ancestors puts its entries after theirs. -/
theorem ofNodes_close (n : Node) (ancestors : List Node) :
    ofNodes 1 [close n ancestors] =
      entriesAbove ancestors ++ ofNodes (ancestors.length + 1) [n] := by
  induction ancestors generalizing n with
  | nil => rfl
  | cons parent rest ih =>
    -- the parent is entered first, then its finished children, and the node is the last of them
    obtain ⟨c, kids⟩ := parent
    rw [close_cons, ih, ofNodes_cons]
    simp only [Node.adopt, Node.withChildren, Node.content_mk, Node.children_mk, entriesAbove,
      ofNodes_append, ofNodes_nil, List.append_nil, List.append_assoc, List.cons_append,
      List.length_cons]

/-- The entries of a state of the tree are those of its nodes. -/
theorem entries_flat (s : Spine) : s.flat.entries = ofNodes 1 s.forest := by
  rw [forest, ofNodes_append, ofNodes_close, ofNodes_cons, ofNodes_nil, List.append_nil,
    ← List.append_assoc]
  rfl

/-- The depth of the current entry counts the ancestors of the current node. -/
theorem depth_flat (s : Spine) : s.flat.current.depth = s.ancestors.length + 1 := rfl

/-- Beginning a node below the current one appends an entry one level deeper. -/
theorem flat_below (s : Spine) : s.below.flat = s.flat.begin (s.flat.current.depth + 1) := by
  rw [depth_flat, FlatReading.begin]
  simp only [below, flat, entriesAbove, FlatReading.entries, Node.blank, Node.content_mk,
    Node.children_mk, ofNodes_nil, List.append_assoc, List.length_cons]
  rfl

/-- Beginning a node beside the current one appends an entry at the same depth. -/
theorem flat_beside (s : Spine) : s.beside.flat = s.flat.begin s.flat.current.depth := by
  obtain ⟨current, ancestors, finished⟩ := s
  cases ancestors with
  | nil =>
    -- at the top the current tree is finished
    simp only [beside, flat, FlatReading.begin, FlatReading.entries, entriesAbove, ofNodes_append,
      ofNodes_cons, Node.blank, Node.content_mk, Node.children_mk, ofNodes_nil, List.append_nil,
      List.length_nil]
    rfl
  | cons parent rest =>
    -- further down it is the last child of the parent
    obtain ⟨c, kids⟩ := parent
    simp only [beside, flat, FlatReading.begin, FlatReading.entries, entriesAbove, ofNodes_append,
      ofNodes_cons, Node.adopt, Node.withChildren, Node.blank, Node.content_mk, Node.children_mk,
      ofNodes_nil, List.append_nil, List.append_assoc, List.cons_append, List.length_cons]
    rfl

/-- Climbing goes up one level, but not beyond the top. -/
theorem depth_flat_up (s : Spine) :
    s.up.flat.current.depth = max 1 (s.flat.current.depth - 1) := by
  rw [depth_flat, depth_flat]
  obtain ⟨current, ancestors, finished⟩ := s
  cases ancestors with
  | nil => rfl
  | cons parent rest =>
    simp only [up, List.length_cons]
    omega

/-- Beginning a node beside the parent of the current one appends an entry one level up. -/
theorem flat_up_beside (s : Spine) :
    s.up.beside.flat = s.flat.begin (max 1 (s.flat.current.depth - 1)) := by
  -- going up changes which entry is current, but not what has been read
  rw [flat_beside, depth_flat_up, FlatReading.begin, FlatReading.begin, entries_flat, entries_flat,
    forest_up]

/-- A change of the current content that shows in its entry changes the current entry. -/
theorem flat_change_withContent (s : Spine) {f : Content → Content} {g : Entry → Entry}
    (shows : ∀ depth c, ofContent depth (f c) = g (ofContent depth c)) :
    (s.change (Node.withContent f)).flat = s.flat.change g := by
  obtain ⟨⟨c, kids⟩, ancestors, finished⟩ := s
  have current := shows (ancestors.length + 1) c
  simp only [change, flat, FlatReading.change, Node.withContent, Node.content_mk,
    Node.children_mk, current]

/-- Children that are given to the current node are entered last, below it. -/
theorem flat_change_adopt (s : Spine) (kids : List Node) :
    (s.change (·.adopt kids)).flat =
      s.flat.append ((ofNodes 1 kids).map (deeper s.flat.current.depth)) := by
  obtain ⟨⟨c, own⟩, ancestors, finished⟩ := s
  rw [map_deeper_ofNodes, depth_flat, FlatReading.append]
  simp only [change, flat, Node.adopt, Node.withChildren, Node.content_mk, Node.children_mk,
    ofNodes_append, Nat.add_comm 1]

/-- A group gives its multiplier to the current entry and appends the entries of its inside. -/
theorem flat_apply_group (s : Spine) (inside : List Item) {multiplier : Multiplier}
    (positive : multiplier.IsPositive) :
    (Item.apply (.group inside multiplier) s).flat =
      (s.flat.change (·.repeatBy multiplier)).append
        ((ofNodes 1 (Item.build inside)).map (deeper s.flat.current.depth)) := by
  -- the multiplier goes to the current node first, and this moves nothing
  have parts : Item.apply (.group inside multiplier) s =
      (s.change (Node.withContent (·.repeatBy multiplier))).change
        (·.adopt (Item.build inside)) := by
    rw [Item.apply]
    rfl
  have depth : (s.change (Node.withContent (·.repeatBy multiplier))).flat.current.depth =
      s.flat.current.depth := rfl
  have repeated : (s.change (Node.withContent (·.repeatBy multiplier))).flat =
      s.flat.change (·.repeatBy multiplier) :=
    flat_change_withContent s fun depth c => ofContent_repeatBy depth c positive
  rw [parts, flat_change_adopt, depth, repeated]

/-- Building the tree and reading flat keep in step, from any state and through any faithful items. -/
theorem flat_applyAll {items : List Item} (faithful : Item.AreFaithful items) (s : Spine) :
    (Item.applyAll items s).flat = FlatReading.readAll items s.flat := by
  -- the induction goes into groups, which are built and read from the start
  induction items using Item.induction generalizing s with
  | nil => rw [Item.applyAll_nil, FlatReading.readAll_nil]
  | descend rest ih =>
    rw [Item.applyAll_cons, ih (Item.areFaithful_cons .. |>.1 faithful).2,
      FlatReading.readAll_cons, Item.apply, FlatReading.read, flat_below]
  | sibling rest ih =>
    rw [Item.applyAll_cons, ih (Item.areFaithful_cons .. |>.1 faithful).2,
      FlatReading.readAll_cons, Item.apply, FlatReading.read, flat_beside]
  | climb rest ih =>
    rw [Item.applyAll_cons, ih (Item.areFaithful_cons .. |>.1 faithful).2,
      FlatReading.readAll_cons, Item.apply, FlatReading.read, flat_up_beside]
  | token source start said rest ih =>
    obtain ⟨read, others⟩ := (Item.areFaithful_cons ..).1 faithful
    rw [Item.IsFaithful] at read
    rw [Item.applyAll_cons, ih others, FlatReading.readAll_cons, Item.apply, FlatReading.read,
      flat_change_withContent s fun depth c => ofContent_assign depth c read]
  | group inside multiplier rest insideInduction ih =>
    obtain ⟨own, others⟩ := (Item.areFaithful_cons ..).1 faithful
    rw [Item.IsFaithful] at own
    have insideEntries : ofNodes 1 (Item.build inside) = FlatReading.ofItems inside := by
      rw [Item.build, ← entries_flat, insideInduction own.1 .start]
      rfl
    rw [Item.applyAll_cons, ih others, FlatReading.readAll_cons, flat_apply_group s inside own.2,
      insideEntries, FlatReading.read, FlatReading.ofItems]

end Spine

/-- Faithful items describe the same entries with and without a tree. -/
theorem Entry.ofNodes_build {items : List Item} (faithful : Item.AreFaithful items) :
    ofNodes 1 (Item.build items) = FlatReading.ofItems items := by
  rw [Item.build, ← Spine.entries_flat, Spine.flat_applyAll faithful]
  rfl

/-- The nodes of an abbreviation, in pre-order and with their depths, abbreviations and repetitions, are those
that one flat reading of its items lists. -/
theorem parseRaw_preorder {t : Text} {root : Node} (accepted : parseRaw t = .ok root) :
    Entry.ofNodes 1 root.children = FlatReading.ofItems (readAbbreviation t).items := by
  obtain ⟨ended, rfl⟩ := parseRaw_eq_ok_iff.1 accepted
  exact Entry.ofNodes_build (readItems_areFaithful ended)

/-- A group below a node, with counts of three and of nothing, and a bare star after a climb. -/
theorem parseRaw_preorder_nested :
    ∃ root, parseRaw "a>(b+c*0)*3^d*".toList = .ok root ∧
      Entry.ofNodes 1 root.children =
        [⟨1, ['a'], 1, false⟩, ⟨2, [], 3, false⟩, ⟨3, ['b'], 1, false⟩, ⟨3, ['c'], 1, false⟩,
          ⟨1, ['d'], 1, true⟩] := by
  have ended : (readAbbreviation "a>(b+c*0)*3^d*".toList).fault = none := by cbv
  have accepted := parseRaw_eq_ok_iff.2 ⟨ended, rfl⟩
  refine ⟨_, accepted, ?_⟩
  rw [parseRaw_preorder accepted]
  cbv

end Shorthand
