import Shorthand.Optimize.Squash
import Shorthand.Proofs.PlainName
import Shorthand.Proofs.Reading.Frame
import Shorthand.Proofs.Reading.SingleToken

/-! # Outlines

An outline is a tree of plain names with counts. Every outline can be written as an abbreviation: a node is its name and
its count, and its children follow it below, each between parentheses. Read back and squashed, the abbreviation gives
the outline again.

* **`Outline`** — a tree of names with counts.
* **`Outline.writeAll`** — the abbreviation of a list of outlines.
* `Outline.readItems_writeAll` — how a written list is read.
* `Outline.squash_parseRaw_writeAll` — a written list is read back. -/

namespace Shorthand

/-- How often a node of an outline is to be repeated. -/
structure Count where
  /-- The number. -/
  value : Nat
  /-- It is one at least. -/
  positive : 1 ≤ value
  /-- It can be read back. -/
  short : (Text.ofNat value).length ≤ IntegerFault.digitLimit

/-- A tree of names with counts. -/
inductive Outline where
  /-- A name with its count and with what stands below it. -/
  | mk (name : PlainName) (count : Count) (children : List Outline)

/-- The list with a mark before it, if it has any items. -/
def introduced {α : Type} (mark : α) : List α → List α
  | [] => []
  | first :: rest => mark :: first :: rest

@[simp] theorem introduced_nil {α : Type} (mark : α) : introduced mark [] = [] := rfl

theorem introduced_of_ne_nil {α : Type} (mark : α) {items : List α} (nonempty : items ≠ []) :
    introduced mark items = mark :: items := by
  cases items with
  | nil => exact absurd rfl nonempty
  | cons first rest => rfl

theorem mem_introduced {α : Type} {mark x : α} {items : List α} (h : x ∈ introduced mark items) :
    x = mark ∨ x ∈ items := by
  cases items with
  | nil => cases h
  | cons first rest => exact List.mem_cons.1 h

namespace Outline

/-- Induction on a list of outlines and on what stands below them. -/
@[elab_as_elim] theorem induction {motive : List Outline → Prop} (nil : motive [])
    (cons : ∀ name count children rest,
      motive children → motive rest → motive (mk name count children :: rest)) :
    ∀ outlines, motive outlines
  | [] => nil
  | .mk name count children :: rest =>
    cons name count children rest (induction nil cons children) (induction nil cons rest)

/-- The name and the count of a node. -/
def head (name : PlainName) (count : Count) : Text := name.text ++ '*' :: Text.ofNat count.value

mutual
/-- The abbreviation of an outline. -/
def write : Outline → Text
  | mk name count children => head name count ++ introduced '>' (writeAll children)

/-- The abbreviation of a list of outlines, each in a group of its own. -/
def writeAll : List Outline → Text
  | [] => []
  | outline :: rest => (write outline).grouped ++ introduced '+' (writeAll rest)
end

mutual
/-- The node that an outline describes. -/
def node : Outline → Node
  | mk name count children => .mk (name.content count.value) (nodes children)

/-- The nodes that a list of outlines describes. -/
def nodes : List Outline → List Node
  | [] => []
  | outline :: rest => node outline :: nodes rest
end

mutual
/-- The number of levels of an outline. -/
def levels : Outline → Nat
  | mk _ _ children => levelsAll children + 1

/-- The greatest number of levels in a list of outlines. -/
def levelsAll : List Outline → Nat
  | [] => 0
  | outline :: rest => max (levels outline) (levelsAll rest)
end

mutual
/-- The greatest number of children of a node of an outline. -/
def width : Outline → Nat
  | mk _ _ children => max children.length (widthAll children)

/-- The greatest number of children of a node in a list of outlines. -/
def widthAll : List Outline → Nat
  | [] => 0
  | outline :: rest => max (width outline) (widthAll rest)
end

mutual
/-- The items of a written outline. -/
def items : Outline → List Item
  | mk name count children =>
    .token (head name count) 0 { name.token with multiplier := .ofInt count.value } ::
      introduced .descend (itemsAll children)

/-- The items of a written list of outlines. -/
def itemsAll : List Outline → List Item
  | [] => []
  | outline :: rest => .group (items outline) .absent :: introduced .sibling (itemsAll rest)
end

variable {outline : Outline} {outlines rest : List Outline}

@[simp] theorem writeAll_nil : writeAll [] = [] := by rw [writeAll]

@[simp] theorem itemsAll_nil : itemsAll [] = [] := by rw [itemsAll]

@[simp] theorem nodes_nil : nodes [] = [] := by rw [nodes]

/-- Only the empty list is written as nothing. -/
theorem writeAll_cons_ne_nil : writeAll (outline :: rest) ≠ [] := by
  rw [writeAll, Text.grouped_append]
  exact List.cons_ne_nil _ _

/-! ## The text -/

/-- The characters of the name and the count of a node are token characters. -/
theorem isTokenChar_of_mem_head {name : PlainName} {count : Count} {c : Char}
    (inside : c ∈ head name count) : isTokenChar c = true := by
  rcases List.mem_append.1 inside with inName | inCount
  · exact name.isTokenChar_of_mem inName
  · exact Text.isTokenChar_of_mem_star Text.isDigit_of_mem_ofNat c inCount

/-- There is no white space in a written list. -/
theorem isBlank_of_mem_writeAll (outlines : List Outline) :
    ∀ c ∈ writeAll outlines, Text.isBlank c = false := by
  induction outlines using induction with
  | nil => simp
  | cons name count children rest childrenInduction restInduction =>
    intro c inside
    rw [writeAll, write, Text.grouped] at inside
    simp only [List.cons_append, List.nil_append, List.append_assoc, List.mem_cons,
      List.mem_append] at inside
    rcases inside with rfl | inHead | inChildren | rfl | inRest
    · decide
    · exact isBlank_of_isTokenChar (isTokenChar_of_mem_head inHead)
    · rcases mem_introduced inChildren with rfl | inChildren
      · decide
      · exact childrenInduction c inChildren
    · decide
    · rcases mem_introduced inRest with rfl | inRest
      · decide
      · exact restInduction c inRest

/-- There is no white space in a written outline. -/
theorem isBlank_of_mem_write (outline : Outline) : ∀ c ∈ write outline, Text.isBlank c = false := by
  intro c inside
  refine isBlank_of_mem_writeAll [outline] c ?_
  rw [writeAll, Text.grouped]
  exact List.mem_append_left _ (List.mem_cons_of_mem _ (List.mem_append_left _ inside))

/-- A mark before a list keeps it balanced. -/
theorem isBalanced_introduced {mark : Char} (plain : mark ≠ '(' ∧ mark ≠ ')') {t : Text}
    (balanced : Delimiter.round.IsBalanced t) : Delimiter.round.IsBalanced (introduced mark t) := by
  cases t with
  | nil => rfl
  | cons c t =>
    have alone : Delimiter.round.IsBalanced [mark] := by
      refine Delimiter.isBalanced_of_forall_ne fun e inside => ?_
      rw [List.mem_singleton.1 inside]
      exact plain
    exact alone.append balanced

/-- The parentheses of a written outline are balanced if those of its children are. -/
theorem isBalanced_write {name : PlainName} {count : Count} {children : List Outline}
    (balanced : Delimiter.round.IsBalanced (writeAll children)) :
    Delimiter.round.IsBalanced (write (mk name count children)) := by
  have plain : Delimiter.round.IsBalanced (head name count) := by
    refine Delimiter.isBalanced_of_forall_ne fun c inside => ?_
    have token := isTokenChar_of_mem_head inside
    constructor <;> rintro rfl <;> revert token <;> decide
  rw [write]
  exact plain.append (isBalanced_introduced (by decide) balanced)

/-- The parentheses of a written list are balanced. -/
theorem isBalanced_writeAll (outlines : List Outline) :
    Delimiter.round.IsBalanced (writeAll outlines) := by
  induction outlines using induction with
  | nil => rw [writeAll_nil]; rfl
  | cons name count children rest childrenInduction restInduction =>
    rw [writeAll]
    exact (isBalanced_write childrenInduction).delimited.append
      (isBalanced_introduced (by decide) restInduction)

/-! ## Reading -/

variable {groups steps size : Nat}

/-- What follows a name goes below it. -/
theorem readItems_introduced_descend
    (read : readItems groups steps size (writeAll outlines) = ⟨itemsAll outlines, none⟩) :
    readItems groups (steps + 1) size (introduced '>' (writeAll outlines)) =
      ⟨introduced .descend (itemsAll outlines), none⟩ := by
  cases outlines with
  | nil => simp [Reading.done]
  | cons outline rest =>
    rw [introduced_of_ne_nil _ writeAll_cons_ne_nil, readItems_descend, read, itemsAll]
    rfl

/-- What follows a group goes beside it. -/
theorem readItems_introduced_sibling
    (read : ∀ steps, 2 * outlines.length ≤ steps + 1 →
      readItems groups steps size (writeAll outlines) = ⟨itemsAll outlines, none⟩)
    (enough : 2 * outlines.length ≤ steps) :
    readItems groups steps size (introduced '+' (writeAll outlines)) =
      ⟨introduced .sibling (itemsAll outlines), none⟩ := by
  cases outlines with
  | nil => simp [Reading.done]
  | cons outline rest =>
    obtain ⟨fewer, rfl⟩ : ∃ fewer, steps = fewer + 1 :=
      Nat.exists_eq_add_one.2 (by rw [List.length_cons] at enough; omega)
    rw [introduced_of_ne_nil _ writeAll_cons_ne_nil, readItems_sibling, read fewer enough, itemsAll]
    rfl

/-- A written outline is read as a level of its own if its written children are read. -/
theorem readLevel_write {name : PlainName} {count : Count} {children : List Outline}
    (read : ∀ size, readItems groups 997 size (writeAll children) = ⟨itemsAll children, none⟩) :
    readLevel groups (write (mk name count children)) = ⟨items (mk name count children), none⟩ := by
  have nonempty : head name count ≠ [] := List.append_ne_nil_of_left_ne_nil name.ne_nil _
  have said := name.read_times Text.isDigit_of_mem_ofNat (Text.ofNat_ne_nil _) count.short
  rw [Text.numberOf_ofNat] at said
  have trimmed := Text.trim_eq_self_of_forall (isBlank_of_mem_write (mk name count children))
  have ended : tokenRun (write (mk name count children)).length (introduced '>' (writeAll children)) =
      .ok ([], introduced '>' (writeAll children)) := by
    cases children with
    | nil => simp
    | cons outline rest =>
      rw [introduced_of_ne_nil _ writeAll_cons_ne_nil, tokenRun_of_stop (.inl rfl)]
  rw [readLevel, trimmed]
  show readItems groups (998 + 1) _ _ = _
  rw [write] at ended ⊢
  rw [readItems_token_append (fun c => isTokenChar_of_mem_head) nonempty ended said]
  show Reading.after _ (readItems groups (997 + 1) _ _) = _
  rw [readItems_introduced_descend (read _), items, Nat.sub_self]
  rfl

/-- A written list is read item by item, if it has no more levels than groups may be nested and no more outlines beside
each other than there are steps for. -/
theorem readItems_writeAll (outlines : List Outline) :
    ∀ groups steps size, levelsAll outlines ≤ groups → widthAll outlines ≤ 499 →
      2 * outlines.length ≤ steps + 1 →
        readItems groups steps size (writeAll outlines) = ⟨itemsAll outlines, none⟩ := by
  induction outlines using induction with
  | nil => simp [Reading.done]
  | cons name count children rest childrenInduction restInduction =>
    intro groups steps size low narrow enough
    rw [levelsAll, levels, Nat.max_le] at low
    rw [widthAll, width, Nat.max_le, Nat.max_le] at narrow
    rw [List.length_cons] at enough
    obtain ⟨below, rfl⟩ : ∃ below, groups = below + 1 := Nat.exists_eq_add_one.2 (by omega)
    obtain ⟨fewer, rfl⟩ : ∃ fewer, steps = fewer + 1 := Nat.exists_eq_add_one.2 (by omega)
    have inside : readLevel below (write (mk name count children)) =
        ⟨items (mk name count children), none⟩ :=
      readLevel_write fun size => childrenInduction below 997 size (by omega) (by omega) (by omega)
    have others : readItems (below + 1) fewer size (introduced '+' (writeAll rest)) =
        ⟨introduced .sibling (itemsAll rest), none⟩ :=
      readItems_introduced_sibling
        (fun steps => restInduction (below + 1) steps size low.2 narrow.2) (by omega)
    have unmarked : (introduced '+' (writeAll rest)).head? ≠ some '*' := by
      cases rest with
      | nil => simp
      | cons outline rest => rw [introduced_of_ne_nil _ writeAll_cons_ne_nil]; simp
    rw [writeAll, readItems_group (isBalanced_write (isBalanced_writeAll children)) (by rw [inside])
      (Multiplier.read_of_head_ne unmarked), others, inside, itemsAll]
    rfl

/-! ## Building -/

/-- Nothing climbs in a written list. -/
theorem climb_not_mem_itemsAll (outlines : List Outline) : Item.climb ∉ itemsAll outlines := by
  induction outlines with
  | nil => simp
  | cons outline rest ih =>
    rw [itemsAll]
    intro inside
    rcases List.mem_cons.1 inside with same | inside
    · cases same
    · rcases mem_introduced inside with same | inside
      · cases same
      · exact ih inside

/-- The current node of a level on which nothing was read is squashed away. -/
theorem squashAll_build_nil : Node.squashAll (Item.build []) = [] := by
  simp [Node.blank, Content.isGroup]

/-- What was read after a group is squashed on its own. -/
theorem squashAll_build_group (inside rest : List Item) :
    Node.squashAll (Item.build (.group inside .absent :: introduced .sibling rest)) =
      Node.squashAll (Item.build inside) ++ Node.squashAll (Item.build rest) := by
  have blank : Content.isGroup {} = true := rfl
  cases rest with
  | nil =>
    simp only [introduced_nil, Item.build_group, Content.repeatBy_absent, Node.squashAll_cons, blank,
      if_true, Node.squashAll_nil, squashAll_build_nil]
  | cons item rest =>
    simp only [introduced, Item.build_group_sibling, Content.repeatBy_absent, Node.squashAll_cons, blank,
      if_true]

/-- What was read after a token is squashed below its node. -/
theorem squashAll_build_token (source : Text) (start : Nat) {said : Token}
    (named : (({} : Content).assign said).isGroup = false) {rest : List Item} (stays : .climb ∉ rest) :
    Node.squashAll (Item.build (.token source start said :: introduced .descend rest)) =
      [.mk (({} : Content).assign said) (Node.squashAll (Item.build rest))] := by
  cases rest with
  | nil =>
    simp only [introduced_nil, Item.build_token, Node.squashAll_cons, named, Node.squashAll_nil,
      squashAll_build_nil]
    rfl
  | cons item rest =>
    simp only [introduced, Item.build_token_descend _ _ _ stays, Node.squashAll_cons, named,
      Node.squashAll_nil]
    rfl

/-- The nodes of a written list are squashed to the nodes that the list describes. -/
theorem squashAll_build_itemsAll (outlines : List Outline) :
    Node.squashAll (Item.build (itemsAll outlines)) = nodes outlines := by
  induction outlines using induction with
  | nil => rw [itemsAll_nil, squashAll_build_nil, nodes_nil]
  | cons name count children rest childrenInduction restInduction =>
    have assigned := name.assign_times count.positive
    have stays := climb_not_mem_itemsAll children
    rw [itemsAll, squashAll_build_group, restInduction, items,
      squashAll_build_token _ _ (by rw [assigned, name.isGroup_content]) stays, assigned,
      childrenInduction, nodes, node]
    rfl

/-- A list of outlines with at most 100 levels and with at most 499 outlines beside each other is read back. -/
theorem squash_parseRaw_writeAll (outlines : List Outline) (low : levelsAll outlines ≤ 100)
    (narrow : outlines.length ≤ 499 ∧ widthAll outlines ≤ 499) :
    (parseRaw (writeAll outlines)).map Node.squash = .ok (.mk {} (nodes outlines)) := by
  have trimmed := Text.trim_eq_self_of_forall (isBlank_of_mem_writeAll outlines)
  have reading : readAbbreviation (writeAll outlines) = ⟨itemsAll outlines, none⟩ := by
    rw [readAbbreviation_of_trimmed trimmed]
    exact readItems_writeAll outlines groupLimit 999 _ low narrow.2 (by omega)
  rw [parseRaw, reading]
  simp only [Except.map, Reading.tree, Node.squash_mk, squashAll_build_itemsAll]

/-- A menu whose last entry has a menu of its own, and a paragraph after it. -/
def menu : List Outline :=
  let ul : PlainName := .ofAll "ul".toList (by decide) (by decide)
  let li : PlainName := .ofAll "li".toList (by decide) (by decide)
  let p : PlainName := .ofAll "p".toList (by decide) (by decide)
  let once : Count := ⟨1, by decide, by decide⟩
  let twice : Count := ⟨2, by decide, by decide⟩
  let often : Count := ⟨10, by decide, by decide⟩
  [.mk ul once [.mk li twice [], .mk li once [.mk ul once [.mk li often []]]], .mk p once []]

/-- The menu is written and read back. -/
theorem squash_parseRaw_writeAll_menu :
    writeAll menu = "(ul*1>(li*2)+(li*1>(ul*1>(li*10))))+(p*1)".toList ∧
      levelsAll menu ≤ 100 ∧ menu.length ≤ 499 ∧ widthAll menu ≤ 499 ∧
      (parseRaw "(ul*1>(li*2)+(li*1>(ul*1>(li*10))))+(p*1)".toList).map Node.squash =
        .ok (.mk {} (nodes menu)) := by
  have written : writeAll menu = "(ul*1>(li*2)+(li*1>(ul*1>(li*10))))+(p*1)".toList := by decide
  have low : levelsAll menu ≤ 100 := by decide
  have narrow : menu.length ≤ 499 ∧ widthAll menu ≤ 499 := by decide
  refine ⟨written, low, narrow.1, narrow.2, ?_⟩
  rw [← written]
  exact squash_parseRaw_writeAll menu low narrow

end Outline

end Shorthand
