import Shorthand.Proofs.Forest.Parse
import Shorthand.Proofs.Reading.PlainNames

/-! # The lines of an outline

The outline of a parsed tree has an entry for each node below the root, in pre-order: the description of the node,
indented by its depth. The entries are joined by line feeds. A text or an attribute value may hold line feeds itself,
and each of them begins another line in the outline; nothing else does.

* **`Forest.depth`** — how many nodes stand above a node and below a root.
* **`Forest.entry`** — what an outline shows for a node.
* `Forest.Bears.outline` — the outline of a tree is made up of the entries of its nodes.
* `Forest.outline_lines` — the lines in the outline of a parsed tree. -/

namespace Shorthand

namespace Forest

variable {f final : Forest} {root parent : NodeId} {g : Grove NodeId}

/-- How many nodes are met on the way up from a node to a root, up to the given number of levels. -/
def depthWithin (f : Forest) (root : NodeId) : Nat → NodeId → Nat
  | 0, _ => 0
  | levels + 1, id =>
    match f.parent? id with
    | none => 0
    | some parent => if parent = root then 0 else depthWithin f root levels parent + 1

/-- How many nodes stand above a node and below a root. -/
def depth (f : Forest) (root id : NodeId) : Nat := f.depthWithin root f.size id

/-- What an outline shows for a node: its description, indented by its depth. -/
def entry (f : Forest) (indent : Int) (root id : NodeId) : Text :=
  List.replicate (indent * f.depth root id).toNat ' ' ++ f.describe id

/-- Some child of a node is a numbered copy. -/
def hasCopies (f : Forest) (id : NodeId) : Bool := (f.children id).any fun s => (f.content s).counter ≠ 1

/-! ## The entries of a tree -/

/-- A node that is linked to a parent is described with regard to the children of the parent. -/
theorem describe_of_linked {id : NodeId} (linked : f.parent? id = some parent) :
    f.describe id = (f.content id).describe (f.hasCopies parent) := by
  rw [describe, linked]
  rfl

/-- The roots of a grove have the numbers that their contents have. -/
theorem hasCopies_nodes {id : NodeId} (lists : f.children id = g.roots) :
    Node.hasCopies (g.map f.content).nodes = f.hasCopies id := by
  have heads : ∀ g : Grove NodeId, Node.hasCopies (g.map f.content).nodes =
      g.roots.any fun s => (f.content s).counter ≠ 1 := by
    intro g
    induction g with
    | nil => rfl
    | cons id below rest _ ih =>
      rw [Grove.map_cons, Grove.nodes_cons, Grove.roots_cons, List.any_cons, ← ih]
      rfl
  rw [heads, hasCopies, lists]

/-- The depth of a node is read off its parent. -/
theorem depthWithin_of_linked {id : NodeId} (linked : f.parent? id = some parent) (levels : Nat) :
    f.depthWithin root (levels + 1) id = if parent = root then 0 else f.depthWithin root levels parent + 1 := by
  rw [depthWithin, linked]

/-- The lines of a standing grove are the entries of its nodes, if the depth of its roots is known. -/
theorem Stands.linesAll {indent : Int} {d : Nat} (stands : f.Stands parent g) (other : root ∉ g.labels)
    (deep : ∀ x, f.parent? x = some parent → ∀ levels, d < levels → f.depthWithin root levels x = d)
    (room : d + g.height ≤ f.size) :
    Node.linesAll indent d (f.hasCopies parent) (g.map f.content).nodes = g.labels.map (f.entry indent root) := by
  induction g generalizing parent d with
  | nil => rfl
  | cons id below rest belowInduction ih =>
    obtain ⟨-, linked, lists, belowStands, restStands⟩ := stands
    simp only [Grove.labels_cons, List.mem_cons, List.mem_append, not_or] at other
    rw [Grove.height_cons] at room
    have here : f.depth root id = d := deep id linked f.size (by omega)
    -- below the node the depth is one more, for the node is not the root
    have deeper : ∀ x, f.parent? x = some id → ∀ levels, d + 1 < levels → f.depthWithin root levels x = d + 1 := by
      intro x below levels enough
      obtain ⟨fewer, rfl⟩ := Nat.exists_eq_add_of_le' (Nat.one_le_of_lt enough)
      rw [depthWithin_of_linked below, if_neg (Ne.symm other.1), deep id linked fewer (by omega)]
    have kids := belowInduction belowStands other.2.1 deeper (by omega)
    have others := ih restStands other.2.2 deep (by omega)
    rw [Grove.map_cons, Grove.nodes_cons, Node.linesAll, Node.lines, hasCopies_nodes lists, kids, others,
      Grove.labels_cons, List.map_cons, List.map_append, entry, here, describe_of_linked linked, List.cons_append]

/-- The outline of a tree is made up of the entries of its nodes in pre-order. -/
theorem Bears.outline (bears : f.Bears root g) (indent : Int) :
    (f.read root).outline indent = Text.joined ['\n'] ((f.descendants root).map (f.entry indent root)) := by
  have atTop : ∀ x, f.parent? x = some root → ∀ levels, 0 < levels → f.depthWithin root levels x = 0 := by
    intro x linked levels some
    obtain ⟨fewer, rfl⟩ := Nat.exists_eq_add_of_le' some
    rw [depthWithin_of_linked linked, if_pos rfl]
  have room : 0 + g.height ≤ f.size := by
    rw [Nat.zero_add]
    exact bears.height_lt_size.le
  rw [Node.outline, bears.read, Node.children_mk, hasCopies_nodes bears.lists, bears.descendants,
    bears.stands.linesAll bears.not_mem atTop room]

/-! ## The lines -/

/-- The line feeds of an entry are those of the text and of the attribute values of the node. -/
theorem count_entry {id : NodeId} (plain : (f.content id).HasPlainNames) (indent : Int) :
    (f.entry indent root id).count '\n' = (f.content id).lineFeeds := by
  have spaces : (List.replicate (indent * f.depth root id).toNat ' ').count '\n' = 0 := by
    rw [List.count_replicate, if_neg (by decide)]
  rw [entry, List.count_append, spaces, Nat.zero_add, describe]
  exact Content.count_describe plain _

/-- The root of a parsed tree bears a grove. -/
theorem exists_bears_of_parse {t : Text} (returned : f.parse t = .ok (root, final)) : ∃ g, final.Bears root g := by
  rw [parse] at returned
  cases built : f.parseRaw t with
  | error fault =>
    rw [built] at returned
    cases returned
  | ok result =>
    rw [built] at returned
    obtain ⟨last, optimized, same⟩ := exists_of_map_eq_ok returned
    obtain ⟨rfl, rfl⟩ := Prod.mk.inj same
    obtain ⟨-, final', stages⟩ := parseRaw_stages built
    rw [stages.optimize_eq] at optimized
    split at optimized
    · cases optimized
      exact wellFormed_iff_exists_bears.1 stages.isTree.formed
    · cases optimized

/-- The tree of values is parsed to what is read below the root of a parsed tree. -/
theorem parse_eq_ok {t : Text} (returned : f.parse t = .ok (root, final)) :
    Shorthand.parse t = .ok (final.read root) := by
  have value := parse_eq f t
  rw [returned] at value
  cases parsed : Shorthand.parse t with
  | error fault =>
    rw [parsed] at value
    cases value
  | ok tree =>
    rw [parsed] at value
    exact congrArg _ (Except.ok.inj value).symm

/-- The nodes of a parsed tree have plain names. -/
theorem hasPlainNames_of_parse {t : Text} (returned : f.parse t = .ok (root, final)) :
    ∀ x ∈ final.descendants root, (final.content x).HasPlainNames := by
  obtain ⟨g, bears⟩ := exists_bears_of_parse returned
  have plain := isPlainlyNamed_of_parse (parse_eq_ok returned)
  rw [bears.contentsAll_read, ← bears.descendants] at plain
  exact fun x inside => (plain _ (List.mem_map_of_mem inside)).hasPlainNames

/-- The outline of a parsed tree is made up of the entries of the nodes below the root, in pre-order and joined by line
feeds. It has a line for each entry, and one more for each line feed in a text or in an attribute value. So the entries
are its lines exactly if no text and no attribute value below the root holds a line feed. -/
theorem outline_lines {t : Text} (returned : f.parse t = .ok (root, final)) (indent : Int) :
    Shorthand.parse t = .ok (final.read root) ∧
      (final.read root).outline indent =
        Text.joined ['\n'] ((final.descendants root).map (final.entry indent root)) ∧
      (final.descendants root ≠ [] →
        (Text.lines ((final.read root).outline indent)).length =
          (final.descendants root).length + ((final.descendants root).map fun x => (final.content x).lineFeeds).sum ∧
        (Text.lines ((final.read root).outline indent) = (final.descendants root).map (final.entry indent root) ↔
          ∀ x ∈ final.descendants root,
            '\n' ∉ (final.content x).text ∧ ∀ a ∈ (final.content x).attributeList, '\n' ∉ a.value)) := by
  obtain ⟨g, bears⟩ := exists_bears_of_parse returned
  have outline := bears.outline indent
  have plain := hasPlainNames_of_parse returned
  refine ⟨parse_eq_ok returned, outline, fun some => ?_⟩
  have entries : (final.descendants root).map (final.entry indent root) ≠ [] :=
    fun none => some (List.map_eq_nil_iff.1 none)
  have counts : ((final.descendants root).map (final.entry indent root)).map (·.count '\n') =
      (final.descendants root).map fun x => (final.content x).lineFeeds := by
    rw [List.map_map]
    exact List.map_congr_left fun x inside => count_entry (plain x inside) indent
  rw [outline, Text.length_lines_joined entries, Text.lines_joined_eq_iff entries, List.length_map, counts]
  refine ⟨rfl, List.forall_mem_map.trans (forall₂_congr fun x inside => ?_)⟩
  rw [← List.count_eq_zero, count_entry (plain x inside), Content.lineFeeds_eq_zero_iff]

/-- Three nodes below a root, with a line feed in the text of the first: the outline has four lines. -/
theorem outline_lines_feed :
    ∃ root final, ({} : Forest).parse "a\x7bx\ny\x7d>b*2".toList = .ok (root, final) ∧
      (final.descendants root).length = 3 ∧
      Text.lines ((final.read root).outline 2) =
        ["a \x7bx".toList, "y\x7d".toList, "  b @1".toList, "  b @2".toList] ∧
      (Text.lines ((final.read root).outline 2)).length =
        (final.descendants root).length + ((final.descendants root).map fun x => (final.content x).lineFeeds).sum := by
  have result : (({} : Forest).parse "a\x7bx\ny\x7d>b*2".toList).toOption.map (fun built =>
      (built.2.descendants built.1).map (built.2.entry 2 built.1)) =
      some ["a \x7bx\ny\x7d".toList, "  b @1".toList, "  b @2".toList] := by cbv
  cases returned : ({} : Forest).parse "a\x7bx\ny\x7d>b*2".toList with
  | error fault =>
    rw [returned] at result
    cases result
  | ok built =>
    obtain ⟨root, final⟩ := built
    rw [returned] at result
    have entries : (final.descendants root).map (final.entry 2 root) =
        ["a \x7bx\ny\x7d".toList, "  b @1".toList, "  b @2".toList] := Option.some.inj result
    have count : (final.descendants root).length = 3 := by
      rw [← List.length_map (f := final.entry 2 root), entries]
      rfl
    obtain ⟨-, outline, lines⟩ := outline_lines returned 2
    have nonempty : final.descendants root ≠ [] := fun none => by
      rw [none] at count
      cases count
    refine ⟨root, final, rfl, count, ?_, (lines nonempty).1⟩
    rw [outline, entries]
    decide

end Forest

end Shorthand
