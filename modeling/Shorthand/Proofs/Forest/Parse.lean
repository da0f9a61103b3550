import Mathlib
import Shorthand.Optimize.Basic
import Shorthand.Pipeline
import Shorthand.Proofs.Reading.Scan
import Shorthand.Proofs.Forest.Squash
import Shorthand.Proofs.Forest.Copies
import Shorthand.Proofs.Forest.Build

/-! # Parsing with links

The tree that is built with links and optimized in place is the tree of values. At each stage it is a tree: every node
below the root is listed once, by the node that it is linked to, and the links lead up to the root. What is left in the
end are named nodes that are wanted once.

* **`Forest.IsTree`** — the nodes below a root are linked as a tree.
* `Forest.parse_eq` — the linked tree is the tree of values.
* `Forest.parse_isTree` — the stages of a parse are trees. -/

namespace Shorthand

namespace Forest

variable {f f' : Forest} {root parent : NodeId} {g : Grove NodeId}

/-! ## Trees -/

/-- The nodes below a root are linked as a tree. -/
structure IsTree (f : Forest) (root : NodeId) : Prop where
  /-- The nodes that are met going down are different nodes of the forest. -/
  formed : f.WellFormed root
  /-- The root has no parent. -/
  top : f.parent? root = none
  /-- A node below the root is linked to the one node that lists it, and it is listed once there. -/
  listed_once : ∀ x ∈ f.descendants root, ∃ p ∈ f.preorder root, f.parent? x = some p ∧
    ∀ q ∈ f.preorder root, (f.children q).count x = if q = p then 1 else 0
  /-- The links to parents lead from a node below the root to the root. -/
  reaches : ∀ x ∈ f.descendants root, Relation.TransGen (fun a b => f.parent? a = some b) x root

/-- In a standing grove the links lead up to the node below which it stands. -/
theorem Stands.reaches (stands : f.Stands parent g) :
    ∀ x ∈ g.labels, Relation.TransGen (fun a b => f.parent? a = some b) x parent := by
  induction g generalizing parent with
  | nil => exact fun x inside => absurd inside List.not_mem_nil
  | cons c below rest belowInduction ih =>
    obtain ⟨-, linked, -, belowStands, restStands⟩ := stands
    intro x inside
    rcases List.mem_cons.1 inside with rfl | later
    · exact .single linked
    · rcases List.mem_append.1 later with inBelow | inRest
      · exact (belowInduction belowStands x inBelow).tail linked
      · exact ih restStands x inRest

/-- A node that bears a grove and has no parent is the root of a tree. -/
theorem Bears.isTree (bears : f.Bears root g) (top : f.parent? root = none) : f.IsTree root := by
  refine ⟨wellFormed_iff_exists_bears.2 ⟨g, bears⟩, top, ?_, ?_⟩
  · rw [bears.descendants, bears.preorder]
    intro x inside
    -- the nodes of the grove are its roots and the children of its nodes
    obtain ⟨p, above, listed⟩ : ∃ p ∈ root :: g.labels, x ∈ f.children p := by
      have among := bears.stands.lists.perm.subset inside
      rcases List.mem_append.1 among with isRoot | isChild
      · exact ⟨root, List.mem_cons_self, bears.lists ▸ isRoot⟩
      · obtain ⟨p, above, listed⟩ := List.mem_flatMap.1 isChild
        exact ⟨p, List.mem_cons_of_mem _ above, listed⟩
    have formed := wellFormed_iff_exists_bears.2 ⟨g, bears⟩
    exact ⟨p, above, formed.linked p (bears.preorder ▸ above) x listed,
      fun q other => bears.count_children above listed other⟩
  · rw [bears.descendants]
    exact bears.stands.reaches

/-! ## Counts and numbers -/

/-- Adding a blank child changes no content. -/
theorem content_extend (f : Forest) (receiver x : NodeId) :
    (f.extend receiver).2.content x = f.content x := by
  show (f.create.2.addChild receiver f.size none).content x = f.content x
  rw [addChild, content_modifyChildren, content_link, content, cell_create, content]

/-- Moving children changes no content. -/
theorem content_adopt (f : Forest) (receiver donor x : NodeId) :
    (f.adopt receiver donor).content x = f.content x := by
  rw [adopt]
  generalize f.children donor = moved
  induction moved generalizing f with
  | nil => rfl
  | cons child rest ih =>
    rw [List.foldl_cons, ih, addChild, content_modifyChildren, content_link]

/-- The contents of all nodes from one on are counted. -/
def CountedFrom (base : NodeId) (f : Forest) : Prop := ∀ x, base ≤ x → (f.content x).IsCounted

/-- A change of a content that keeps counted contents counted does so in a forest. -/
theorem CountedFrom.modifyContent {base : NodeId} (counted : CountedFrom base f) (id : NodeId)
    {change : Content → Content} (keeps : ∀ c, c.IsCounted → (change c).IsCounted) :
    CountedFrom base (f.modifyContent id change) := by
  intro x inside
  rw [content, Forest.modifyContent, cell_modify]
  by_cases here : id = x ∧ x < f.size
  · rw [if_pos here]
    exact keeps _ (counted x inside)
  · rw [if_neg here]
    exact counted x inside

/-- Adding a blank child keeps contents counted. -/
theorem CountedFrom.extend {base : NodeId} (counted : CountedFrom base f) (receiver : NodeId) :
    CountedFrom base (f.extend receiver).2 := by
  intro x inside
  rw [content_extend]
  exact counted x inside

/-- Beginning a tree keeps contents counted. -/
theorem CountedFrom.begin {base : NodeId} (counted : CountedFrom base f) :
    CountedFrom base (f.create.2.extend f.size).2 := by
  refine CountedFrom.extend (fun x inside => ?_) f.size
  rw [content, cell_create]
  exact counted x inside

/-- Moving children keeps contents counted. -/
theorem CountedFrom.adopt {base : NodeId} (counted : CountedFrom base f) (receiver donor : NodeId) :
    CountedFrom base (f.adopt receiver donor) := by
  intro x inside
  rw [content_adopt]
  exact counted x inside

/-- A multiplier that is positive keeps contents counted. -/
theorem isCounted_repeatBy {c : Content} (counted : c.IsCounted) {multiplier : Multiplier}
    (positive : multiplier.IsPositive) : (c.repeatBy multiplier).IsCounted := by
  cases multiplier with
  | absent => exact counted
  | bare => exact ⟨counted.repeatCount_pos, counted.counter_pos⟩
  | times n => exact ⟨positive, counted.counter_pos⟩

/-- So does a token whose multiplier is positive. -/
theorem isCounted_assign {c : Content} (counted : c.IsCounted) {said : Token}
    (positive : said.multiplier.IsPositive) : (c.assign said).IsCounted := by
  have repeated := isCounted_repeatBy counted positive
  exact ⟨repeated.repeatCount_pos, repeated.counter_pos⟩

/-- Faithful items keep contents counted. -/
theorem CountedFrom.linkAll {items : List Item} (faithful : Item.AreFaithful items) {base : NodeId}
    {f : Forest} (counted : CountedFrom base f) (current : NodeId) :
    CountedFrom base (Item.linkAll items (current, f)).2 := by
  induction items using Item.induction generalizing f current with
  | nil =>
    rw [Item.linkAll]
    exact counted
  | descend rest ih =>
    rw [Item.areFaithful_cons] at faithful
    rw [Item.linkAll, Item.link]
    exact ih faithful.2 (counted.extend _) _
  | sibling rest ih =>
    rw [Item.areFaithful_cons] at faithful
    rw [Item.linkAll, Item.link]
    exact ih faithful.2 (counted.extend _) _
  | climb rest ih =>
    rw [Item.areFaithful_cons] at faithful
    rw [Item.linkAll, Item.link]
    exact ih faithful.2 (counted.extend _) _
  | token source start said rest ih =>
    rw [Item.areFaithful_cons, Item.IsFaithful] at faithful
    obtain ⟨cut, multiplier, -⟩ := Token.cut_of_read faithful.1
    have positive := Multiplier.cut_isPositive multiplier
    rw [Item.linkAll, Item.link]
    exact ih faithful.2 (counted.modifyContent current fun c h => isCounted_assign h positive) _
  | group inside multiplier rest insideInduction ih =>
    rw [Item.areFaithful_cons, Item.IsFaithful] at faithful
    obtain ⟨⟨insideFaithful, positive⟩, restFaithful⟩ := faithful
    have built := insideInduction insideFaithful counted.begin (f.create.2.extend f.size).1
    have moved := built.modifyContent current fun c h => isCounted_repeatBy h positive
    rw [Item.linkAll, Item.link]
    exact ih restFaithful (CountedFrom.adopt moved _ _) _

/-! ## The stages of a parse -/

variable {raw mid : Forest}

/-- Unrolling a tree of counted contents gives a tree of contents that are wanted once. -/
theorem Bears.unroll_isTree (bears : raw.Bears root g) (top : raw.parent? root = none)
    (counted : ∀ x ∈ g.labels, (raw.content x).IsCounted) :
    ∃ g', (raw.unroll root).Bears root g' ∧ (raw.unroll root).parent? root = none ∧
      (raw.unroll root).content root = raw.content root ∧
      (∀ x ∈ g'.labels, ((raw.unroll root).content x).repeatCount = 1 ∧
        1 ≤ ((raw.unroll root).content x).counter) ∧
      (raw.unroll root).read root = (raw.read root).unroll := by
  obtain ⟨g', bears', content', parent', read⟩ := bears.unroll
  refine ⟨g', bears', parent'.trans top, content', fun x inside => ?_, read⟩
  -- counts are read off the tree of values, where unrolling is described by its marks
  have countedNodes : ∀ c ∈ Node.contentsAll (raw.read root).children, c.IsCounted := by
    rw [bears.contentsAll_read]
    exact List.forall_mem_map.2 counted
  have unmarked : ∀ n ∈ ({} : CopyMark).number, 1 ≤ n := by
    intro n marked
    cases marked
  have wanted := Node.unrollAll_contents countedNodes unmarked
  rw [← Node.children_unroll, ← read, bears'.contentsAll_read] at wanted
  exact wanted _ (List.mem_map_of_mem inside)

/-- The stages of a parse, from the tree as it was built to the end. -/
structure Stages (raw final : Forest) (root : NodeId) : Prop where
  /-- The tree is unrolled and then squashed, without a fault. -/
  run : (raw.unroll root).squash root = (final, none)
  /-- The tree as it was built is one. -/
  raw_isTree : raw.IsTree root
  /-- So is the tree in between. -/
  unrolled_isTree : (raw.unroll root).IsTree root
  /-- So is the tree in the end. -/
  isTree : final.IsTree root
  /-- All nodes are wanted once at least, as they were built. -/
  raw_repeatCount : ∀ x ∈ raw.preorder root, 1 ≤ (raw.content x).repeatCount
  /-- They still are in between. -/
  unrolled_repeatCount : ∀ x ∈ (raw.unroll root).preorder root,
    1 ≤ ((raw.unroll root).content x).repeatCount
  /-- In the end a node below the root has an abbreviation, is wanted once, and has a number from one on. -/
  plain : ∀ x ∈ final.descendants root, (final.content x).abbreviation ≠ [] ∧
    (final.content x).repeatCount = 1 ∧ 1 ≤ (final.content x).counter
  /-- The tree is optimized as a value. -/
  read_eq : final.read root = Shorthand.optimize (raw.read root)

/-- What was built goes through the stages of a parse. -/
theorem Built.exists_stages {nodes : List Node} (built : Built f raw nodes)
    (counted : CountedFrom f.size raw) : ∃ final, Stages raw final f.size := by
  obtain ⟨⟨g, bears, -, new⟩, top, blank, -⟩ := built
  obtain ⟨g', bears', top', content', wanted, read'⟩ :=
    bears.unroll_isTree top fun x inside => counted x (new x inside)
  obtain ⟨final, run, bears'', relinks⟩ := squash_of_bears bears'
  have rootCount : (raw.content f.size).repeatCount = 1 := by rw [blank]
  refine ⟨final, run, bears.isTree top, bears'.isTree top', bears''.isTree ?_, ?_, ?_, ?_, ?_⟩
  · rw [relinks.parent?_eq, top']
  · rw [bears.preorder]
    intro x inside
    rcases List.mem_cons.1 inside with rfl | below
    · exact Int.le_of_eq rootCount.symm
    · exact (counted x (new x below)).repeatCount_pos
  · rw [bears'.preorder]
    intro x inside
    rcases List.mem_cons.1 inside with rfl | below
    · rw [content']
      exact Int.le_of_eq rootCount.symm
    · exact Int.le_of_eq (wanted x below).1.symm
  · rw [bears''.descendants, Grove.labels_squash]
    intro x inside
    obtain ⟨below, survives⟩ := List.mem_filter.1 inside
    rw [relinks.content_eq]
    -- a node without an abbreviation would have been squashed
    refine ⟨fun empty => ?_, wanted x below⟩
    rw [isGroup_iff.2 empty] at survives
    exact Bool.false_ne_true survives
  · rw [Shorthand.optimize, ← read', bears'.read_squash bears'' relinks.content_eq]

/-- The tree of an abbreviation is built in a forest as it is built as a value, and it goes through the stages of a
parse. -/
theorem parseRaw_stages {t : Text} {raw : Forest} (returned : f.parseRaw t = .ok (root, raw)) :
    Shorthand.parseRaw t = .ok (raw.read root) ∧ ∃ final, Stages raw final root := by
  have fault : (readAbbreviation t).fault = none := by
    cases fault : (readAbbreviation t).fault with
    | none => rfl
    | some cause => simp [Forest.parseRaw, fault] at returned
  have accepted : f.build (readAbbreviation t).items = (root, raw) := by
    simpa [Forest.parseRaw, fault] using returned
  obtain ⟨raw', run, built⟩ := build_built f (readAbbreviation t).items
  obtain ⟨rfl, rfl⟩ := Prod.mk.inj (run.symm.trans accepted)
  -- the contents that were there before are not looked at, and the new ones start out blank
  have counted : CountedFrom f.size raw' := by
    have blank : CountedFrom f.size f := fun x outside => by
      rw [content_of_size_le outside]
      exact Content.isCounted_blank
    have faithful := readItems_areFaithful fault
    have linked := blank.begin.linkAll faithful (f.create.2.extend f.size).1
    rwa [← (Prod.mk.inj run).2]
  refine ⟨?_, built.exists_stages counted⟩
  obtain ⟨⟨g, bears, nodes, -⟩, -, blank, -⟩ := built
  rw [parseRaw_eq_ok_iff]
  refine ⟨fault, ?_⟩
  rw [bears.read, blank, nodes, Reading.tree]

/-- Where the stages have been gone through, the optimization gives the last one, unless the tree has too many
levels. -/
theorem Stages.optimize_eq {final : Forest} (stages : Stages raw final root) :
    raw.optimize root = if (raw.read root).height ≤ treeLimit then .ok final
      else .error (.inl AbbreviationFault.treeTooDeep) := by
  rw [Forest.optimize, stages.run]

/-- An abbreviation that cannot be read gives no tree, linked or not. -/
theorem parseRaw_eq_error {t : Text} {fault : Fault} (refused : f.parseRaw t = .error fault) :
    Shorthand.parseRaw t = .error fault := by
  rw [Forest.parseRaw] at refused
  rw [Shorthand.parseRaw]
  cases cause : (readAbbreviation t).fault with
  | none =>
    rw [cause] at refused
    cases refused
  | some cause =>
    simp only [cause] at refused ⊢
    cases refused
    rfl

/-- A parse in a forest gives the tree of values, or the fault. -/
theorem parse_eq (f : Forest) (t : Text) :
    (f.parse t).map (fun built => built.2.read built.1) = (Shorthand.parse t).mapError .inl := by
  cases returned : f.parseRaw t with
  | error fault =>
    rw [Forest.parse, returned, Shorthand.parse, parseRaw_eq_error returned]
    rfl
  | ok built =>
    obtain ⟨root, raw⟩ := built
    obtain ⟨value, final, stages⟩ := parseRaw_stages returned
    have parsed : Shorthand.parse t =
        (optimizeWithin treeLimit (raw.read root)).mapError Fault.abbreviation := by
      rw [Shorthand.parse, value]
      dsimp only [bind, Except.bind]
      cases optimizeWithin treeLimit (raw.read root) <;> rfl
    rw [Forest.parse, returned, parsed, optimizeWithin]
    dsimp only
    rw [stages.optimize_eq]
    by_cases lower : (raw.read root).height ≤ treeLimit
    · rw [if_pos lower, if_pos lower, ← stages.read_eq]
      rfl
    · rw [if_neg lower, if_neg lower]
      rfl

/-- The tree that a parse returns is the one that is built as a value, and it has gone through the stages of a
parse: it was a tree when it was built and when it was unrolled, and it is one. -/
theorem parse_isTree {t : Text} {final : Forest} (returned : f.parse t = .ok (root, final)) :
    Shorthand.parse t = .ok (final.read root) ∧
      ∃ raw, f.parseRaw t = .ok (root, raw) ∧ Stages raw final root := by
  have value := parse_eq f t
  rw [returned] at value
  have parsed : Shorthand.parse t = .ok (final.read root) := by
    cases other : Shorthand.parse t with
    | error fault =>
      rw [other] at value
      cases value
    | ok tree =>
      rw [other] at value
      cases value
      rfl
  refine ⟨parsed, ?_⟩
  rw [Forest.parse] at returned
  cases built : f.parseRaw t with
  | error fault =>
    rw [built] at returned
    cases returned
  | ok result =>
    obtain ⟨root', raw⟩ := result
    obtain ⟨-, final', stages⟩ := parseRaw_stages built
    simp only [built, stages.optimize_eq] at returned
    by_cases lower : (raw.read root').height ≤ treeLimit
    · rw [if_pos lower] at returned
      obtain ⟨rfl, rfl⟩ := Prod.mk.inj (Except.ok.inj returned)
      exact ⟨raw, rfl, stages⟩
    · rw [if_neg lower] at returned
      cases returned

/-- A group that is repeated, built in an empty forest: two trees of two nodes below the root. -/
theorem parse_repeatedGroup :
    ∃ root final, ({} : Forest).parse "a*2>(b+c)".toList = .ok (root, final) ∧ final.IsTree root ∧
      (final.descendants root).map (fun x => (final.content x).abbreviation) =
        ["a".toList, "b".toList, "c".toList, "a".toList, "b".toList, "c".toList] := by
  have result : (({} : Forest).parse "a*2>(b+c)".toList).toOption.map (fun built =>
      (built.2.descendants built.1).map fun x => (built.2.content x).abbreviation) =
        some ["a".toList, "b".toList, "c".toList, "a".toList, "b".toList, "c".toList] := by cbv
  cases returned : ({} : Forest).parse "a*2>(b+c)".toList with
  | error fault =>
    rw [returned] at result
    cases result
  | ok built =>
    obtain ⟨root, final⟩ := built
    obtain ⟨-, raw, -, stages⟩ := parse_isTree returned
    rw [returned] at result
    exact ⟨root, final, rfl, stages.isTree, Option.some.inj result⟩

end Forest

end Shorthand
