import Mathlib
import Shorthand.Proofs.Forest.Copies

/-! # Unrolling again

Unrolling takes counts as done, but it leaves the flags of bare multipliers on the nodes and on their copies. So another
pass looks at the flagged nodes once more: it makes no copies of them, but it numbers each of them and everything below
it as a first copy. After that it has nothing left to change.

* **`Content.IsSettled`** — the content is as unrolling leaves it.
* **`Forest.Renumbers`** — nothing but the numbers of some nodes has changed, and these are one now.
* **`Forest.starred`** — the nodes that have a flag, or are below one that has it.
* `Forest.renumbers_unrollWithin` — another pass renumbers these nodes.
* `Forest.unroll_again` — what unrolling makes of an unrolled tree. -/

namespace Shorthand

namespace Content

/-- A content as unrolling leaves it: it is wanted once at most, and just once if it has the flag of a bare
multiplier. -/
structure IsSettled (c : Content) : Prop where
  /-- There are no more copies to make. -/
  repeatCount_le : c.repeatCount ≤ 1
  /-- The count of a flagged content has been taken as done. -/
  repeatCount_eq : c.implicitRepeat = true → c.repeatCount = 1

/-- Copies are settled, whatever the content was. -/
theorem isSettled_of_mem_copies {mark inner : CopyMark} {c copy : Content} (made : (inner, copy) ∈ c.copies mark) :
    copy.IsSettled := by
  rw [copies] at made
  by_cases repeating : c.isRepeating = true
  · rw [if_pos repeating] at made
    obtain ⟨number, -, same⟩ := List.mem_map.1 made
    obtain ⟨-, rfl⟩ := Prod.mk.inj same
    have once : (c.once.marked ⟨some number, mark.isNew || 1 < number⟩).repeatCount = 1 := by
      rw [repeatCount_marked, once_repeatCount]
    exact ⟨once.le, fun _ => once⟩
  · rw [if_neg repeating, List.mem_singleton] at made
    obtain ⟨-, rfl⟩ := Prod.mk.inj made
    simp only [isRepeating, Bool.or_eq_true, decide_eq_true_eq, not_or, Int.not_lt] at repeating
    refine ⟨?_, fun flagged => absurd flagged ?_⟩
    · rw [repeatCount_marked]
      exact repeating.1
    · rw [(marked_isCopyOf mark c).implicitRepeat_eq]
      exact repeating.2

namespace IsSettled

variable {c : Content} (settled : c.IsSettled)
include settled

/-- A settled content is still repeating if it is flagged. -/
theorem isRepeating_eq : c.isRepeating = c.implicitRepeat := by
  rw [isRepeating, decide_eq_false (Int.not_lt.2 settled.repeatCount_le), Bool.false_or]

/-- The count of a flagged content stays as it is. -/
theorem once_eq (flagged : c.implicitRepeat = true) : c.once = c := by
  rw [once, ← settled.repeatCount_eq flagged]

/-- A number does not unsettle a content. -/
theorem numbered (n : Int) : (c.numbered n).IsSettled := ⟨settled.repeatCount_le, settled.repeatCount_eq⟩

end IsSettled

/-- A content that has a number is not changed by the same number. -/
theorem numbered_numbered (n : Int) (c : Content) : (c.numbered n).numbered n = c.numbered n := rfl

end Content

namespace Forest

/-- All that has changed are the numbers of some nodes, which are one now. -/
structure Renumbers (f f' : Forest) (ids : List NodeId) : Prop where
  /-- No node is new. -/
  size_eq : f'.size = f.size
  /-- The nodes have the number one, and otherwise cells are as they were. -/
  cell_eq : ∀ x, f'.cell x =
    ⟨if x ∈ ids then (f.content x).numbered 1 else f.content x, f.parent? x, f.children x⟩

/-- The nodes that have the flag of a bare multiplier, down to a number of levels, each with everything below it. -/
def starredWithin (f : Forest) (levels : Nat) (root : NodeId) : List NodeId :=
  ((f.preorderWithin levels root).tail.filter fun x => (f.content x).implicitRepeat).flatMap f.preorder

/-- The nodes below a root that have the flag of a bare multiplier, each with everything below it. -/
def starred (f : Forest) (root : NodeId) : List NodeId :=
  ((f.descendants root).filter fun x => (f.content x).implicitRepeat).flatMap f.preorder

variable {f f' f'' : Forest} {id root x : NodeId} {ids later : List NodeId}

/-! ## Renumbered forests -/

namespace Renumbers

/-- Nothing has changed. -/
theorem refl (f : Forest) : f.Renumbers f [] :=
  ⟨rfl, fun x => by rw [if_neg List.not_mem_nil]; rfl⟩

theorem content_eq (renumbers : f.Renumbers f' ids) (x : NodeId) :
    f'.content x = if x ∈ ids then (f.content x).numbered 1 else f.content x := by
  rw [content, renumbers.cell_eq]

theorem parent?_eq (renumbers : f.Renumbers f' ids) (x : NodeId) : f'.parent? x = f.parent? x := by
  rw [parent?, renumbers.cell_eq]

theorem children_eq (renumbers : f.Renumbers f' ids) (x : NodeId) : f'.children x = f.children x := by
  rw [children, renumbers.cell_eq]

/-- Only which nodes are renumbered matters. -/
theorem congr (renumbers : f.Renumbers f' ids) (same : ∀ x, x ∈ ids ↔ x ∈ later) : f.Renumbers f' later :=
  ⟨renumbers.size_eq, fun x => by rw [renumbers.cell_eq, if_congr (same x) rfl rfl]⟩

/-- Nodes may be renumbered twice. -/
theorem trans (first : f.Renumbers f' ids) (second : f'.Renumbers f'' later) : f.Renumbers f'' (ids ++ later) := by
  refine ⟨second.size_eq.trans first.size_eq, fun x => ?_⟩
  rw [second.cell_eq, first.parent?_eq, first.children_eq, first.content_eq]
  by_cases early : x ∈ ids <;> by_cases late : x ∈ later <;> simp [early, late, Content.numbered_numbered]

/-- Renumbering goes on with every item of a list, if each step renumbers some nodes, whichever have been renumbered
before. -/
theorem foldl {α : Type} {step : Forest → α → Forest} {nodes : α → List NodeId} {items : List α}
    (each : ∀ a ∈ items, ∀ f' ids, f.Renumbers f' ids → f'.Renumbers (step f' a) (nodes a)) :
    f.Renumbers (items.foldl step f) (items.flatMap nodes) := by
  induction items generalizing f with
  | nil => exact .refl f
  | cons a rest ih =>
    have first := each a List.mem_cons_self f [] (.refl f)
    rw [List.foldl_cons, List.flatMap_cons]
    exact first.trans <| ih fun b inside f' ids renumbers =>
      each b (List.mem_cons_of_mem a inside) f' (nodes a ++ ids) (first.trans renumbers)

/-- The flags of bare multipliers stay. -/
theorem implicitRepeat_eq (renumbers : f.Renumbers f' ids) (x : NodeId) :
    (f'.content x).implicitRepeat = (f.content x).implicitRepeat := by
  rw [renumbers.content_eq]
  split <;> rfl

/-- Settled contents stay settled. -/
theorem isSettled (renumbers : f.Renumbers f' ids) (settled : (f.content x).IsSettled) :
    (f'.content x).IsSettled := by
  rw [renumbers.content_eq]
  split
  · exact settled.numbered 1
  · exact settled

theorem preorderWithin_eq (renumbers : f.Renumbers f' ids) (levels : Nat) (x : NodeId) :
    f'.preorderWithin levels x = f.preorderWithin levels x := by
  induction levels generalizing x with
  | zero => rfl
  | succ levels ih => rw [preorderWithin, preorderWithin, renumbers.children_eq, funext ih]

/-- Going down meets the same nodes. -/
theorem preorder_eq (renumbers : f.Renumbers f' ids) (x : NodeId) : f'.preorder x = f.preorder x := by
  rw [preorder, renumbers.size_eq, renumbers.preorderWithin_eq, preorder]

theorem wellFormed (renumbers : f.Renumbers f' ids) (formed : f.WellFormed x) : f'.WellFormed x := by
  refine ⟨?_, ?_, ?_⟩
  · rw [renumbers.preorder_eq, renumbers.size_eq]
    exact formed.inside
  · rw [renumbers.preorder_eq]
    exact formed.distinct
  · rw [renumbers.preorder_eq]
    intro y inside child listed
    rw [renumbers.children_eq] at listed
    rw [renumbers.parent?_eq, formed.linked y inside child listed]

theorem starredWithin_eq (renumbers : f.Renumbers f' ids) (levels : Nat) (root : NodeId) :
    f'.starredWithin levels root = f.starredWithin levels root := by
  rw [starredWithin, renumbers.preorderWithin_eq, funext renumbers.preorder_eq,
    funext renumbers.implicitRepeat_eq, starredWithin]

/-- The same nodes are starred. -/
theorem starred_eq (renumbers : f.Renumbers f' ids) (root : NodeId) : f'.starred root = f.starred root := by
  rw [starred, descendants, preorder, renumbers.size_eq]
  exact renumbers.starredWithin_eq f.size root

/-- Where no node is renumbered, nothing has changed. -/
theorem eq_self (renumbers : f.Renumbers f' []) : f' = f :=
  ext_cell renumbers.size_eq fun x => by rw [renumbers.cell_eq, if_neg List.not_mem_nil]; rfl

/-- Renumbering the same nodes again changes nothing. -/
theorem eq_of_renumbers (first : f.Renumbers f' ids) (second : f'.Renumbers f'' ids) : f'' = f' := by
  refine ext_cell second.size_eq fun x => ?_
  rw [second.cell_eq, first.cell_eq, first.content_eq, first.parent?_eq, first.children_eq]
  by_cases inside : x ∈ ids
  · rw [if_pos inside, if_pos inside, Content.numbered_numbered]
  · rw [if_neg inside, if_neg inside]

end Renumbers

/-! ## Unrolling where everything is settled -/

/-- Numbering a node and everything below it as a first copy. -/
theorem WellFormed.renumbers_update (formed : f.WellFormed x) :
    f.Renumbers (f.update x (.counter 1)) (f.preorder x) := by
  obtain ⟨g, bears⟩ := wellFormed_iff_exists_bears.1 formed
  obtain ⟨size, cells⟩ := bears.update_counter 1
  rw [bears.preorder]
  exact ⟨size, cells⟩

/-- Below a node that is well formed its children are. -/
theorem WellFormed.child (formed : f.WellFormed id) {child : NodeId} (listed : child ∈ f.children id) :
    f.WellFormed child := by
  refine formed.of_mem ?_
  obtain ⟨g, bears⟩ := wellFormed_iff_exists_bears.1 formed
  rw [bears.preorder]
  exact List.mem_cons_of_mem id (bears.mem_of_listed List.mem_cons_self listed)

/-- The nodes that are numbered because of a child itself: all of its tree, if it is flagged. -/
def starredTree (f : Forest) (child : NodeId) : List NodeId :=
  if (f.content child).implicitRepeat then f.preorder child else []

/-- A flagged child is numbered as a first copy, with everything below it, and any other stays as it is. -/
theorem renumbers_unrollChild {child : NodeId} {k : Nat} (listed : (f.children id)[k]? = some child)
    (formed : f.WellFormed child) (settled : (f.content child).IsSettled) :
    f.Renumbers (unrollChild id f k) (f.starredTree child) := by
  rw [unrollChild, listed, starredTree]
  dsimp only
  rw [settled.isRepeating_eq]
  by_cases flagged : (f.content child).implicitRepeat = true
  · -- the count stays as it is, and no other copy is wanted
    obtain ⟨g, bears⟩ := wellFormed_iff_exists_bears.1 formed
    have kept : f.modifyContent child Content.once = f :=
      ext_cell (size_modifyContent ..) fun x => by
        refine cell_ext ?_ (parent?_modifyContent ..) (children_modifyContent ..)
        rw [content_modifyContent f _ bears.inside]
        by_cases same : x = child
        · rw [if_pos same, same, settled.once_eq flagged]
        · rw [if_neg same]
    have others : List.range' 2 ((f.content child).repeatCount.toNat - 1) = [] := by
      rw [settled.repeatCount_eq flagged]
      rfl
    rw [if_pos flagged, if_pos flagged, kept, others]
    exact formed.renumbers_update
  · rw [if_neg flagged, if_neg flagged]
    exact .refl f

/-- The trees of the flagged children are numbered. -/
theorem renumbers_unrollChildren (formed : f.WellFormed id)
    (settled : ∀ child ∈ f.children id, (f.content child).IsSettled) :
    f.Renumbers ((List.range (f.children id).length).reverse.foldl (unrollChild id) f)
      ((f.children id).flatMap f.starredTree) := by
  have loop : f.Renumbers ((List.range (f.children id).length).reverse.foldl (unrollChild id) f)
      ((List.range (f.children id).length).reverse.flatMap fun k =>
        (f.children id)[k]?.elim [] f.starredTree) := by
    refine .foldl fun k inside f' ids renumbers => ?_
    rw [List.mem_reverse, List.mem_range] at inside
    have listed : (f.children id)[k]? = some (f.children id)[k] := List.getElem?_eq_getElem inside
    have member : (f.children id)[k] ∈ f.children id := List.getElem_mem inside
    have tree : f'.starredTree (f.children id)[k] = f.starredTree (f.children id)[k] := by
      rw [starredTree, renumbers.implicitRepeat_eq, renumbers.preorder_eq, starredTree]
    rw [listed, Option.elim_some, ← tree]
    refine renumbers_unrollChild ?_ (renumbers.wellFormed (formed.child member))
      (renumbers.isSettled (settled _ member))
    rw [renumbers.children_eq, listed]
  refine loop.congr fun x => ?_
  simp only [List.mem_flatMap, List.mem_reverse, List.mem_range]
  constructor
  · rintro ⟨k, inside, found⟩
    rw [List.getElem?_eq_getElem inside] at found
    exact ⟨_, List.getElem_mem inside, found⟩
  · rintro ⟨child, listed, found⟩
    obtain ⟨k, inside, rfl⟩ := List.getElem_of_mem listed
    refine ⟨k, inside, ?_⟩
    rwa [List.getElem?_eq_getElem inside]

/-- The starred nodes are found in the trees of the children. -/
theorem starredWithin_succ (f : Forest) (levels : Nat) (id : NodeId) :
    f.starredWithin (levels + 1) id =
      (f.children id).flatMap fun child => f.starredTree child ++ f.starredWithin levels child := by
  rw [starredWithin, preorderWithin, List.tail_cons, List.filter_flatMap, List.flatMap_assoc]
  refine List.flatMap_congr fun child _ => ?_
  rw [preorderWithin_eq_cons, List.filter_cons, starredTree, starredWithin]
  by_cases flagged : (f.content child).implicitRepeat = true
  · rw [if_pos flagged, if_pos flagged, List.flatMap_cons]
  · rw [if_neg flagged, if_neg flagged, List.nil_append]

/-- Where everything below a node is settled, unrolling renumbers the starred nodes. -/
theorem renumbers_unrollWithin {levels : Nat} (formed : f.WellFormed id)
    (settled : ∀ x ∈ (f.preorderWithin levels id).tail, (f.content x).IsSettled) :
    f.Renumbers (unrollWithin levels id f) (f.starredWithin levels id) := by
  induction levels generalizing f id with
  | zero => exact .refl f
  | succ levels ih =>
    rw [preorderWithin, List.tail_cons] at settled
    have among : ∀ child ∈ f.children id, ∀ x ∈ f.preorderWithin levels child, (f.content x).IsSettled :=
      fun child listed x found => settled x (List.mem_flatMap.2 ⟨child, listed, found⟩)
    -- the children themselves
    have first := renumbers_unrollChildren formed fun child listed =>
      among child listed child (preorderWithin_eq_cons f levels child ▸ List.mem_cons_self)
    rw [unrollWithin]
    generalize (List.range (f.children id).length).reverse.foldl (unrollChild id) f = f₁ at first ⊢
    -- then what is below them, where they may have been renumbered before
    have second : f₁.Renumbers ((f₁.children id).foldl (fun f child => unrollWithin levels child f) f₁)
        ((f₁.children id).flatMap (f.starredWithin levels)) := by
      refine .foldl fun child listed f' ids renumbers => ?_
      have renumbered := first.trans renumbers
      rw [first.children_eq] at listed
      rw [← renumbered.starredWithin_eq]
      refine ih (renumbered.wellFormed (formed.child listed)) fun x found => ?_
      rw [renumbered.preorderWithin_eq] at found
      exact renumbered.isSettled (among child listed x (List.mem_of_mem_tail found))
    refine (first.trans second).congr fun x => ?_
    rw [first.children_eq, starredWithin_succ]
    simp only [List.mem_append, List.mem_flatMap]
    constructor
    · rintro (⟨child, listed, found⟩ | ⟨child, listed, found⟩)
      · exact ⟨child, listed, .inl found⟩
      · exact ⟨child, listed, .inr found⟩
    · rintro ⟨child, listed, found | found⟩
      · exact .inl ⟨child, listed, found⟩
      · exact .inr ⟨child, listed, found⟩

/-- Where everything below a node is settled, unrolling renumbers the starred nodes. -/
theorem renumbers_unroll (formed : f.WellFormed root)
    (settled : ∀ x ∈ f.descendants root, (f.content x).IsSettled) :
    f.Renumbers (f.unroll root) (f.starred root) := renumbers_unrollWithin formed settled

/-! ## Unrolling again -/

namespace WellFormed

/-- Unrolling keeps a forest well formed below the root. -/
theorem unroll (formed : f.WellFormed root) : (f.unroll root).WellFormed root := by
  obtain ⟨g, bears⟩ := wellFormed_iff_exists_bears.1 formed
  obtain ⟨g', bears', -⟩ := bears.unroll
  exact wellFormed_iff_exists_bears.2 ⟨g', bears'⟩

/-- What holds of the contents below an unrolled tree of values holds below the root of an unrolled forest. -/
theorem forall_unroll (formed : f.WellFormed root) (P : Content → Prop)
    (all : ∀ c ∈ Node.contentsAll (Node.unrollAll {} (f.read root).children), P c) :
    ∀ x ∈ (f.unroll root).descendants root, P ((f.unroll root).content x) := by
  obtain ⟨g, bears⟩ := wellFormed_iff_exists_bears.1 formed
  obtain ⟨g', bears', -, -, read⟩ := bears.unroll
  rw [← Node.children_unroll, ← read, bears'.contentsAll_read] at all
  rw [bears'.descendants]
  exact List.forall_mem_map.1 all

/-- Unrolling leaves settled contents. -/
theorem isSettled_unroll (formed : f.WellFormed root) :
    ∀ x ∈ (f.unroll root).descendants root, ((f.unroll root).content x).IsSettled :=
  formed.forall_unroll Content.IsSettled <| Node.forall_mem_unrollAll (fun _ => True)
    (fun _ _ made => ⟨Content.isSettled_of_mem_copies made, trivial⟩) (fun _ _ => trivial) trivial

/-- Unrolling leaves no flags of bare multipliers where there were none. -/
theorem implicitRepeat_unroll (formed : f.WellFormed root)
    (plain : ∀ x ∈ f.descendants root, (f.content x).implicitRepeat = false) :
    ∀ x ∈ (f.unroll root).descendants root, ((f.unroll root).content x).implicitRepeat = false := by
  obtain ⟨g, bears⟩ := wellFormed_iff_exists_bears.1 formed
  have values : ∀ c ∈ Node.contentsAll (f.read root).children, c.implicitRepeat = false := by
    rw [bears.contentsAll_read, ← bears.descendants]
    exact List.forall_mem_map.2 plain
  refine formed.forall_unroll (·.implicitRepeat = false) ?_
  refine Node.forall_mem_unrollAll (fun _ => True) (fun same _ made => ⟨?_, trivial⟩) values trivial
  rw [(Content.isCopyOf_of_mem_copies made).implicitRepeat_eq, same]

end WellFormed

/-- Without flags of bare multipliers no node is starred. -/
theorem starred_eq_nil (plain : ∀ x ∈ f.descendants root, (f.content x).implicitRepeat = false) :
    f.starred root = [] := by
  have unflagged := List.filter_eq_nil_iff.2 fun x inside => Bool.eq_false_iff.1 (plain x inside)
  rw [starred, unflagged, List.flatMap_nil]

/-- Unrolling a tree again, once it has been unrolled, adds no node and changes nothing but numbers: that of a node
becomes one if the node, or one above it and below the root, has the flag of a bare multiplier. So without such flags
nothing changes, and nothing changes the third time. -/
theorem unroll_again (formed : f.WellFormed root) :
    (f.unroll root).Renumbers ((f.unroll root).unroll root) ((f.unroll root).starred root) ∧
      ((∀ x ∈ f.descendants root, (f.content x).implicitRepeat = false) →
        (f.unroll root).unroll root = f.unroll root) ∧
      ((f.unroll root).unroll root).unroll root = (f.unroll root).unroll root := by
  have once := formed.unroll
  have settled := formed.isSettled_unroll
  have second := renumbers_unroll once settled
  refine ⟨second, fun plain => ?_, ?_⟩
  · rw [starred_eq_nil (formed.implicitRepeat_unroll plain)] at second
    exact second.eq_self
  · -- the third pass renumbers the nodes that the second has renumbered
    have third := renumbers_unroll once.unroll once.isSettled_unroll
    rw [second.starred_eq] at third
    exact second.eq_of_renumbers third

/-- A root over a node with a bare multiplier, with one below it that is wanted twice. -/
def starredForest : Forest :=
  ⟨#[{ children := [1] },
    { parent := some 0, children := [2], content := { abbreviation := ['a'], implicitRepeat := true } },
    { parent := some 1, content := { abbreviation := ['b'], repeatCount := 2 } }]⟩

/-- The second copy of the lower node loses its number. -/
theorem unroll_again_starredForest :
    starredForest.WellFormed 0 ∧ ((starredForest.unroll 0).content 3).counter = 2 ∧
      (((starredForest.unroll 0).unroll 0).content 3).counter = 1 := by
  have formed : starredForest.WellFormed 0 := ⟨by decide, by decide, by decide⟩
  obtain ⟨second, -, -⟩ := unroll_again formed
  have starred : 3 ∈ (starredForest.unroll 0).starred 0 := by decide
  refine ⟨formed, by decide, ?_⟩
  rw [second.content_eq, if_pos starred]
  rfl

end Forest

end Shorthand
