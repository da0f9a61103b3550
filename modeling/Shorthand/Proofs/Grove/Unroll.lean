import Shorthand.Proofs.Grove.Squash
import Shorthand.Proofs.Optimize.Unroll

/-! # Unrolling a grove

In a grove whose labels are contents, each with an origin, unrolling goes level by level as it does in a forest: the
trees of the upper level are put in the place of one another as numbered copies, and then what is below the roots is
unrolled. Copies keep the origins, so that the origins tell which node of the grove a node is a copy of.

* **`Grove.expand`** — the copies of the upper level.
* **`Grove.unrollWithin`** — the copies of all levels, down to a number of levels.
* `Grove.contentNodes_unrollWithin` — as nodes these are the instances, unrolled.
* **`Grove.CopiesFrom`** — each label stands for a copy of a given one.
* `Grove.copiesFrom_unrollWithin` — unrolling makes copies. -/

namespace Shorthand.Grove

variable {α β : Type}

/-- Change the contents, but not their origins. -/
def mapContent (f : Content → Content) (v : Grove (α × Content)) : Grove (α × Content) :=
  v.map fun l => (l.1, f l.2)

/-- Change the origins, but not the contents. -/
def mapOrigin (f : α → β) (v : Grove (α × Content)) : Grove (β × Content) :=
  v.map fun l => (f l.1, l.2)

/-- The copies of some trees with the given numbers, one after the other. -/
def copiesOf (numbers : List Int) (v : Grove (α × Content)) : Grove (α × Content) :=
  numbers.foldr (fun number rest => v.mapContent (Content.copied number) ++ rest) nil

/-- Put the numbered copies of repeating trees in their places. -/
def expand : Grove (α × Content) → Grove (α × Content)
  | nil => nil
  | cons l below rest =>
    (if l.2.isRepeating then copiesOf l.2.copyNumbers (cons (l.1, l.2.once) below nil)
      else cons l below nil) ++ rest.expand

/-- Put the numbered copies of repeating trees in their places, down to a number of levels. -/
def unrollWithin : Nat → Grove (α × Content) → Grove (α × Content)
  | 0, v => v
  | levels + 1, v => v.expand.mapBelow (unrollWithin levels)

variable {v w : Grove (α × Content)}

@[simp] theorem mapContent_nil (f : Content → Content) :
    (nil : Grove (α × Content)).mapContent f = nil := rfl

@[simp] theorem mapContent_cons (f : Content → Content) (l : α × Content)
    (below rest : Grove (α × Content)) :
    (cons l below rest).mapContent f =
      cons (l.1, f l.2) (below.mapContent f) (rest.mapContent f) := rfl

@[simp] theorem mapOrigin_nil (f : α → β) : (nil : Grove (α × Content)).mapOrigin f = nil := rfl

@[simp] theorem mapOrigin_cons (f : α → β) (l : α × Content) (below rest : Grove (α × Content)) :
    (cons l below rest).mapOrigin f =
      cons (f l.1, l.2) (below.mapOrigin f) (rest.mapOrigin f) := rfl

@[simp] theorem mapOrigin_append (f : α → β) (v w : Grove (α × Content)) :
    (v ++ w).mapOrigin f = v.mapOrigin f ++ w.mapOrigin f := map_append ..

@[simp] theorem copiesOf_nil (v : Grove (α × Content)) : v.copiesOf [] = nil := rfl

@[simp] theorem copiesOf_cons (number : Int) (numbers : List Int) (v : Grove (α × Content)) :
    v.copiesOf (number :: numbers) =
      v.mapContent (Content.copied number) ++ v.copiesOf numbers := rfl

theorem copiesOf_append (before after : List Int) (v : Grove (α × Content)) :
    v.copiesOf (before ++ after) = v.copiesOf before ++ v.copiesOf after := by
  induction before with
  | nil => rfl
  | cons number rest ih => rw [List.cons_append, copiesOf_cons, copiesOf_cons, ih, append_assoc]

/-- A copy of the first copy is as good as a copy. -/
theorem copiesOf_mapContent_copied (numbers : List Int) (v : Grove (α × Content)) :
    (v.mapContent (Content.copied 1)).copiesOf numbers = v.copiesOf numbers := by
  induction numbers with
  | nil => rfl
  | cons number rest ih =>
    rw [copiesOf_cons, copiesOf_cons, ih, mapContent, mapContent, mapContent, map_map]
    congr 1
    refine map_congr fun l _ => Prod.ext rfl ?_
    exact Content.copied_marked number _ l.2

@[simp] theorem expand_nil : (nil : Grove (α × Content)).expand = nil := rfl

theorem expand_append (v w : Grove (α × Content)) : (v ++ w).expand = v.expand ++ w.expand := by
  induction v with
  | nil => rfl
  | cons l below rest _ ih => rw [cons_append, expand, expand, ih, append_assoc]

@[simp] theorem unrollWithin_succ (levels : Nat) (v : Grove (α × Content)) :
    v.unrollWithin (levels + 1) = v.expand.mapBelow (unrollWithin levels) := rfl

/-! ## Origins -/

/-- Copying does not look at the origins. -/
theorem mapOrigin_copiesOf (f : α → β) (numbers : List Int) (v : Grove (α × Content)) :
    (v.copiesOf numbers).mapOrigin f = (v.mapOrigin f).copiesOf numbers := by
  induction numbers with
  | nil => rfl
  | cons number rest ih =>
    rw [copiesOf_cons, mapOrigin_append, ih, copiesOf_cons]
    congr 1
    rw [mapOrigin, mapContent, map_map, mapContent, mapOrigin, map_map]

theorem mapOrigin_expand (f : α → β) (v : Grove (α × Content)) :
    v.expand.mapOrigin f = (v.mapOrigin f).expand := by
  induction v with
  | nil => rfl
  | cons l below rest _ ih =>
    rw [expand, mapOrigin_append, ih, mapOrigin_cons, expand]
    congr 1
    dsimp only
    by_cases repeating : l.2.isRepeating = true
    · rw [if_pos repeating, if_pos repeating, mapOrigin_copiesOf]
      rfl
    · rw [if_neg repeating, if_neg repeating]
      rfl

/-- Changing origins commutes with a change below the roots that does not look at them. -/
theorem mapOrigin_mapBelow {f : α → β} {change : Grove (α × Content) → Grove (α × Content)}
    {change' : Grove (β × Content) → Grove (β × Content)}
    (commute : ∀ v, (change v).mapOrigin f = change' (v.mapOrigin f)) (v : Grove (α × Content)) :
    (v.mapBelow change).mapOrigin f = (v.mapOrigin f).mapBelow change' := by
  induction v with
  | nil => rfl
  | cons l below rest _ ih =>
    rw [mapBelow_cons, mapOrigin_cons, commute, ih, mapOrigin_cons, mapBelow_cons]

/-- Unrolling does not look at the origins. -/
theorem mapOrigin_unrollWithin (f : α → β) (levels : Nat) (v : Grove (α × Content)) :
    (v.unrollWithin levels).mapOrigin f = (v.mapOrigin f).unrollWithin levels := by
  induction levels generalizing v with
  | zero => rfl
  | succ levels ih =>
    rw [unrollWithin_succ, mapOrigin_mapBelow ih, mapOrigin_expand, unrollWithin_succ]

/-! ## Levels -/

@[simp] theorem height_mapContent (f : Content → Content) (v : Grove (α × Content)) :
    (v.mapContent f).height = v.height := height_map ..

/-- Copies have no more levels than what is copied. -/
theorem height_copiesOf_le (numbers : List Int) (v : Grove (α × Content)) :
    (v.copiesOf numbers).height ≤ v.height := by
  induction numbers with
  | nil => exact Nat.zero_le _
  | cons number rest ih =>
    rw [copiesOf_cons, height_append, height_mapContent]
    omega

theorem height_expand_le (v : Grove (α × Content)) : v.expand.height ≤ v.height := by
  induction v with
  | nil => exact Nat.le_refl 0
  | cons l below rest _ ih =>
    rw [expand, height_append, height_cons]
    by_cases repeating : l.2.isRepeating = true
    · have copies := height_copiesOf_le l.2.copyNumbers (cons (l.1, l.2.once) below nil)
      rw [if_pos repeating]
      rw [height_cons, height_nil] at copies
      omega
    · rw [if_neg repeating, height_cons, height_nil]
      omega

/-! ## The nodes that a grove gives -/

/-- The nodes that the contents give. -/
def contentNodes (v : Grove (α × Content)) : List Node := (v.map Prod.snd).nodes

@[simp] theorem contentNodes_nil : (nil : Grove (α × Content)).contentNodes = [] := rfl

@[simp] theorem contentNodes_cons (l : α × Content) (below rest : Grove (α × Content)) :
    (cons l below rest).contentNodes = .mk l.2 below.contentNodes :: rest.contentNodes := rfl

@[simp] theorem contentNodes_append (v w : Grove (α × Content)) :
    (v ++ w).contentNodes = v.contentNodes ++ w.contentNodes := by
  rw [contentNodes, map_append, nodes_append, contentNodes, contentNodes]

/-- In pre-order the contents of the nodes are the labels. -/
theorem contentsAll_nodes (v : Grove Content) : Node.contentsAll v.nodes = v.labels := by
  induction v with
  | nil => rw [nodes_nil, Node.contentsAll_nil, labels_nil]
  | cons c below rest belowInduction ih =>
    rw [nodes_cons, Node.contentsAll_cons, belowInduction, ih, labels_cons]

/-- Changing contents changes those of the nodes. -/
theorem contentNodes_mapContent (f : Content → Content) (v : Grove (α × Content)) :
    (v.mapContent f).contentNodes = Node.mapEach f v.contentNodes := by
  rw [contentNodes, mapContent, map_map, contentNodes, ← nodes_map, map_map]

/-- The copies of a tree are the copies of its node. -/
theorem contentNodes_copiesOf (numbers : List Int) (a : α) (c : Content)
    (below : Grove (α × Content)) :
    ((cons (a, c.once) below nil).copiesOf numbers).contentNodes =
      numbers.map fun number => (Node.mk c below.contentNodes).copy number := by
  induction numbers with
  | nil => rfl
  | cons number rest ih =>
    rw [copiesOf_cons, contentNodes_append, ih, contentNodes_mapContent, contentNodes_cons,
      contentNodes_nil, List.map_cons, Node.mapEach, Node.mapEach, List.singleton_append, Node.copy,
      Node.withContent]

/-- On the upper level stand the instances of the nodes. -/
theorem contentNodes_expand (v : Grove (α × Content)) :
    v.expand.contentNodes = v.contentNodes.flatMap Node.instances := by
  induction v with
  | nil => rfl
  | cons l below rest _ ih =>
    rw [expand, contentNodes_append, ih, contentNodes_cons, List.flatMap_cons, Node.instances,
      Node.content_mk]
    congr 1
    by_cases repeating : l.2.isRepeating = true
    · rw [if_pos repeating, if_pos repeating, contentNodes_copiesOf]
    · rw [if_neg repeating, if_neg repeating, contentNodes_cons, contentNodes_nil]

/-- As nodes an unrolled grove gives the instances, unrolled, if the levels suffice. -/
theorem contentNodes_unrollWithin {levels : Nat} (enough : v.height ≤ levels) :
    (v.unrollWithin levels).contentNodes =
      v.contentNodes.flatMap fun n => n.instances.map Node.unrolled := by
  induction levels generalizing v with
  | zero =>
    rw [eq_nil_of_height_le_zero enough]
    rfl
  | succ levels ih =>
    -- what is below the roots of the upper level is unrolled
    have below : ∀ w : Grove (α × Content), w.height ≤ levels + 1 →
        (w.mapBelow (unrollWithin levels)).contentNodes = w.contentNodes.map Node.unrolled := by
      intro w enough
      induction w with
      | nil => rfl
      | cons l below rest _ restInduction =>
        rw [height_cons] at enough
        rw [mapBelow_cons, contentNodes_cons, contentNodes_cons, List.map_cons, Node.unrolled_mk,
          ih (by omega), restInduction (by omega)]
    rw [unrollWithin_succ, below _ (Nat.le_trans v.height_expand_le enough), contentNodes_expand,
      List.map_flatMap]

/-! ## What the contents of copies have in common -/

/-- Each label stands for a copy of one of the given labels, with the same origin. -/
def CopiesFrom (v w : Grove (α × Content)) : Prop :=
  ∀ l ∈ w.labels, ∃ l' ∈ v.labels, l.1 = l'.1 ∧ Content.IsCopyOf l.2 l'.2

theorem CopiesFrom.refl (v : Grove (α × Content)) : CopiesFrom v v :=
  fun l inside => ⟨l, inside, rfl, .refl l.2⟩

theorem CopiesFrom.trans {u : Grove (α × Content)} (first : CopiesFrom u v)
    (second : CopiesFrom v w) : CopiesFrom u w := by
  intro l inside
  obtain ⟨l', inside', origin, copy⟩ := second l inside
  obtain ⟨l'', inside'', origin', copy'⟩ := first l' inside'
  exact ⟨l'', inside'', origin.trans origin', copy.trans copy'⟩

/-- Two groves of copies side by side. -/
theorem CopiesFrom.append {u : Grove (α × Content)} (first : CopiesFrom u v)
    (second : CopiesFrom u w) : CopiesFrom u (v ++ w) := by
  intro l inside
  rw [labels_append] at inside
  exact (List.mem_append.1 inside).elim (first l) (second l)

/-- The labels may be found among more. -/
theorem CopiesFrom.mono {u : Grove (α × Content)} (copies : CopiesFrom v w)
    (subset : v.labels ⊆ u.labels) : CopiesFrom u w := by
  intro l inside
  obtain ⟨l', inside', same⟩ := copies l inside
  exact ⟨l', subset inside', same⟩

end Shorthand.Grove
