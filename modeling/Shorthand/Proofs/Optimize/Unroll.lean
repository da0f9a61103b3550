import Shorthand.Optimize.Unroll

/-! # What unrolling means

Unrolling goes down with a mark that collects what the copies around a node write on it. What it means can be said
without marks: each child gives its place to its instances, which are the child itself or its numbered copies, and these
are unrolled in turn.

* **`Node.instances`** — what stands in the place of a node when it is unrolled.
* **`Node.unrolled`** — the instances of the children, unrolled.
* `Node.unroll_eq_unrolled` — unrolling with marks gives just that. -/

namespace Shorthand

namespace Content

/-- The content as the copy with the given number; only the first copy keeps what a renderer wrote into its slots. -/
def copied (number : Int) (c : Content) : Content := c.marked ⟨some number, decide (1 < number)⟩

/-- How many copies unrolling makes of a content. -/
def copyCount (c : Content) : Nat := if c.isRepeating then max 1 c.repeatCount.toNat else 1

/-- The content belongs to a copy: what the token said is the same, apart from the count. -/
structure IsCopyOf (copy c : Content) : Prop where
  /-- The abbreviation is the same. -/
  abbreviation_eq : copy.abbreviation = c.abbreviation
  /-- The element name is the same. -/
  elementName_eq : copy.elementName = c.elementName
  /-- The text is the same. -/
  text_eq : copy.text = c.text
  /-- The attributes are the same. -/
  attributes_eq : copy.attributes = c.attributes
  /-- The flag of a bare multiplier is the same. -/
  implicitRepeat_eq : copy.implicitRepeat = c.implicitRepeat
  /-- What callers attached is the same. -/
  data_eq : copy.data = c.data
  /-- The resource is the same. -/
  resource_eq : copy.resource = c.resource

/-- Every content is a copy of itself. -/
theorem IsCopyOf.refl (c : Content) : IsCopyOf c c := ⟨rfl, rfl, rfl, rfl, rfl, rfl, rfl⟩

/-- A copy of a copy is a copy. -/
theorem IsCopyOf.trans {a b c : Content} (first : IsCopyOf a b) (second : IsCopyOf b c) :
    IsCopyOf a c :=
  ⟨first.abbreviation_eq.trans second.abbreviation_eq, first.elementName_eq.trans second.elementName_eq,
    first.text_eq.trans second.text_eq, first.attributes_eq.trans second.attributes_eq,
    first.implicitRepeat_eq.trans second.implicitRepeat_eq, first.data_eq.trans second.data_eq,
    first.resource_eq.trans second.resource_eq⟩

/-- Taking the count as done makes a copy. -/
theorem once_isCopyOf (c : Content) : IsCopyOf c.once c := ⟨rfl, rfl, rfl, rfl, rfl, rfl, rfl⟩

/-- A mark makes a copy. -/
theorem marked_isCopyOf (mark : CopyMark) (c : Content) : IsCopyOf (c.marked mark) c := by
  obtain ⟨number, isNew⟩ := mark
  cases number <;> cases isNew <;> exact ⟨rfl, rfl, rfl, rfl, rfl, rfl, rfl⟩

/-- A mark leaves the count and the flag of a multiplier as they are. -/
@[simp] theorem repeatCount_marked (mark : CopyMark) (c : Content) :
    (c.marked mark).repeatCount = c.repeatCount := by
  obtain ⟨number, isNew⟩ := mark
  cases number <;> cases isNew <;> rfl

@[simp] theorem isRepeating_marked (mark : CopyMark) (c : Content) :
    (c.marked mark).isRepeating = c.isRepeating := by
  rw [isRepeating, repeatCount_marked, (marked_isCopyOf mark c).implicitRepeat_eq, isRepeating]

@[simp] theorem copyNumbers_marked (mark : CopyMark) (c : Content) :
    (c.marked mark).copyNumbers = c.copyNumbers := by
  rw [copyNumbers, repeatCount_marked, copyNumbers]

/-- Marking commutes with taking the count as done. -/
theorem once_marked (mark : CopyMark) (c : Content) : (c.marked mark).once = c.once.marked mark := by
  obtain ⟨number, isNew⟩ := mark
  cases number <;> cases isNew <;> rfl

/-- The mark of a copy inside of what is marked already. -/
theorem copied_marked (number : Int) (mark : CopyMark) (c : Content) :
    (c.marked mark).copied number = c.marked ⟨some number, mark.isNew || decide (1 < number)⟩ := by
  obtain ⟨outer, isNew⟩ := mark
  rw [copied]
  cases outer <;> cases isNew <;> cases decide (1 < number) <;> rfl

/-- The first copy keeps its slots. -/
theorem copied_one (c : Content) : c.copied 1 = c.numbered 1 := rfl

/-- The first copy has the number one, and the others have the following numbers. -/
theorem copyNumbers_eq (c : Content) : c.copyNumbers =
    1 :: (List.range' 2 (c.repeatCount.toNat - 1)).map fun (number : Nat) => (number : Int) := by
  have count : max 1 c.repeatCount.toNat = c.repeatCount.toNat - 1 + 1 := by omega
  rw [copyNumbers, count, List.range_succ_eq_map, List.map_cons, List.map_map, List.range'_eq_map_range,
    List.map_map]
  congr 1
  refine List.map_congr_left fun k _ => ?_
  simp only [Function.comp_apply]
  omega

/-- What unrolling makes of a content are copies. -/
theorem isCopyOf_of_mem_copies {mark inner : CopyMark} {c copy : Content} (made : (inner, copy) ∈ c.copies mark) :
    IsCopyOf copy c := by
  rw [copies] at made
  by_cases repeating : c.isRepeating = true
  · rw [if_pos repeating] at made
    obtain ⟨number, -, same⟩ := List.mem_map.1 made
    obtain ⟨-, rfl⟩ := Prod.mk.inj same
    exact (marked_isCopyOf _ c.once).trans c.once_isCopyOf
  · rw [if_neg repeating, List.mem_singleton] at made
    obtain ⟨-, rfl⟩ := Prod.mk.inj made
    exact marked_isCopyOf ..

/-- The count and the number of a content are at least one. -/
structure IsCounted (c : Content) : Prop where
  /-- The count is at least one. -/
  repeatCount_pos : 1 ≤ c.repeatCount
  /-- The number is at least one. -/
  counter_pos : 1 ≤ c.counter

/-- A blank content is counted. -/
theorem isCounted_blank : IsCounted {} := ⟨Int.le_refl 1, Int.le_refl 1⟩

/-- Copies of a content that is counted are wanted once, their numbers are at least one, and so are the numbers that
are written on what is below them. -/
theorem IsCounted.of_mem_copies {mark inner : CopyMark} {c copy : Content} (counted : c.IsCounted)
    (positive : ∀ n ∈ mark.number, 1 ≤ n) (made : (inner, copy) ∈ c.copies mark) :
    copy.repeatCount = 1 ∧ 1 ≤ copy.counter ∧ ∀ n ∈ inner.number, 1 ≤ n := by
  rw [copies] at made
  by_cases repeating : c.isRepeating = true
  · -- the copies of a repeating content are numbered from one on
    rw [if_pos repeating] at made
    obtain ⟨number, wanted, same⟩ := List.mem_map.1 made
    obtain ⟨rfl, rfl⟩ := Prod.mk.inj same
    obtain ⟨k, -, rfl⟩ := List.mem_map.1 wanted
    have first : (1 : Int) ≤ (k : Int) + 1 := by omega
    refine ⟨?_, ?_, fun n same => ?_⟩
    · rw [repeatCount_marked, once_repeatCount]
    · exact first
    · rwa [← Option.some.inj same]
  · -- another content is its own copy, and it has the number of its mark, if there is one
    rw [if_neg repeating, List.mem_singleton] at made
    obtain ⟨rfl, rfl⟩ := Prod.mk.inj made
    simp only [isRepeating, Bool.or_eq_true, decide_eq_true_eq, not_or] at repeating
    have atLeast := counted.repeatCount_pos
    refine ⟨?_, ?_, positive⟩
    · rw [repeatCount_marked]
      omega
    · cases number : inner.number with
      | none =>
        have kept : (c.marked inner).counter = c.counter := by
          rw [marked, number]
          cases inner.isNew <;> rfl
        rw [kept]
        exact counted.counter_pos
      | some n =>
        have written : (c.marked inner).counter = n := by
          rw [marked, number]
          rfl
        rw [written]
        exact positive n number

end Content

namespace Node

/-- The node and everything below it as the copy with the given number. -/
def copy (number : Int) (n : Node) : Node := (n.withContent Content.once).mapAll (Content.copied number)

/-- What stands in the place of a node when it is unrolled: the node itself, or its numbered copies. -/
def instances (n : Node) : List Node :=
  if n.content.isRepeating then n.content.copyNumbers.map fun number => n.copy number else [n]

mutual
/-- Changing contents leaves the number of levels as it is. -/
theorem height_mapAll (f : Content → Content) : ∀ n : Node, (n.mapAll f).height = n.height
  | mk _ kids => by rw [mapAll, height, height, heightAll_mapEach f kids]

/-- Changing contents leaves the number of levels of a list of trees as it is. -/
theorem heightAll_mapEach (f : Content → Content) : ∀ nodes : List Node,
    heightAll (mapEach f nodes) = heightAll nodes
  | [] => by rw [mapEach]
  | n :: rest => by rw [mapEach, heightAll, heightAll, height_mapAll f n, heightAll_mapEach f rest]
end

/-- A copy has as many levels as the node. -/
theorem height_copy (number : Int) (n : Node) : (n.copy number).height = n.height := by
  obtain ⟨c, kids⟩ := n
  rw [copy, height_mapAll, withContent, height, height]

/-- A tree of a list has no more levels than the list. -/
theorem height_le_heightAll {n : Node} {nodes : List Node} (member : n ∈ nodes) :
    n.height ≤ heightAll nodes := by
  induction nodes with
  | nil => exact absurd member List.not_mem_nil
  | cons first rest ih =>
    rw [heightAll]
    rcases List.mem_cons.1 member with rfl | later
    · exact Nat.le_max_left ..
    · exact Nat.le_trans (ih later) (Nat.le_max_right ..)

/-- The tree unrolled, as it is meant: a child that is not repeating is unrolled; in the place of a repeating one stand
its copies, each of them unrolled. -/
def unrolled : Node → Node
  | mk c kids => mk c (kids.flatMap fun kid =>
      if kid.content.isRepeating then
        kid.content.copyNumbers.map fun number => unrolled (kid.copy number)
      else [unrolled kid])
termination_by n => n.height
decreasing_by
  all_goals
    rename_i member _
    have lower := height_le_heightAll member
    simp only [height_copy, height]
    omega

/-- The instances of the children are unrolled. -/
theorem unrolled_mk (c : Content) (kids : List Node) :
    unrolled (mk c kids) = mk c (kids.flatMap fun kid => kid.instances.map unrolled) := by
  rw [unrolled]
  congr 2
  funext kid
  rw [instances]
  by_cases repeating : kid.content.isRepeating = true
  · rw [if_pos repeating, if_pos repeating, List.map_map]
    rfl
  · rw [if_neg repeating, if_neg repeating]
    rfl

/-- The contents of a list of trees, in pre-order. -/
def contentsAll (nodes : List Node) : List Content := (preorderAll nodes).map content

@[simp] theorem contentsAll_nil : contentsAll [] = [] := by rw [contentsAll, preorderAll_nil, List.map_nil]

@[simp] theorem contentsAll_cons (c : Content) (kids rest : List Node) :
    contentsAll (mk c kids :: rest) = c :: (contentsAll kids ++ contentsAll rest) := by
  rw [contentsAll, preorderAll_cons, preorder_mk, List.cons_append, List.map_cons, content_mk,
    List.map_append, contentsAll, contentsAll]

theorem contentsAll_append (before after : List Node) :
    contentsAll (before ++ after) = contentsAll before ++ contentsAll after := by
  rw [contentsAll, preorderAll_append, List.map_append, contentsAll, contentsAll]

/-- What holds of the copies of suitable contents under allowed marks holds of all unrolled nodes, if the marks for what
is below the copies are allowed again. -/
theorem forall_mem_unrollAll {Suits Holds : Content → Prop} (Allowed : CopyMark → Prop)
    (made : ∀ {mark inner c copy}, Suits c → Allowed mark → (inner, copy) ∈ c.copies mark →
      Holds copy ∧ Allowed inner)
    {nodes : List Node} (suits : ∀ c ∈ contentsAll nodes, Suits c) {mark : CopyMark} (allowed : Allowed mark) :
    ∀ c ∈ contentsAll (unrollAll mark nodes), Holds c := by
  induction nodes using Node.induction generalizing mark with
  | nil =>
    rw [unrollAll_nil, contentsAll_nil]
    exact fun c inside => absurd inside List.not_mem_nil
  | cons c kids rest kidsInduction ih =>
    simp only [contentsAll_cons, List.mem_cons, List.mem_append, forall_eq_or_imp] at suits
    -- each copy of the node has what is below it unrolled under a mark of its own
    have trees : ∀ copies : List (CopyMark × Content), copies ⊆ c.copies mark →
        ∀ c ∈ contentsAll (copies.map fun copy => mk copy.2 (unrollAll copy.1 kids)), Holds c := by
      intro copies among
      induction copies with
      | nil =>
        rw [List.map_nil, contentsAll_nil]
        exact fun c inside => absurd inside List.not_mem_nil
      | cons first others othersInduction =>
        obtain ⟨madeFirst, madeOthers⟩ := List.cons_subset.1 among
        obtain ⟨holds, inner⟩ := made suits.1 allowed madeFirst
        rw [List.map_cons, contentsAll_cons]
        intro copy inside
        rcases List.mem_cons.1 inside with rfl | later
        · exact holds
        · rcases List.mem_append.1 later with below | beside
          · exact kidsInduction (fun c inside => suits.2 c (.inl inside)) inner copy below
          · exact othersInduction madeOthers copy beside
    rw [unrollAll_cons, contentsAll_append]
    intro copy inside
    rcases List.mem_append.1 inside with here | later
    · exact trees _ (List.Subset.refl _) copy here
    · exact ih (fun c inside => suits.2 c (.inr inside)) allowed copy later

/-- Unrolled nodes are wanted once, and their numbers are at least one. -/
theorem unrollAll_contents {mark : CopyMark} {nodes : List Node}
    (counted : ∀ c ∈ contentsAll nodes, c.IsCounted) (positive : ∀ n ∈ mark.number, 1 ≤ n) :
    ∀ c ∈ contentsAll (unrollAll mark nodes), c.repeatCount = 1 ∧ 1 ≤ c.counter := by
  refine forall_mem_unrollAll (fun mark => ∀ n ∈ mark.number, 1 ≤ n) (fun counted positive made => ?_)
    counted positive
  obtain ⟨once, numbered, inner⟩ := counted.of_mem_copies positive made
  exact ⟨⟨once, numbered⟩, inner⟩

/-- What is below an unrolled tree is unrolled without a mark. -/
theorem children_unroll (root : Node) : root.unroll.children = unrollAll {} root.children := by
  obtain ⟨c, kids⟩ := root
  rw [unroll_mk, children_mk, children_mk]

/-- Changing contents twice is changing them once. -/
theorem mapEach_mapEach (f g : Content → Content) (nodes : List Node) :
    mapEach g (mapEach f nodes) = mapEach (fun c => g (f c)) nodes := by
  induction nodes using Node.induction with
  | nil => rw [mapEach, mapEach, mapEach]
  | cons c kids rest kidsInduction ih =>
    rw [mapEach, mapAll, mapEach, mapAll, mapEach, mapAll, kidsInduction, ih]

/-- Changing nothing gives the same nodes. -/
theorem mapEach_self (nodes : List Node) : mapEach (fun c => c) nodes = nodes := by
  induction nodes using Node.induction with
  | nil => rw [mapEach]
  | cons c kids rest kidsInduction ih => rw [mapEach, mapAll, kidsInduction, ih]

/-- Unrolling below a mark is to mark and then to unroll. -/
theorem unrollAll_eq_flatMap (mark : CopyMark) (nodes : List Node) :
    unrollAll mark nodes =
      (mapEach (Content.marked mark) nodes).flatMap fun kid => kid.instances.map unrolled := by
  induction nodes using Node.induction generalizing mark with
  | nil => rw [unrollAll_nil, mapEach, List.flatMap_nil]
  | cons c kids rest kidsInduction ih =>
    rw [unrollAll_cons, mapEach, mapAll_mk, List.flatMap_cons, ih]
    congr 1
    rw [Content.copies, instances, content_mk, Content.isRepeating_marked]
    by_cases repeating : c.isRepeating = true
    · rw [if_pos repeating, if_pos repeating, Content.copyNumbers_marked, List.map_map, List.map_map]
      refine List.map_congr_left fun number _ => ?_
      -- the mark of the copy stands for both marks, on the node and below it
      have both := Content.copied_marked number mark
      simp only [Function.comp_apply, copy, withContent, mapAll_mk, unrolled_mk, kidsInduction,
        mapEach_mapEach, Content.once_marked, both]
    · rw [if_neg repeating, if_neg repeating, List.map_cons, List.map_nil, List.map_cons, List.map_nil,
        unrolled_mk, kidsInduction]

/-- Unrolling gives the tree that is meant. -/
theorem unroll_eq_unrolled (n : Node) : n.unroll = n.unrolled := by
  obtain ⟨c, kids⟩ := n
  have nothing : Content.marked {} = fun c => c := funext Content.marked_none
  rw [unroll_mk, unrolled_mk, unrollAll_eq_flatMap, nothing, mapEach_self]

end Node

end Shorthand
