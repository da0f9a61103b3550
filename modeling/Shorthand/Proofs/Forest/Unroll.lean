import Shorthand.Forest.Optimize
import Shorthand.Proofs.Grove.Count
import Shorthand.Proofs.Forest.Copy
import Shorthand.Proofs.Forest.Edit

/-! # Unrolling a well-formed forest

The pass that unrolls repeating nodes in place adds new nodes and touches old ones, but it never forgets which old node
a new one is a copy of. With origins and contents as labels the grove that it leaves below a node is the grove that was
there, unrolled.

* **`Forest.viewFrom`** — a grove of nodes with their origins and contents.
* **`Forest.Grows`** — new nodes have been added below a node, each as a copy of an old one.
* `Forest.Bears.addCopies` — adding numbered copies after a child.
* `Forest.Bears.unrollChildren` — the pass over the children of one node.
* `Forest.Bears.unrollWithin` — the pass over all levels. -/

namespace Shorthand.Forest

/-- A grove of nodes with their contents, each with the node that it is a copy of. -/
def viewFrom (f : Forest) (origin : NodeId → NodeId) (g : Grove NodeId) : Grove (NodeId × Content) :=
  g.map fun x => (origin x, f.content x)

/-- A grove of nodes with their contents, each node being its own origin. -/
def view (f : Forest) (g : Grove NodeId) : Grove (NodeId × Content) := f.viewFrom (fun x => x) g

/-- New nodes have been added below a node, each as a copy of an old one. Some old nodes below it may have been
touched, but what else was there is as it was. -/
structure Grows (f f' : Forest) (id : NodeId) (touched : List NodeId) (origin : NodeId → NodeId) :
    Prop where
  /-- Other old nodes are as they were. -/
  keeps : Keeps f f' (id :: touched)
  /-- The content of the node is as it was. -/
  content_eq : f'.content id = f.content id
  /-- The node is linked as it was. -/
  parent?_eq : f'.parent? id = f.parent? id
  /-- An old node is a copy of itself. -/
  origin_eq : ∀ x < f.size, origin x = x

variable {f f₁ f₂ : Forest} {id c : NodeId} {g g' before below after : Grove NodeId}
  {touched : List NodeId} {origin origin₁ origin₂ : NodeId → NodeId}

/-! ## Origins -/

@[simp] theorem viewFrom_nil (f : Forest) (origin : NodeId → NodeId) :
    f.viewFrom origin .nil = .nil := rfl

@[simp] theorem viewFrom_append (f : Forest) (origin : NodeId → NodeId) (g h : Grove NodeId) :
    f.viewFrom origin (g ++ h) = f.viewFrom origin g ++ f.viewFrom origin h := Grove.map_append ..

@[simp] theorem viewFrom_cons (f : Forest) (origin : NodeId → NodeId) (x : NodeId)
    (below rest : Grove NodeId) : f.viewFrom origin (.cons x below rest) =
      .cons (origin x, f.content x) (f.viewFrom origin below) (f.viewFrom origin rest) := rfl

@[simp] theorem view_nil (f : Forest) : f.view .nil = .nil := rfl

@[simp] theorem view_append (f : Forest) (g h : Grove NodeId) :
    f.view (g ++ h) = f.view g ++ f.view h := viewFrom_append ..

@[simp] theorem view_cons (f : Forest) (x : NodeId) (below rest : Grove NodeId) :
    f.view (.cons x below rest) = .cons (x, f.content x) (f.view below) (f.view rest) := rfl

/-- The origins of a view may be changed. -/
theorem mapOrigin_viewFrom (f : Forest) (change origin : NodeId → NodeId) (g : Grove NodeId) :
    (f.viewFrom origin g).mapOrigin change = f.viewFrom (fun x => change (origin x)) g := by
  rw [Grove.mapOrigin, viewFrom, viewFrom, Grove.map_map]

/-- A view depends on the origins and the contents of the nodes in it. -/
theorem viewFrom_congr (same : ∀ x ∈ g.labels, origin₂ x = origin₁ x ∧ f₂.content x = f₁.content x) :
    f₂.viewFrom origin₂ g = f₁.viewFrom origin₁ g :=
  Grove.map_congr fun x inside => Prod.ext (same x inside).1 (same x inside).2

namespace Grows

/-- Nothing has been added. -/
theorem refl (f : Forest) (id : NodeId) (touched : List NodeId) :
    Grows f f id touched fun x => x :=
  ⟨.refl .., rfl, rfl, fun _ _ => rfl⟩

/-- What is added later is a copy of what the node that it copies is a copy of. -/
theorem trans {later : List NodeId} (first : Grows f f₁ id touched origin₁)
    (second : Grows f₁ f₂ id later origin₂) (known : ∀ x ∈ later, x < f.size → x ∈ touched) :
    Grows f f₂ id touched fun x => origin₁ (origin₂ x) := by
  refine ⟨first.keeps.trans second.keeps fun x inside old => ?_, ?_, ?_, fun x old => ?_⟩
  · rcases List.mem_cons.1 inside with rfl | inLater
    · exact List.mem_cons_self
    · exact List.mem_cons_of_mem _ (known x inLater old)
  · rw [second.content_eq, first.content_eq]
  · rw [second.parent?_eq, first.parent?_eq]
  · rw [second.origin_eq x (Nat.lt_of_lt_of_le old first.keeps.size_le), first.origin_eq x old]

/-- More nodes may be allowed to be touched. -/
theorem mono {more : List NodeId} (grows : Grows f f₁ id touched origin) (subset : touched ⊆ more) :
    Grows f f₁ id more origin :=
  ⟨grows.keeps.mono (List.cons_subset_cons id subset), grows.content_eq, grows.parent?_eq,
    grows.origin_eq⟩

/-- The view of what was not touched later stays as it was. -/
theorem viewFrom_eq (origin₁ : NodeId → NodeId) (second : Grows f₁ f₂ id touched origin₂)
    (others : ∀ x ∈ g.labels, x < f₁.size ∧ x ≠ id ∧ x ∉ touched) :
    (f₂.viewFrom (fun x => origin₁ (origin₂ x)) g) = f₁.viewFrom origin₁ g := by
  refine viewFrom_congr fun x inside => ?_
  obtain ⟨old, ne, untouched⟩ := others x inside
  rw [second.origin_eq x old, second.keeps.content_eq old fun touched =>
    (List.mem_cons.1 touched).elim ne untouched]
  exact ⟨rfl, rfl⟩

/-- What a later change that does not look at origins makes of nodes that the first left alone. -/
theorem viewFrom_change {change : Grove (NodeId × Content) → Grove (NodeId × Content)}
    (first : Grows f f₁ id touched origin₁)
    (commute : ∀ v, (change v).mapOrigin origin₁ = change (v.mapOrigin origin₁))
    (others : ∀ x ∈ g.labels, x < f.size ∧ x ≠ id ∧ x ∉ touched)
    (later : f₂.viewFrom origin₂ g' = change (f₁.view g)) :
    f₂.viewFrom (fun x => origin₁ (origin₂ x)) g' = change (f.view g) := by
  have moved : f₁.viewFrom origin₁ g = f.view g := viewFrom_congr fun x inside => by
    obtain ⟨old, ne, untouched⟩ := others x inside
    refine ⟨first.origin_eq x old, first.keeps.content_eq old fun touched => ?_⟩
    exact (List.mem_cons.1 touched).elim ne untouched
  rw [← mapOrigin_viewFrom, later, commute, view, mapOrigin_viewFrom, moved]

end Grows

/-! ## One copy -/

/-- The tree of a child in the grove that a node bears. -/
theorem Bears.child (bears : f.Bears id (before ++ .cons c below after)) : f.Bears c below :=
  (stands_append.1 bears.stands).2.bears_below
    (List.nodup_append.1 (Grove.labels_append before _ ▸ bears.nodup)).2.1

/-- The nodes of that tree are other nodes of the forest. -/
theorem Bears.other_of_child (bears : f.Bears id (before ++ .cons c below after)) {x : NodeId}
    (inside : x ∈ (Grove.cons c below .nil).labels) : x < f.size ∧ x ≠ id := by
  refine bears.other ?_
  simp only [Grove.labels_cons, Grove.labels_nil, List.append_nil] at inside
  simp only [Grove.labels_append, Grove.labels_cons, List.mem_append, List.mem_cons]
  exact .inr ((List.mem_cons.1 inside).imp_right .inl)

/-- Numbering a node and everything below it numbers the contents of its grove. -/
theorem Bears.update_counter (bears : f.Bears id g) (number : Int) :
    (f.update id (.counter number)).size = f.size ∧
      ∀ x, (f.update id (.counter number)).cell x =
        ⟨if x ∈ id :: g.labels then (f.content x).numbered number else f.content x, f.parent? x,
          f.children x⟩ :=
  bears.cell_modifyAll _

/-- Numbering a child of a node moves nothing. -/
theorem Bears.update_child (bears : f.Bears id (before ++ .cons c below after)) (number : Int) :
    (f.update c (.counter number)).Bears id (before ++ .cons c below after) := by
  obtain ⟨size, cells⟩ := bears.child.update_counter number
  refine bears.of_links size.ge ?_ fun x _ => ⟨?_, ?_⟩
  · rw [children, cells]
  · rw [parent?, cells]
  · rw [children, cells]

/-- The new nodes of a copy, as copies of the nodes that they stand for. -/
def originOfCopy (f : Forest) (nodes : List NodeId) (x : NodeId) : NodeId :=
  if x < f.size then x else nodes[x - f.size]?.getD x

/-- The identities of a copy are counted from the size of the forest on, and so they lead back to what was copied. -/
theorem map_originOfCopy (f : Forest) (h : Grove NodeId) :
    (h.numbered f.size).map (f.originOfCopy h.labels) = h := by
  refine Grove.map_numbered fun i inside => ?_
  rw [originOfCopy, if_neg (Nat.not_lt.2 (Nat.le_add_right ..)), Nat.add_sub_cancel_left,
    List.getElem?_eq_getElem inside, Option.getD_some]

/-- A copy that was made of new nodes is put right after the child that it is a copy of. -/
theorem Bears.listCopy {copy : NodeId} (bears : f.Bears id (before ++ .cons c below after))
    (keeps : Keeps f f₁ []) (copyBears : f₁.Bears copy g) (new : ∀ x ∈ copy :: g.labels, f.size ≤ x) :
    (f₁.addChild id copy (some (before.roots.length + 1 : Nat))).Bears id
      ((before ++ .cons c below .nil) ++ .cons copy g after) := by
  have regroup : before ++ .cons c below after = (before ++ .cons c below .nil) ++ after := by
    rw [Grove.append_assoc, Grove.cons_append, Grove.nil_append]
  have bears₁ : f₁.Bears id ((before ++ .cons c below .nil) ++ after) := by
    rw [← regroup]
    refine bears.of_links keeps.size_le (keeps.children_eq bears.inside List.not_mem_nil)
      fun x inside => ?_
    have inside := bears.stands.lt_size inside
    exact ⟨keeps.parent?_eq inside List.not_mem_nil, keeps.children_eq inside List.not_mem_nil⟩
  refine bears₁.addChild copyBears (fun x inside among => ?_) ?_
  · rw [← regroup] at among
    exact Nat.not_lt_of_le (new x inside) (bears.lt_size among)
  · have place := insertAt_length copy (before ++ .cons c below .nil : Grove NodeId).roots after.roots
    simpa using place

/-- What a forest is after a child was added and numbered. -/
theorem cell_addChild_update {position : Option Int} (inside : id < f.size) (childBears : f.Bears c g)
    (listed : (f.addChild id c position).Bears c g) (number : Int) (x : NodeId) :
    ((f.addChild id c position).update c (.counter number)).cell x =
      ⟨if x ∈ c :: g.labels then (f.content x).numbered number else f.content x,
        if x = c then some id else f.parent? x,
        if x = id then insertAt position c (f.children x) else f.children x⟩ := by
  have cells := cell_addChild position inside childBears.inside x
  rw [(listed.update_counter number).2, content, parent?, children, cells]

/-- A numbered copy of a child, put right after the child, is a new tree with the numbered contents of the child. -/
theorem Bears.addCopy (bears : f.Bears id (before ++ .cons c below after)) {number : Int}
    (later : 1 < number) :
    ∃ f' copy origin, addCopy id before.roots.length c f number = f' ∧
      f'.Bears id (before ++ .cons c below (copy ++ after)) ∧ (∀ x ∈ copy.labels, f.size ≤ x) ∧
      Grows f f' id [] origin ∧
      f'.viewFrom origin copy =
        (f.view (.cons c below .nil)).mapContent (Content.copied number) := by
  obtain ⟨f₁, cloned, copyBears, -, root, contents, keeps⟩ := bears.child.clone
  let tree := Grove.cons c below .nil
  have labels : (tree.numbered f.size).labels = f.size :: (below.numbered (f.size + 1)).labels := by
    show f.size :: (_ ++ []) = _
    rw [List.append_nil]
  have new : ∀ x ∈ (tree.numbered f.size).labels, f.size ≤ x := by
    intro x inside
    rw [Grove.labels_numbered, List.mem_range'_1] at inside
    exact inside.1
  -- the copy is listed and numbered
  have listed := bears.listCopy keeps copyBears fun x inside => new x (labels ▸ inside)
  have inside : id < f₁.size := Nat.lt_of_lt_of_le bears.inside keeps.size_le
  have cells := cell_addChild_update inside copyBears listed.child number
  rw [← labels] at cells
  let f' := (f₁.addChild id f.size (some (before.roots.length + 1 : Nat))).update f.size (.counter number)
  have size : f'.size = f₁.size :=
    (listed.child.update_counter number).1.trans (size_addChild ..)
  -- old nodes stay as they were, apart from the list of the node
  have content_eq : ∀ x < f.size, f'.content x = f.content x := by
    intro x old
    have other : x ∉ (tree.numbered f.size).labels := fun among => Nat.not_lt_of_le (new x among) old
    rw [content, cells, if_neg other, keeps.content_eq old List.not_mem_nil]
  have parent?_eq : ∀ x < f.size, f'.parent? x = f.parent? x := by
    intro x old
    rw [parent?, cells, if_neg (Nat.ne_of_lt old), keeps.parent?_eq old List.not_mem_nil]
  have children_eq : ∀ x < f.size, x ≠ id → f'.children x = f.children x := by
    intro x old ne
    rw [children, cells, if_neg ne, keeps.children_eq old List.not_mem_nil]
  refine ⟨f', tree.numbered f.size, f.originOfCopy tree.labels, ?_, ?_, new, ⟨⟨?_, ?_⟩, ?_, ?_, ?_⟩, ?_⟩
  · rw [Forest.addCopy, cloned]
  · have bears' := listed.update_child number
    rwa [Grove.append_assoc] at bears'
  · rw [size]
    exact keeps.size_le
  · intro x old other
    exact cell_ext (content_eq x old) (parent?_eq x old)
      (children_eq x old fun same => other (same ▸ List.mem_cons_self))
  · exact content_eq id bears.inside
  · exact parent?_eq id bears.inside
  · intro x old
    rw [originOfCopy, if_pos old]
  · have copied : (tree.numbered f.size).map f₁.content = tree.map fun x => (f.content x).withoutSlots := by
      show Grove.cons (f₁.content f.size) ((below.numbered (f.size + 1)).map f₁.content) .nil = _
      rw [content, root, contents]
      rfl
    have numbered : (tree.numbered f.size).map f'.content = tree.map fun x => (f.content x).copied number := by
      have all : (tree.numbered f.size).map f'.content =
          (tree.numbered f.size).map fun x => (f₁.content x).numbered number :=
        Grove.map_congr fun x among => by rw [content, cells, if_pos among]
      rw [all, ← Grove.map_map f₁.content, copied, Grove.map_map]
      refine Grove.map_congr fun x _ => ?_
      rw [Content.copied, decide_eq_true later]
      rfl
    have origins : (tree.numbered f.size).map (f.originOfCopy tree.labels) = tree.map fun x => x := by
      rw [map_originOfCopy, Grove.map_eq_self fun _ _ => rfl]
    rw [view, viewFrom, viewFrom, Grove.mapContent, Grove.map_map]
    exact Grove.map_pair origins numbered

/-! ## All copies of a child -/

/-- Copies are put right after the child, so that the last one that is made comes first. -/
theorem Bears.addCopies (bears : f.Bears id (before ++ .cons c below after)) {numbers : List Nat}
    (later : ∀ number ∈ numbers, 1 < number) :
    ∃ f' copies origin,
      numbers.foldl (fun f number => Forest.addCopy id before.roots.length c f (number : Nat)) f = f' ∧
      f'.Bears id (before ++ .cons c below (copies ++ after)) ∧ (∀ x ∈ copies.labels, f.size ≤ x) ∧
      Grows f f' id [] origin ∧
      f'.viewFrom origin copies =
        (f.view (.cons c below .nil)).copiesOf (numbers.reverse.map fun (number : Nat) => (number : Int)) := by
  induction numbers generalizing f after with
  | nil =>
    refine ⟨f, .nil, fun x => x, rfl, ?_, fun x inside => absurd inside List.not_mem_nil, .refl ..,
      rfl⟩
    rwa [Grove.nil_append]
  | cons number rest ih =>
    -- the copy that is made first ends up last: the later ones are put before it
    obtain ⟨f₁, copy, origin₁, run₁, bears₁, new₁, grows₁, view₁⟩ :=
      bears.addCopy (Int.ofNat_lt.2 (later number List.mem_cons_self))
    obtain ⟨f₂, copies, origin₂, run₂, bears₂, new₂, grows₂, view₂⟩ :=
      ih bears₁ fun n inside => later n (List.mem_cons_of_mem _ inside)
    have grows := grows₁.trans grows₂ fun x inside _ => inside
    refine ⟨f₂, copies ++ copy, fun x => origin₁ (origin₂ x), ?_, ?_, ?_, grows, ?_⟩
    · rw [List.foldl_cons, run₁, run₂]
    · rwa [Grove.append_assoc]
    · intro x inside
      rw [Grove.labels_append] at inside
      rcases List.mem_append.1 inside with early | late
      · exact Nat.le_trans grows₁.keeps.size_le (new₂ x early)
      · exact new₁ x late
    · -- the child is as it was when the later copies are made, and so is the copy afterwards
      have early : f₂.viewFrom (fun x => origin₁ (origin₂ x)) copies =
          (f.view (.cons c below .nil)).copiesOf (rest.reverse.map fun (number : Nat) => (number : Int)) := by
        refine grows₁.viewFrom_change (Grove.mapOrigin_copiesOf _ _) (fun x inside => ?_) view₂
        obtain ⟨old, ne⟩ := bears.other_of_child inside
        exact ⟨old, ne, List.not_mem_nil⟩
      have late : f₂.viewFrom (fun x => origin₁ (origin₂ x)) copy =
          (f.view (.cons c below .nil)).mapContent (Content.copied number) := by
        rw [← view₁]
        refine grows₂.viewFrom_eq origin₁ fun x inside => ?_
        have among : x ∈ (before ++ .cons c below (copy ++ after)).labels := by
          simp only [Grove.labels_append, Grove.labels_cons, List.mem_append, List.mem_cons]
          exact .inr (.inr (.inr (.inl inside)))
        exact ⟨(bears₁.other among).1, (bears₁.other among).2, List.not_mem_nil⟩
      rw [viewFrom_append, early, late, List.reverse_cons, List.map_append, Grove.copiesOf_append]
      rfl

/-- A repeating child becomes the first of its copies. -/
theorem Bears.firstCopy (bears : f.Bears id (before ++ .cons c below after)) :
    ∃ f', (f.modifyContent c Content.once).update c (.counter 1) = f' ∧
      f'.Bears id (before ++ .cons c below after) ∧
      Grows f f' id (c :: below.labels) (fun x => x) ∧
      f'.view (.cons c below .nil) =
        (Grove.cons (c, (f.content c).once) (f.view below) .nil).mapContent (Content.copied 1) := by
  have apart := bears.apart
  have childBears := bears.child
  have counted : (f.modifyContent c Content.once).Bears c below :=
    childBears.of_links (size_modifyContent ..).ge (children_modifyContent ..) fun x _ =>
      ⟨parent?_modifyContent .., children_modifyContent ..⟩
  obtain ⟨size, cells⟩ := counted.update_counter 1
  simp only [content_modifyContent f Content.once childBears.inside, parent?_modifyContent,
    children_modifyContent, size_modifyContent] at size cells
  let f' := (f.modifyContent c Content.once).update c (.counter 1)
  have links : ∀ x, f'.parent? x = f.parent? x ∧ f'.children x = f.children x := fun x => by
    rw [parent?, children, cells]
    exact ⟨rfl, rfl⟩
  have contents : ∀ x, f'.content x =
      if x ∈ c :: below.labels then (if x = c then (f.content x).once else f.content x).numbered 1
      else if x = c then (f.content x).once else f.content x := fun x => by
    rw [content, cells]
  -- only contents below the child have changed, and no links
  have others : ∀ x, x ∉ c :: below.labels → f'.content x = f.content x := fun x other => by
    rw [contents, if_neg other, if_neg fun same : x = c => other (same ▸ List.mem_cons_self)]
  have top : id ∉ c :: below.labels := fun inside =>
    (List.mem_cons.1 inside).elim (fun same => apart.ne same.symm) apart.top.2.1
  refine ⟨f', rfl, ?_, ⟨⟨size.ge, fun x _ other => ?_⟩, others id top, (links id).1, fun _ _ => rfl⟩, ?_⟩
  · exact bears.of_links size.ge (links id).2 fun x _ => links x
  · rw [List.mem_cons, not_or] at other
    exact cell_ext (others x other.2) (links x).1 (links x).2
  · rw [view_cons, Grove.mapContent_cons, contents, if_pos List.mem_cons_self, if_pos rfl]
    refine congrArg (fun below => Grove.cons _ below .nil) ?_
    rw [view, view, viewFrom, viewFrom, Grove.mapContent, Grove.map_map]
    refine Grove.map_congr fun x inside => Prod.ext rfl ?_
    show f'.content x = (f.content x).copied 1
    rw [contents, if_pos (List.mem_cons_of_mem _ inside),
      if_neg fun same : x = c => apart.root.2.1 (same ▸ inside), Content.copied_one]

/-- A child gives its place to its copies, or it stays as it is. -/
theorem Bears.unrollChild (bears : f.Bears id (before ++ .cons c below after)) :
    ∃ f' copies origin, Forest.unrollChild id f before.roots.length = f' ∧
      f'.Bears id (before ++ (copies ++ after)) ∧
      (∀ x ∈ copies.labels, x ∈ c :: below.labels ∨ f.size ≤ x) ∧
      Grows f f' id (c :: below.labels) origin ∧
      f'.viewFrom origin copies = (f.view (.cons c below .nil)).expand := by
  have child : (f.children id)[before.roots.length]? = some c := by
    rw [bears.lists, Grove.roots_append, Grove.roots_cons]
    simp
  rw [Forest.unrollChild, child]
  dsimp only
  by_cases repeating : (f.content c).isRepeating = true
  · rw [if_pos repeating]
    obtain ⟨f₁, run₁, bears₁, grows₁, view₁⟩ := bears.firstCopy
    have later : ∀ number ∈ (List.range' 2 ((f.content c).repeatCount.toNat - 1)).reverse,
        1 < number := by
      intro number inside
      rw [List.mem_reverse, List.mem_range'_1] at inside
      exact inside.1
    obtain ⟨f₂, copies, origin, run₂, bears₂, new, grows₂, view₂⟩ := bears₁.addCopies later
    rw [List.reverse_reverse] at view₂
    refine ⟨f₂, .cons c below copies, origin, ?_, ?_, ?_, ?_, ?_⟩
    · rw [run₁, run₂]
    · exact bears₂
    · intro x inside
      rw [Grove.labels_cons, List.mem_cons, List.mem_append] at inside
      rcases inside with rfl | inBelow | inCopies
      · exact .inl List.mem_cons_self
      · exact .inl (List.mem_cons_of_mem _ inBelow)
      · exact .inr (Nat.le_trans grows₁.keeps.size_le (new x inCopies))
    · exact grows₁.trans (grows₂.mono (List.nil_subset _)) fun x inside _ => inside
    · -- the child itself is the first copy
      have first : f₂.viewFrom origin (.cons c below .nil) = f₁.view (.cons c below .nil) := by
        refine grows₂.viewFrom_eq (fun x => x) fun x inside => ?_
        obtain ⟨old, ne⟩ := bears₁.other_of_child inside
        exact ⟨old, ne, List.not_mem_nil⟩
      have split : Grove.cons c below copies = .cons c below .nil ++ copies := rfl
      rw [split, viewFrom_append, first, view₂, view₁, Grove.copiesOf_mapContent_copied]
      rw [view_cons, view_nil, Grove.expand, if_pos repeating, Grove.expand_nil,
        Grove.append_nil, Content.copyNumbers_eq, Grove.copiesOf_cons]
  · -- a child that is not repeating is its only instance
    rw [if_neg repeating]
    refine ⟨f, .cons c below .nil, fun x => x, rfl, ?_, fun x inside => ?_, .refl .., ?_⟩
    · rwa [Grove.cons_append, Grove.nil_append]
    · rw [Grove.labels_cons, Grove.labels_nil, List.append_nil] at inside
      exact .inl inside
    · rw [view_cons, view_nil, Grove.expand, if_neg repeating, Grove.expand_nil, Grove.append_nil]
      rfl

/-! ## The children of one node -/

/-- Unrolling the children from the last one of some to the first puts the copies in their places, and those after them
stay. -/
theorem Bears.unrollChildren {todo done : Grove NodeId} (bears : f.Bears id (todo ++ done)) :
    ∃ f' g' origin,
      (List.range todo.roots.length).reverse.foldl (Forest.unrollChild id) f = f' ∧
      f'.Bears id (g' ++ done) ∧ (∀ x ∈ g'.labels, x ∈ todo.labels ∨ f.size ≤ x) ∧
      Grows f f' id todo.labels origin ∧ f'.viewFrom origin g' = (f.view todo).expand := by
  obtain ⟨n, count⟩ : ∃ n, todo.roots.length = n := ⟨_, rfl⟩
  induction n generalizing f todo done with
  | zero =>
    obtain rfl : todo = .nil := by
      cases todo with
      | nil => rfl
      | cons c below rest => exact absurd count (Nat.succ_ne_zero _)
    exact ⟨f, .nil, fun x => x, rfl, bears, fun x inside => .inl inside, .refl .., rfl⟩
  | succ n ih =>
    rcases todo.eq_nil_or_append with rfl | ⟨front, c, below, rfl⟩
    · exact absurd count (Nat.succ_ne_zero n).symm
    · rw [Grove.append_assoc, Grove.cons_append, Grove.nil_append] at bears
      have place : (front ++ .cons c below .nil).roots.length = front.roots.length + 1 := by simp
      rw [place, Nat.add_right_cancel_iff] at count
      have apart := bears.apart
      -- the last child first, then those before it
      obtain ⟨f₁, copies, origin₁, run₁, bears₁, known₁, grows₁, view₁⟩ := bears.unrollChild
      obtain ⟨f₂, g', origin₂, run₂, bears₂, known₂, grows₂, view₂⟩ := ih bears₁ count
      refine ⟨f₂, g' ++ copies, fun x => origin₁ (origin₂ x), ?_, ?_, ?_, ?_, ?_⟩
      · rw [place, List.range_succ, List.reverse_append, List.reverse_singleton, List.singleton_append,
          List.foldl_cons, run₁, run₂]
      · rwa [Grove.append_assoc]
      · intro x inside
        simp only [Grove.labels_append, Grove.labels_cons, Grove.labels_nil, List.append_nil,
          List.mem_append] at inside ⊢
        rcases inside with inFront | inCopies
        · exact (known₂ x inFront).imp .inl fun new => Nat.le_trans grows₁.keeps.size_le new
        · exact (known₁ x inCopies).imp_left .inr
      · refine (grows₁.mono ?_).trans grows₂ fun x inside _ => ?_
        · simp
        · rw [Grove.labels_append]
          exact List.mem_append_left _ inside
      · -- neither part touches what the other one makes
        have early : f₂.viewFrom (fun x => origin₁ (origin₂ x)) g' = (f.view front).expand := by
          refine grows₁.viewFrom_change (Grove.mapOrigin_expand _) (fun x inside => ?_) view₂
          have among := bears.other (Grove.labels_append front _ ▸ List.mem_append_left _ inside)
          refine ⟨among.1, among.2, fun touched => ?_⟩
          rcases List.mem_cons.1 touched with rfl | inBelow
          · exact apart.root.1 inside
          · exact (apart.inner x inBelow).1 inside
        have late : f₂.viewFrom (fun x => origin₁ (origin₂ x)) copies =
            (f.view (.cons c below .nil)).expand := by
          rw [← view₁]
          refine grows₂.viewFrom_eq origin₁ fun x inside => ?_
          have distinct := bears₁.nodup
          rw [Grove.labels_append, Grove.labels_append, List.nodup_append] at distinct
          have among := bears₁.other (x := x) (by
            rw [Grove.labels_append, Grove.labels_append]
            exact List.mem_append_right _ (List.mem_append_left _ inside))
          exact ⟨among.1, among.2, fun touched =>
            distinct.2.2 x touched x (List.mem_append_left _ inside) rfl⟩
        rw [viewFrom_append, early, late, view_append, Grove.expand_append]

/-! ## All levels -/

/-- If the pass unrolls what a node bears, then going on with the roots of a standing grove unrolls what is below each
of them. -/
theorem foldl_unrollWithin_of_stands {levels : Nat}
    (pass : ∀ {f : Forest} {c : NodeId} {below : Grove NodeId}, f.Bears c below →
      below.height ≤ levels → ∃ f' below' origin, unrollWithin levels c f = f' ∧ f'.Bears c below' ∧
        (∀ x ∈ below'.labels, x ∈ below.labels ∨ f.size ≤ x) ∧
        Grows f f' c below.labels origin ∧
        f'.viewFrom origin below' = (f.view below).unrollWithin levels)
    (stands : f.Stands id g) (distinct : (id :: g.labels).Nodup) (inside : id < f.size)
    (enough : g.height ≤ levels + 1) :
    ∃ f' g' origin, g.roots.foldl (fun f child => unrollWithin levels child f) f = f' ∧
      f'.Stands id g' ∧ g'.roots = g.roots ∧ f'.children id = f.children id ∧ g'.labels.Nodup ∧
      (∀ x ∈ g'.labels, x ∈ g.labels ∨ f.size ≤ x) ∧ Grows f f' id g.labels origin ∧
      f'.viewFrom origin g' = (f.view g).mapBelow (Grove.unrollWithin levels) := by
  induction g generalizing f with
  | nil =>
    exact ⟨f, .nil, fun x => x, rfl, stands_nil, rfl, rfl, List.nodup_nil,
      fun x inside => absurd inside List.not_mem_nil, .refl .., rfl⟩
  | cons c below rest _ ih =>
    have apart : Apart id c .nil below rest := .of_nodup distinct
    obtain ⟨-, notBelow, notRest⟩ := apart.top
    obtain ⟨-, -, cNotRest⟩ := apart.root
    have childBears := stands.bears_below (List.nodup_cons.1 distinct).2
    have restStands := stands.2.2.2.2
    rw [Grove.height_cons] at enough
    -- first the tree of the child
    obtain ⟨f₁, below', origin₁, run₁, bears₁, known₁, grows₁, view₁⟩ := pass childBears (by omega)
    have top : id ∉ c :: below.labels := fun among =>
      (List.mem_cons.1 among).elim apart.ne.symm notBelow
    have grown : Grows f f₁ id (c :: below.labels) origin₁ :=
      ⟨grows₁.keeps.mono (List.subset_cons_self ..), grows₁.keeps.content_eq inside top,
        grows₁.keeps.parent?_eq inside top, grows₁.origin_eq⟩
    have restOther : ∀ x ∈ rest.labels, x ∉ c :: below.labels := fun x inRest among =>
      (List.mem_cons.1 among).elim (fun same => cNotRest (same ▸ inRest))
        fun inBelow => (apart.inner x inBelow).2 inRest
    -- then the other trees
    obtain ⟨f₂, rest', origin₂, run₂, stands₂, roots₂, kids₂, distinct₂, known₂, grows₂, view₂⟩ :=
      ih (restStands.of_keeps grows₁.keeps restOther) apart.rest
        (Nat.lt_of_lt_of_le inside grown.keeps.size_le) (by omega)
    -- what the pass has made of the child stays apart from the others
    have cOther : c ∉ id :: rest.labels := fun among =>
      (List.mem_cons.1 among).elim apart.ne cNotRest
    have belowOther : ∀ x ∈ below'.labels, x ∉ id :: rest.labels := by
      intro x inBelow' among
      rcases known₁ x inBelow' with inBelow | new
      · exact (List.mem_cons.1 among).elim (fun same => notBelow (same ▸ inBelow))
          fun inRest => (apart.inner x inBelow).2 inRest
      · refine Nat.not_lt_of_le new ?_
        rcases List.mem_cons.1 among with rfl | inRest
        · exact inside
        · exact restStands.lt_size inRest
    refine ⟨f₂, .cons c below' rest', fun x => origin₁ (origin₂ x), ?_, ⟨?_, ?_, ?_, ?_, stands₂⟩, ?_,
      ?_, ?_, ?_, ?_, ?_⟩
    · rw [Grove.roots_cons, List.foldl_cons, run₁, run₂]
    · exact Nat.lt_of_lt_of_le bears₁.inside grows₂.keeps.size_le
    · rw [grows₂.keeps.parent?_eq bears₁.inside cOther, grows₁.parent?_eq]
      exact stands.2.1
    · rw [grows₂.keeps.children_eq bears₁.inside cOther, bears₁.lists]
    · exact bears₁.stands.of_keeps grows₂.keeps belowOther
    · rw [Grove.roots_cons, roots₂, Grove.roots_cons]
    · rw [kids₂, grows₁.keeps.children_eq inside top]
    · -- the new nodes of the later trees follow those of the first
      have notRest' : ∀ x < f₁.size, x ∉ rest.labels → x ∉ rest'.labels := fun x early other among =>
        (known₂ x among).elim other (Nat.not_le_of_lt early)
      rw [Grove.labels_cons, List.nodup_cons, List.mem_append, not_or, List.nodup_append]
      refine ⟨⟨bears₁.not_mem, notRest' c bears₁.inside cNotRest⟩, bears₁.nodup, distinct₂, ?_⟩
      rintro x inBelow' y inRest' rfl
      exact notRest' x (bears₁.stands.lt_size inBelow')
        (fun inRest => belowOther x inBelow' (List.mem_cons_of_mem _ inRest)) inRest'
    · intro x among
      simp only [Grove.labels_cons, List.mem_cons, List.mem_append] at among ⊢
      rcases among with same | inBelow' | inRest'
      · exact .inl (.inl same)
      · exact (known₁ x inBelow').imp_left fun inBelow => .inr (.inl inBelow)
      · exact (known₂ x inRest').imp (fun inRest => .inr (.inr inRest))
          (Nat.le_trans grown.keeps.size_le)
    · refine (grown.mono ?_).trans grows₂ fun x inRest _ => ?_
      · exact List.cons_subset_cons c (List.subset_append_left ..)
      · exact List.mem_cons_of_mem _ (List.mem_append_right _ inRest)
    · have early : f₂.viewFrom (fun x => origin₁ (origin₂ x)) below' =
          (f.view below).unrollWithin levels := by
        rw [← view₁]
        refine grows₂.viewFrom_eq origin₁ fun x among => ⟨bears₁.stands.lt_size among, ?_⟩
        exact not_or.1 (List.mem_cons.not.1 (belowOther x among))
      have late : f₂.viewFrom (fun x => origin₁ (origin₂ x)) rest' =
          (f.view rest).mapBelow (Grove.unrollWithin levels) := by
        refine grown.viewFrom_change
          (Grove.mapOrigin_mapBelow (Grove.mapOrigin_unrollWithin origin₁ levels)) (fun x among => ?_) view₂
        exact ⟨restStands.lt_size among, fun same => notRest (same ▸ among), restOther x among⟩
      have content : f₂.content c = f.content c := by
        rw [grows₂.keeps.content_eq bears₁.inside cOther, grows₁.content_eq]
      rw [viewFrom_cons, early, late, content, grows₂.origin_eq c bears₁.inside,
        grows₁.origin_eq c childBears.inside, view_cons, Grove.mapBelow_cons]

/-- The pass unrolls the grove that the node bears, if the levels suffice. -/
theorem Bears.unrollWithin {levels : Nat} (bears : f.Bears id g) (enough : g.height ≤ levels) :
    ∃ f' g' origin, Forest.unrollWithin levels id f = f' ∧ f'.Bears id g' ∧
      (∀ x ∈ g'.labels, x ∈ g.labels ∨ f.size ≤ x) ∧ Grows f f' id g.labels origin ∧
      f'.viewFrom origin g' = (f.view g).unrollWithin levels := by
  induction levels generalizing f id g with
  | zero =>
    obtain rfl := Grove.eq_nil_of_height_le_zero enough
    exact ⟨f, .nil, fun x => x, rfl, bears, fun x inside => .inl inside, .refl .., rfl⟩
  | succ levels ih =>
    rw [← Grove.append_nil g] at bears
    -- first the children, then what is below those that stand there now
    obtain ⟨f₁, g₁, origin₁, run₁, bears₁, known₁, grows₁, view₁⟩ := bears.unrollChildren
    rw [Grove.append_nil] at bears bears₁
    have lower : g₁.height ≤ levels + 1 := by
      have heights := (f.view g).height_expand_le
      rw [← view₁, view, viewFrom, viewFrom, Grove.height_map, Grove.height_map] at heights
      exact Nat.le_trans heights enough
    obtain ⟨f₂, g₂, origin₂, run₂, stands₂, roots₂, kids₂, distinct₂, known₂, grows₂, view₂⟩ :=
      foldl_unrollWithin_of_stands ih bears₁.stands bears₁.distinct bears₁.inside lower
    have known : ∀ x ∈ g₂.labels, x ∈ g.labels ∨ f.size ≤ x := by
      intro x inside
      rcases known₂ x inside with early | new
      · exact known₁ x early
      · exact .inr (Nat.le_trans grows₁.keeps.size_le new)
    refine ⟨f₂, g₂, fun x => origin₁ (origin₂ x), ?_, ⟨?_, ?_, stands₂, ?_⟩, known, ?_, ?_⟩
    · rw [Forest.unrollWithin, bears.lists, run₁, bears₁.lists, run₂]
    · exact Nat.lt_of_lt_of_le bears₁.inside grows₂.keeps.size_le
    · rw [kids₂, bears₁.lists, roots₂]
    · -- the node is not among the copies, which are new
      refine List.nodup_cons.2 ⟨fun inside => ?_, distinct₂⟩
      rcases known id inside with among | new
      · exact bears.not_mem among
      · exact Nat.not_lt_of_le new bears.inside
    · refine grows₁.trans grows₂ fun x inside old => ?_
      exact (known₁ x inside).resolve_right (Nat.not_le_of_lt old)
    · rw [← mapOrigin_viewFrom, view₂,
        Grove.mapOrigin_mapBelow (Grove.mapOrigin_unrollWithin origin₁ levels), view,
        mapOrigin_viewFrom, view₁, Grove.unrollWithin_succ]

end Shorthand.Forest
