import Shorthand.Forest.Optimize
import Shorthand.Proofs.Grove.Squash
import Shorthand.Proofs.Forest.Edit

/-! # Squashing a well-formed forest

The pass that squashes groups in place looks at the children of a node from the last to the first. What it has looked
at stays, and what it has still to look at shrinks with every look, although the place it is at may go up again. So the
pass ends, and it leaves below the node the grove squashed.

* `Forest.squashChildren_of_bears` — looking at the children lifts the groups among them.
* `Forest.squashWithin_of_bears` — the pass squashes the grove that the node bears.
* **`Forest.NearestSurvivor`** — the nearest ancestor that is no group.
* `Forest.squash_of_wellFormed` — what the pass makes of a well-formed forest. -/

namespace Shorthand.Forest

/-- A node only groups its children. -/
def isGroup (f : Forest) (id : NodeId) : Bool := (f.content id).isGroup

variable {f f' : Forest} {id : NodeId} {g : Grove NodeId}

/-- Relinking nodes makes none of them a group. -/
theorem Relinks.isGroup_eq {touched : List NodeId} (relinks : Relinks f f' id touched) :
    f'.isGroup = f.isGroup := by
  funext x
  rw [isGroup, relinks.content_eq, isGroup]

/-- The nodes that only group their children are those with an empty abbreviation. -/
theorem isGroup_iff {x : NodeId} : f.isGroup x = true ↔ (f.content x).abbreviation = [] :=
  List.isEmpty_iff

/-! ## The children of one node -/

/-- Looking at the children from the last one of some to the first lifts the groups among them, and those that were
looked at before stay. One look for each node is enough. -/
theorem squashChildren_of_bears {looks : Nat} {todo looked : Grove NodeId}
    (bears : f.Bears id (todo ++ looked)) (enough : todo.labels.length ≤ looks) :
    ∃ f', squashChildren id looks todo.roots.length f = (f', none) ∧
      f'.Bears id (todo.lift f.isGroup ++ looked) ∧ Relinks f f' id todo.labels := by
  induction looks generalizing f todo looked with
  | zero =>
    obtain rfl : todo = .nil := Grove.eq_nil_of_height_le_zero
      (todo.height_le_length_labels.trans enough)
    exact ⟨f, rfl, bears, .refl ..⟩
  | succ looks ih =>
    rcases todo.eq_nil_or_append with rfl | ⟨front, c, below, rfl⟩
    · exact ⟨f, rfl, bears, .refl ..⟩
    · rw [Grove.append_assoc, Grove.cons_append, Grove.nil_append] at bears
      rw [Grove.labels_append, Grove.labels_cons, Grove.labels_nil, List.append_nil,
        List.length_append, List.length_cons] at enough
      have place : (front ++ .cons c below .nil).roots.length = front.roots.length + 1 := by simp
      have child : (f.children id)[front.roots.length]? = some c := by
        rw [bears.lists, Grove.roots_append, Grove.roots_cons]
        simp
      have kids : f.children c = below.roots := (stands_append.1 bears.stands).2.2.2.1
      rw [place, squashChildren, child]
      dsimp only
      rw [Forest.isEmpty, kids, ← isGroup]
      cases group : f.isGroup c with
      | false =>
        -- the child stays, with what is below it
        obtain ⟨f', run, bears', relinks⟩ := ih bears (by omega)
        refine ⟨f', by simpa using run, ?_, relinks.mono ?_⟩
        · rwa [Grove.lift_append, Grove.lift_cons_of_neg _ _ group, Grove.lift_nil,
            Grove.append_assoc, Grove.cons_append, Grove.nil_append]
        · rw [Grove.labels_append]
          exact List.subset_append_left ..
      | true =>
        cases below with
        | nil =>
          -- an empty child is removed, and one node less is left to look at
          obtain ⟨removed, relinked⟩ := bears.remove
          obtain ⟨f', run, bears', relinks⟩ := ih removed (by omega)
          rw [relinked.isGroup_eq] at bears'
          refine ⟨f', by simpa using run, ?_, (relinked.mono ?_).trans relinks ?_⟩
          · rwa [Grove.lift_append, Grove.lift_cons_of_pos _ _ group, Grove.lift_nil,
              Grove.nil_append, Grove.append_nil]
          · simp
          · simp
        | cons a inner rest =>
          -- the children of a group come up and are looked at next, and the group itself is gone
          obtain ⟨lifted, replaced, bearsLifted, relinked⟩ := bears.replace
          rw [← Grove.append_assoc] at bearsLifted
          obtain ⟨f', run, bears', relinks⟩ := ih bearsLifted (by simp at enough ⊢; omega)
          rw [relinked.isGroup_eq] at bears'
          rw [kids] at replaced
          refine ⟨f', ?_, ?_, (relinked.mono ?_).trans relinks ?_⟩
          · rw [replaced]
            simpa using run
          · rwa [Grove.lift_append, Grove.lift_cons_of_pos _ _ group, Grove.lift_nil,
              Grove.append_nil, ← Grove.lift_append]
          · simp
          · simp

/-! ## All levels -/

/-- Relinking below a child of a node is relinking below the node. -/
theorem Relinks.of_child {c : NodeId} {touched : List NodeId} (relinks : Relinks f f' c touched)
    (ne : id ≠ c) (untouched : id ∉ touched) : Relinks f f' id (c :: touched) := by
  refine ⟨relinks.size_eq, relinks.content_eq, (relinks.links_eq ne untouched).1, fun x _ other => ?_⟩
  rw [List.mem_cons, not_or] at other
  exact relinks.cell_eq x other.1 other.2

/-- If the pass squashes what a node bears, then going on with the roots of a standing grove squashes what is below
each of them. -/
theorem forEach_squashWithin_of_stands {levels : Nat}
    (pass : ∀ {f : Forest} {c : NodeId} {below : Grove NodeId}, f.Bears c below →
      below.height < levels → ∃ f', squashWithin levels c f = (f', none) ∧
        f'.Bears c (below.squash f.isGroup) ∧ Relinks f f' c below.labels)
    (stands : f.Stands id g) (distinct : (id :: g.labels).Nodup) (enough : g.height ≤ levels) :
    ∃ f', forEach (squashWithin levels) g.roots f = (f', none) ∧
      f'.Stands id (g.mapBelow (Grove.squash f.isGroup)) ∧ f'.children id = f.children id ∧
      Relinks f f' id g.labels := by
  induction g generalizing f with
  | nil => exact ⟨f, rfl, stands_nil, rfl, .refl ..⟩
  | cons c below rest _ ih =>
    have apart : Apart id c .nil below rest := .of_nodup distinct
    obtain ⟨-, notBelow, notRest⟩ := apart.top
    obtain ⟨-, -, cNotRest⟩ := apart.root
    rw [Grove.height_cons] at enough
    -- first the tree of the child
    obtain ⟨f₁, run₁, bears₁, relinks₁⟩ :=
      pass (stands.bears_below (List.nodup_cons.1 distinct).2) (by omega)
    have relinked := relinks₁.of_child apart.ne.symm notBelow
    have restStands : f₁.Stands id rest := relinked.stands stands.2.2.2.2 notRest
      fun x inRest touched => by
        rcases List.mem_cons.1 touched with rfl | inBelow
        · exact cNotRest inRest
        · exact (apart.inner x inBelow).2 inRest
    -- then the other trees
    obtain ⟨f₂, run₂, stands₂, kids₂, relinks₂⟩ := ih restStands apart.rest (by omega)
    have belowSquashed : (below.squash f.isGroup).labels.Sublist below.labels := by
      rw [Grove.labels_squash]
      exact List.filter_sublist
    refine ⟨f₂, ?_, ⟨?_, ?_, ?_, ?_, ?_⟩, ?_, ?_⟩
    · rw [Grove.roots_cons, forEach, run₁]
      exact run₂
    · rw [relinks₂.size_eq]
      exact bears₁.inside
    · rw [(relinks₂.links_eq apart.ne cNotRest).1, relinks₁.parent?_eq]
      exact stands.2.1
    · rw [(relinks₂.links_eq apart.ne cNotRest).2]
      exact bears₁.lists
    · refine relinks₂.stands bears₁.stands (fun inside => notBelow (belowSquashed.subset inside))
        fun x inBelow inRest => ?_
      exact (apart.inner x (belowSquashed.subset inBelow)).2 inRest
    · rwa [relinks₁.isGroup_eq] at stands₂
    · rw [kids₂, (relinks₁.links_eq apart.ne.symm notBelow).2]
    · refine (relinked.mono ?_).trans relinks₂ ?_
      · exact List.cons_subset_cons c (List.subset_append_left ..)
      · exact List.subset_cons_of_subset c (List.subset_append_right ..)

/-- The pass squashes the grove that the node bears, if the levels suffice. -/
theorem squashWithin_of_bears {levels : Nat} (bears : f.Bears id g) (enough : g.height < levels) :
    ∃ f', squashWithin levels id f = (f', none) ∧ f'.Bears id (g.squash f.isGroup) ∧
      Relinks f f' id g.labels := by
  induction levels generalizing f id g with
  | zero => exact absurd enough (Nat.not_lt_zero _)
  | succ levels ih =>
    -- the children first: one look for each descendant suffices
    have enoughLooks : g.labels.length ≤ (f.descendants id).length := by rw [bears.descendants]
    rw [← Grove.append_nil g] at bears
    obtain ⟨f₁, run₁, bears₁, relinks₁⟩ := squashChildren_of_bears bears enoughLooks
    rw [Grove.append_nil] at bears bears₁
    -- then what is below those that have stayed
    have fewer := g.height_lift_le (p := f.isGroup)
    obtain ⟨f₂, run₂, stands₂, kids₂, relinks₂⟩ := forEach_squashWithin_of_stands ih bears₁.stands
      bears₁.distinct (by omega)
    rw [relinks₁.isGroup_eq, Grove.mapBelow_squash_lift] at stands₂
    have relinks : Relinks f f₂ id g.labels := relinks₁.trans relinks₂ (Grove.lift_labels_sublist g).subset
    refine ⟨f₂, ?_, ⟨?_, ?_, stands₂, ?_⟩, relinks⟩
    · rw [squashWithin, bears.lists, run₁]
      dsimp only
      rw [bears₁.lists, run₂]
    · rw [relinks.size_eq]
      exact bears.inside
    · rw [kids₂, bears₁.lists, ← Grove.mapBelow_squash_lift, Grove.roots_mapBelow]
    · rw [Grove.labels_squash]
      exact bears.distinct.sublist (List.filter_sublist.cons_cons id)

/-- The pass squashes the grove that the node bears and ends without a fault. -/
theorem squash_of_bears (bears : f.Bears id g) :
    ∃ f', f.squash id = (f', none) ∧ f'.Bears id (g.squash f.isGroup) ∧
      Relinks f f' id g.labels :=
  squashWithin_of_bears bears bears.height_lt_size

/-- What is read where a squashed grove stands is the tree squashed, if no content has changed. -/
theorem Bears.read_squash (bears : f.Bears id g) (bears' : f'.Bears id (g.squash f.isGroup))
    (content_eq : ∀ x, f'.content x = f.content x) : f'.read id = (f.read id).squash := by
  rw [bears'.read, bears.read, Node.squash_mk, content_eq, funext content_eq]
  exact congrArg _ (Grove.nodes_squash f.content g)

/-! ## The nearest surviving ancestor -/

/-- Going up from a node along the links to parents, a node is the first that survives: the root, or the first one
that has an abbreviation. -/
inductive NearestSurvivor (f : Forest) (root : NodeId) : NodeId → NodeId → Prop where
  /-- The parent of the node survives. -/
  | parent {x p : NodeId} (linked : f.parent? x = some p)
    (survives : p = root ∨ (f.content p).abbreviation ≠ []) : NearestSurvivor f root x p
  /-- The parent of the node is a group below the root, and one goes on from there. -/
  | above {x group p : NodeId} (linked : f.parent? x = some group) (inner : group ≠ root)
    (empty : (f.content group).abbreviation = []) (further : NearestSurvivor f root group p) :
    NearestSurvivor f root x p

/-- There is one nearest surviving ancestor at most. -/
theorem NearestSurvivor.unique {root x p q : NodeId} (first : f.NearestSurvivor root x p)
    (second : f.NearestSurvivor root x q) : p = q := by
  induction first with
  | parent linked survives =>
    cases second with
    | parent linked' _ => exact Option.some.inj (linked.symm.trans linked')
    | above linked' inner empty _ =>
      obtain rfl := Option.some.inj (linked.symm.trans linked')
      exact absurd survives (not_or.2 ⟨inner, not_not.2 empty⟩)
  | above linked inner empty _ ih =>
    cases second with
    | parent linked' survives =>
      obtain rfl := Option.some.inj (linked.symm.trans linked')
      exact absurd survives (not_or.2 ⟨inner, not_not.2 empty⟩)
    | above linked' _ _ further =>
      obtain rfl := Option.some.inj (linked.symm.trans linked')
      exact ih further

/-- Where a squashed grove stands, each node is linked to its nearest surviving ancestor, if for those below `above`
this is the node that the squashed grove stands below. -/
theorem nearestSurvivor_of_stands {root above survivor : NodeId} (stands : f.Stands above g)
    (squashed : f'.Stands survivor (g.squash f.isGroup)) (notRoot : root ∉ g.labels)
    (ascend : ∀ x, f.parent? x = some above → f.NearestSurvivor root x survivor) :
    ∀ x ∈ (g.squash f.isGroup).labels, ∃ p, f'.parent? x = some p ∧ f.NearestSurvivor root x p := by
  induction g generalizing above survivor with
  | nil => exact fun x inside => absurd inside List.not_mem_nil
  | cons c below rest belowInduction ih =>
    obtain ⟨-, linked, -, belowStands, restStands⟩ := stands
    simp only [Grove.labels_cons, List.mem_cons, List.mem_append, not_or] at notRoot
    obtain ⟨ne, notBelow, notRest⟩ := notRoot
    cases group : f.isGroup c with
    | true =>
      -- what is below the group comes up, and one more step leads from it to the survivor
      rw [Grove.squash_cons_of_pos _ _ group] at squashed ⊢
      obtain ⟨belowSquashed, restSquashed⟩ := stands_append.1 squashed
      rw [Grove.labels_append]
      intro x inside
      rcases List.mem_append.1 inside with inBelow | inRest
      · exact belowInduction belowStands belowSquashed notBelow
          (fun y linked' => .above linked' (Ne.symm ne) (isGroup_iff.1 group) (ascend c linked))
          x inBelow
      · exact ih restStands restSquashed notRest ascend x inRest
    | false =>
      -- another node is itself the survivor for what is below it
      rw [Grove.squash_cons_of_neg _ _ group] at squashed ⊢
      obtain ⟨-, linked', -, belowSquashed, restSquashed⟩ := squashed
      have survives : (f.content c).abbreviation ≠ [] := fun empty =>
        Bool.false_ne_true (group.symm.trans (isGroup_iff.2 empty))
      intro x inside
      rcases List.mem_cons.1 inside with rfl | inside
      · exact ⟨survivor, linked', ascend x linked⟩
      · rcases List.mem_append.1 inside with inBelow | inRest
        · exact belowInduction belowStands belowSquashed notBelow
            (fun y linked'' => .parent linked'' (.inr survives)) x inBelow
        · exact ih restStands restSquashed notRest ascend x inRest

/-! ## Squashing a well-formed forest -/

/-- A forest is what squashing the groups below a root makes of another. -/
structure IsSquash (f f' : Forest) (root : NodeId) : Prop where
  /-- The forest is well formed below the root. -/
  formed : f'.WellFormed root
  /-- No node below the root has an empty abbreviation. -/
  abbreviation_ne : ∀ x ∈ f'.descendants root, (f'.content x).abbreviation ≠ []
  /-- In pre-order the nodes with an empty abbreviation are left out, and nothing else. -/
  descendants_eq : f'.descendants root =
    (f.descendants root).filter fun x => (f.content x).abbreviation ≠ []
  /-- The contents are as they were. -/
  content_eq : ∀ x, f'.content x = f.content x
  /-- Each node is linked to its nearest surviving ancestor. -/
  parent?_iff : ∀ x ∈ f'.descendants root, ∀ p,
    f'.parent? x = some p ↔ f.NearestSurvivor root x p
  /-- The root is linked as it was. -/
  parent?_root : f'.parent? root = f.parent? root
  /-- Nodes elsewhere are as they were. -/
  cell_eq : ∀ x, x ∉ f.preorder root → f'.cell x = f.cell x
  /-- The tree below the root is squashed as a value. -/
  read_eq : f'.read root = (f.read root).squash

/-- The links in a standing grove are given by the grove. -/
theorem Stands.links_eq (stands : f.Stands id g) (stands' : f'.Stands id g) {x : NodeId}
    (inside : x ∈ g.labels) : f'.parent? x = f.parent? x ∧ f'.children x = f.children x := by
  induction g generalizing id with
  | nil => exact absurd inside List.not_mem_nil
  | cons c below rest belowInduction ih =>
    obtain ⟨-, linked, lists, belowStands, restStands⟩ := stands
    obtain ⟨-, linked', lists', belowStands', restStands'⟩ := stands'
    rcases List.mem_cons.1 inside with rfl | later
    · rw [linked, linked', lists, lists']
      exact ⟨rfl, rfl⟩
    · rcases List.mem_append.1 later with inBelow | inRest
      · exact belowInduction belowStands belowStands' inBelow
      · exact ih restStands restStands' inRest

/-- Where there is no group to squash the pass leaves the forest as it is. -/
theorem squash_eq_self_of_bears (bears : f.Bears id g) (survive : ∀ x ∈ g.labels, f.isGroup x = false) :
    f.squash id = (f, none) := by
  obtain ⟨f', run, bears', relinks⟩ := squash_of_bears bears
  rw [Grove.squash_eq_self survive] at bears'
  -- the same grove stands below the node as before, and it determines all links
  have cells : ∀ x, f'.cell x = f.cell x := by
    intro x
    by_cases top : x = id
    · rw [top]
      exact cell_ext (relinks.content_eq id) relinks.parent?_eq (by rw [bears'.lists, bears.lists])
    · by_cases inside : x ∈ g.labels
      · obtain ⟨linked, lists⟩ := bears.stands.links_eq bears'.stands inside
        exact cell_ext (relinks.content_eq x) linked lists
      · exact relinks.cell_eq x top inside
  rw [run, ext_cell relinks.size_eq cells]

/-- In a well-formed forest the pass ends without a fault, and it squashes the forest below the root. Where there
was nothing to squash the forest stays as it is; so squashing once more changes nothing. -/
theorem squash_of_wellFormed {root : NodeId} (formed : f.WellFormed root) :
    ∃ f', f.squash root = (f', none) ∧ f.IsSquash f' root ∧
      ((∀ x ∈ f.descendants root, (f.content x).abbreviation ≠ []) → f' = f) ∧
      f'.squash root = (f', none) := by
  obtain ⟨g, bears⟩ := wellFormed_iff_exists_bears.1 formed
  obtain ⟨f', run, bears', relinks⟩ := squash_of_bears bears
  have labels : (g.squash f.isGroup).labels =
      g.labels.filter fun x => (f.content x).abbreviation ≠ [] := by
    rw [Grove.labels_squash]
    refine List.filter_congr fun x _ => ?_
    rw [Bool.eq_iff_iff, Bool.not_eq_true', Bool.eq_false_iff, Ne, isGroup_iff, decide_eq_true_iff]
  have survive : ∀ x ∈ (g.squash f.isGroup).labels, f'.isGroup x = false := by
    intro x inside
    rw [Grove.labels_squash] at inside
    rw [relinks.isGroup_eq]
    simpa using (List.mem_filter.1 inside).2
  have ancestors := nearestSurvivor_of_stands bears.stands bears'.stands bears.not_mem
    fun x linked => .parent linked (.inl rfl)
  refine ⟨f', run, ?_, fun kept => ?_, squash_eq_self_of_bears bears' survive⟩
  · refine ⟨wellFormed_iff_exists_bears.2 ⟨_, bears'⟩, ?_, ?_, relinks.content_eq, ?_,
      relinks.parent?_eq, ?_, ?_⟩
    · rw [bears'.descendants]
      intro x inside empty
      exact Bool.false_ne_true ((survive x inside).symm.trans (isGroup_iff.2 empty))
    · rw [bears'.descendants, bears.descendants, labels]
    · rw [bears'.descendants]
      intro x inside p
      obtain ⟨q, linked, nearest⟩ := ancestors x inside
      rw [linked, Option.some_inj]
      exact ⟨fun same => same ▸ nearest, fun other => nearest.unique other⟩
    · rw [bears.preorder]
      intro x outside
      rw [List.mem_cons, not_or] at outside
      exact relinks.cell_eq x outside.1 outside.2
    · rw [bears'.read, bears.read, Node.squash_mk, relinks.content_eq, funext relinks.content_eq]
      exact congrArg _ (Grove.nodes_squash f.content g)
  · rw [bears.descendants] at kept
    have same := squash_eq_self_of_bears bears fun x inside => by
      rw [Bool.eq_false_iff, Ne, isGroup_iff]
      exact kept x inside
    rw [same] at run
    exact (Prod.mk.inj run).1.symm

/-- A root over a group that holds another group and a named node, and over an empty node and one more named node. -/
def groupedForest : Forest :=
  ⟨#[{ children := [1, 5, 6] },
    { parent := some 0, children := [2, 4] },
    { parent := some 1, children := [3] },
    { parent := some 2, content := { abbreviation := ['a'] } },
    { parent := some 1, content := { abbreviation := ['b'] } },
    { parent := some 0 },
    { parent := some 0, content := { abbreviation := ['c'] } }]⟩

/-- Groups in groups are squashed, and so are empty nodes. -/
theorem squash_groupedForest :
    groupedForest.WellFormed 0 ∧ (groupedForest.squash 0).2 = none ∧
      (groupedForest.squash 0).1.descendants 0 = [3, 4, 6] := by
  have formed : groupedForest.WellFormed 0 := ⟨by decide, by decide, by decide⟩
  obtain ⟨f', run, squashed, -⟩ := squash_of_wellFormed formed
  rw [run]
  refine ⟨formed, rfl, ?_⟩
  rw [squashed.descendants_eq]
  decide

end Shorthand.Forest
