import Shorthand.Proofs.Forest.Edit

/-! # The way down to a node on the right edge

While a tree is built, all that has been read stands to the left of a path. The path lists the ancestors of a node, the
nearest first, each with the grove that stands below it to the left of the path. What stands below the node can be
changed without looking at the rest.

* **`Grove.enclose`** — the grove around the end of a path.
* **`Forest.owner`** — the node right above the end of a path.
* `Forest.Bears.focus` — the node at the end of a path bears what is below it.
* `Forest.Bears.refocus` — what is below it may be replaced. -/

namespace Shorthand

namespace Grove

variable {α β : Type}

/-- The grove around a grove at the end of a path. -/
def enclose : List (α × Grove α) → Grove α → Grove α
  | [], g => g
  | (a, left) :: rest, g => enclose rest (cons a (left ++ g) nil)

/-- The labels on a path and to the left of it. -/
def around : List (α × Grove α) → List α
  | [] => []
  | (a, left) :: rest => a :: (left.labels ++ around rest)

@[simp] theorem enclose_nil (g : Grove α) : enclose [] g = g := rfl

@[simp] theorem enclose_cons (a : α) (left : Grove α) (rest : List (α × Grove α)) (g : Grove α) :
    enclose ((a, left) :: rest) g = enclose rest (cons a (left ++ g) nil) := rfl

/-- The roots around the end of a path depend on the roots at its end. -/
theorem roots_enclose (path : List (α × Grove α)) {g h : Grove α} (same : g.roots = h.roots) :
    (enclose path g).roots = (enclose path h).roots := by
  cases path with
  | nil => exact same
  | cons step rest =>
    obtain ⟨a, left⟩ := step
    exact roots_enclose rest rfl

/-- The labels are those around the end of the path and those at its end. -/
theorem labels_enclose_perm (path : List (α × Grove α)) (g : Grove α) :
    (enclose path g).labels.Perm (g.labels ++ around path) := by
  induction path generalizing g with
  | nil =>
    rw [enclose_nil, around, List.append_nil]
  | cons step rest ih =>
    obtain ⟨a, left⟩ := step
    rw [enclose_cons, around]
    refine (ih _).trans ?_
    rw [labels_cons, labels_nil, List.append_nil, labels_append, List.cons_append]
    refine List.Perm.trans ?_ List.perm_middle.symm
    rw [← List.append_assoc]
    exact ((List.perm_append_comm).append_right _).cons a

/-- The steps of a path are among what is around its end. -/
theorem mem_around {path : List (α × Grove α)} {step : α × Grove α} (inside : step ∈ path) :
    step.1 ∈ around path ∧ step.2.labels ⊆ around path := by
  induction path with
  | nil => exact absurd inside List.not_mem_nil
  | cons first rest ih =>
    rw [around]
    rcases List.mem_cons.1 inside with rfl | later
    · exact ⟨List.mem_cons_self, List.subset_cons_of_subset _ (List.subset_append_left ..)⟩
    · obtain ⟨node, left⟩ := ih later
      have more : around rest ⊆ first.1 :: (first.2.labels ++ around rest) :=
        List.subset_cons_of_subset _ (List.subset_append_right ..)
      exact ⟨more node, List.Subset.trans left more⟩

/-- A label of a grove around a tree is that of its root, below it, or elsewhere. -/
theorem mem_labels_enclose {front : Grove α} {path : List (α × Grove α)} {c x : α} {g : Grove α} :
    x ∈ (front ++ enclose path (cons c g nil)).labels ↔
      x = c ∨ x ∈ g.labels ∨ x ∈ front.labels ∨ x ∈ around path := by
  rw [labels_append, List.mem_append, (labels_enclose_perm path _).mem_iff, labels_cons, labels_nil,
    List.append_nil, List.mem_append, List.mem_cons]
  tauto

end Grove

namespace Forest

variable {f f' : Forest} {root parent c : NodeId} {g g' front : Grove NodeId}
  {path : List (NodeId × Grove NodeId)}

/-- The node right above the end of a path below a root. -/
def owner (root : NodeId) : List (NodeId × Grove NodeId) → NodeId
  | [] => root
  | (a, _) :: _ => a

/-- At the end of a path the grove stands below the owner. -/
theorem Stands.hole (stands : f.Stands parent (.enclose path g)) : f.Stands (owner parent path) g := by
  induction path generalizing g with
  | nil => exact stands
  | cons step rest ih =>
    obtain ⟨a, left⟩ := step
    have upper := ih stands
    exact (stands_append.1 upper.2.2.2.1).2

/-- A grove with the same roots may be put at the end of the path, if nothing around it has changed. -/
theorem Stands.fill (stands : f.Stands parent (.enclose path g)) (size_le : f.size ≤ f'.size)
    (roots : g'.roots = g.roots) (filled : f'.Stands (owner parent path) g')
    (same : ∀ x ∈ Grove.around path, f'.parent? x = f.parent? x ∧ f'.children x = f.children x) :
    f'.Stands parent (.enclose path g') := by
  induction path generalizing g g' with
  | nil => exact filled
  | cons step rest ih =>
    obtain ⟨a, left⟩ := step
    simp only [Grove.around, List.mem_cons, List.mem_append, forall_eq_or_imp] at same
    -- the last node of the path lists the same roots as before, so the rest of the path may stay
    rw [Grove.enclose_cons] at stands
    have upper := stands.hole
    obtain ⟨here, linked, lists, belowStands, -⟩ := upper
    have leftStands := (stands_append.1 belowStands).1
    refine ih (g := .cons a (left ++ g) .nil) stands rfl ⟨?_, ?_, ?_, ?_, stands_nil⟩ fun x inside =>
      same.2 x (.inr inside)
    · exact Nat.lt_of_lt_of_le here size_le
    · rw [same.1.1, linked]
    · rw [same.1.2, lists, Grove.roots_append, Grove.roots_append, roots]
    · refine stands_append.2 ⟨leftStands.of_links size_le fun x inside => same.2 x (.inl inside), filled⟩

/-- The node at the end of a path bears what is below it. -/
theorem Bears.focus (bears : f.Bears root (front ++ .enclose path (.cons c g .nil))) : f.Bears c g := by
  have distinct := bears.nodup
  rw [Grove.labels_append, List.nodup_append] at distinct
  have inner := (Grove.labels_enclose_perm path _).nodup_iff.1 distinct.2.1
  exact (stands_append.1 bears.stands).2.hole.bears_below (List.nodup_append.1 inner).1

/-- The node at the end of a path occurs nowhere else. -/
theorem Bears.focus_other (bears : f.Bears root (front ++ .enclose path (.cons c g .nil))) {x : NodeId}
    (inside : x ∈ g.labels ∨ x ∈ front.labels ∨ x ∈ Grove.around path) : x < f.size ∧ x ≠ c := by
  refine ⟨(bears.other (Grove.mem_labels_enclose.2 (.inr inside))).1, ?_⟩
  have distinct := bears.nodup
  rw [Grove.labels_append,
    ((Grove.labels_enclose_perm path (.cons c g .nil)).append_left front.labels).nodup_iff,
    Grove.labels_cons, Grove.labels_nil, List.append_nil] at distinct
  grind

/-- What is below the node at the end of a path may be replaced by a grove of new nodes and nodes that were there, if
nothing around it has changed. -/
theorem Bears.refocus (bears : f.Bears root (front ++ .enclose path (.cons c g .nil)))
    (bears' : f'.Bears c g') (size_le : f.size ≤ f'.size)
    (parent : f'.parent? c = f.parent? c)
    (same : ∀ x < f.size, x ≠ c → x ∉ g.labels →
      f'.parent? x = f.parent? x ∧ f'.children x = f.children x)
    (known : ∀ x ∈ g'.labels, x ∈ g.labels ∨ f.size ≤ x) :
    f'.Bears root (front ++ .enclose path (.cons c g' .nil)) := by
  have inside := fun x (among : x ∈ root :: (front ++ .enclose path (.cons c g .nil)).labels) =>
    bears.lt_size among
  have distinct := bears.distinct
  have order := fun g => (Grove.labels_enclose_perm path (.cons c g .nil)).append_left front.labels
  -- all nodes, those around the end of the path last
  rw [Grove.labels_append, ((order g).cons root).nodup_iff] at distinct
  simp only [List.mem_cons, Grove.mem_labels_enclose] at inside
  rw [Grove.labels_cons, Grove.labels_nil, List.append_nil] at distinct
  have below := bears'.distinct
  obtain ⟨frontStands, pathStands⟩ := stands_append.1 bears.stands
  refine ⟨Nat.lt_of_lt_of_le bears.inside size_le, ?_, stands_append.2 ⟨?_, ?_⟩, ?_⟩
  · rw [(same root bears.inside (by grind) (by grind)).2, bears.lists, Grove.roots_append,
      Grove.roots_append,
      Grove.roots_enclose path (g := .cons c g .nil) (h := .cons c g' .nil) rfl]
  · exact frontStands.of_links size_le fun x among =>
      same x (frontStands.lt_size among) (by grind) (by grind)
  · refine pathStands.fill size_le (show _ = (Grove.cons c g .nil).roots from rfl) ?_ fun x among => ?_
    · refine ⟨bears'.inside, ?_, bears'.lists, bears'.stands, stands_nil⟩
      rw [parent]
      exact pathStands.hole.2.1
    · exact same x (inside x (by grind)) (by grind) (by grind)
  · rw [Grove.labels_append, ((order g').cons root).nodup_iff]
    simp only [Grove.labels_cons, Grove.labels_nil, List.append_nil]
    grind

end Forest

end Shorthand
