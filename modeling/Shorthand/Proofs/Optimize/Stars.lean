import Mathlib
import Shorthand.Proofs.Optimize.Numbers
import Shorthand.Proofs.Reading.Contents

/-! # Optimizing with and without bare stars

A bare star makes no copies, but a node with one is repeating, so unrolling begins to number anew with it. A tree can be
optimized with its bare stars and without them, and the results are the same up to the stars and the numbers. Numbers
differ below counts only: a bare star below a counted node takes the numbers of its copies away from what belongs to it,
up to the next count.

* **`Content.withoutStar`**, **`Content.unnumbered`** — a content without its star, and without its number too.
* **`Node.numberPairs`** — the numbers of the two optimized trees, side by side.
* **`Node.restarts`** — a node with a token is numbered by a bare star below a count.
* `optimize_withoutStars` — what the two optimized trees have in common, and when they are the same. -/

namespace Shorthand

namespace Content

/-- The content without the flag of a bare star. -/
def withoutStar (c : Content) : Content := { c with implicitRepeat := false }

/-- The content without the flag of a bare star, and with the number that a content has at the beginning. -/
def unnumbered (c : Content) : Content := { c with implicitRepeat := false, counter := 1 }

variable {c d : Content}

/-- But for its star a content is what is left of it without a number, and the number. -/
theorem withoutStar_eq (same : c.unnumbered = d.unnumbered) (number : c.counter = d.counter) :
    c.withoutStar = d.withoutStar := by
  have left : c.withoutStar = c.unnumbered.numbered c.counter := rfl
  have right : d.withoutStar = d.unnumbered.numbered d.counter := rfl
  rw [left, right, same, number]

/-- Without a number, a mark shows only whether the node is new. -/
theorem unnumbered_marked (mark : CopyMark) (c : Content) :
    (c.marked mark).unnumbered = c.unnumbered.marked ⟨none, mark.isNew⟩ := by
  obtain ⟨number, isNew⟩ := mark
  cases number <;> cases isNew <;> rfl

/-- A content that is wanted once has a single copy. -/
theorem copyNumbers_of_once (once : c.repeatCount = 1) : c.copyNumbers = [1] := by
  rw [copyNumbers, once]
  rfl

/-- Without a star a content is repeating if it is wanted more than once. -/
theorem isRepeating_withoutStar (c : Content) : c.withoutStar.isRepeating = decide (1 < c.repeatCount) := by
  rw [isRepeating, withoutStar, Bool.or_false]

/-- A counted content is repeating, with and without a star. -/
theorem isRepeating_of_counted (counted : 1 < c.repeatCount) : c.isRepeating = true := by
  simp [isRepeating, counted]

/-- A content that is wanted once is repeating if it has a star. -/
theorem isRepeating_of_once (once : c.repeatCount = 1) : c.isRepeating = c.implicitRepeat := by
  simp [isRepeating, once]

/-- The copy of a content that is wanted once: a star has it numbered, and without one it is only marked. -/
theorem copies_of_once (once : c.repeatCount = 1) (mark : CopyMark) :
    c.copies mark =
      if c.implicitRepeat then [(⟨some 1, mark.isNew⟩, c.marked ⟨some 1, mark.isNew⟩)]
      else [(mark, c.marked mark)] := by
  have same : c.once = c := by rw [Content.once, ← once]
  rw [copies, isRepeating_of_once once, copyNumbers_of_once once, same]
  by_cases star : c.implicitRepeat = true
  · rw [if_pos star, if_pos star, List.map_singleton]
    simp
  · rw [if_neg star, if_neg star]

/-- With and without a star a content has the same copies, up to their numbers, and the same of them are new. -/
theorem copies_withoutStar (positive : 1 ≤ c.repeatCount) {first second : CopyMark}
    (isNew_eq : first.isNew = second.isNew) :
    ((c.copies first).map fun copy => (copy.1.isNew, copy.2.unnumbered)) =
      (c.withoutStar.copies second).map fun copy => (copy.1.isNew, copy.2.unnumbered) := by
  by_cases many : 1 < c.repeatCount
  · -- a count is unrolled by itself, whatever surrounds it
    have repeating : c.withoutStar.isRepeating = true := by simp [isRepeating_withoutStar, many]
    rw [copies, if_pos (isRepeating_of_counted many), copies, if_pos repeating, List.map_map, List.map_map]
    refine List.map_congr_left fun number _ => ?_
    simp only [Function.comp_apply, unnumbered_marked, isNew_eq]
    rfl
  · have once : c.repeatCount = 1 := by omega
    have plain : ¬ c.withoutStar.implicitRepeat = true := Bool.false_ne_true
    rw [copies_of_once once, copies_of_once (c := c.withoutStar) once, if_neg plain, List.map_singleton]
    split
    all_goals
      simp only [List.map_singleton, unnumbered_marked, isNew_eq]
      rfl

end Content

namespace Node

variable {c : Content} {kids rest nodes : List Node}

/-! ## What the trees have in common -/

/-- Nodes are unrolled with and without their stars to the same nodes, up to numbers. -/
theorem unrollAll_withoutStars (counted : ∀ c ∈ contentsAll nodes, 1 ≤ c.repeatCount) (first second : CopyMark)
    (isNew_eq : first.isNew = second.isNew) :
    mapEach Content.unnumbered (unrollAll first nodes) =
      mapEach Content.unnumbered (unrollAll second (mapEach Content.withoutStar nodes)) := by
  induction nodes using Node.induction generalizing first second with
  | nil => rw [mapEach_nil, unrollAll_nil, unrollAll_nil]
  | cons c kids rest kidsInduction ih =>
    simp only [contentsAll_cons, List.mem_cons, List.mem_append, forall_eq_or_imp] at counted
    obtain ⟨own, others⟩ := counted
    have below := kidsInduction fun c inside => others c (.inl inside)
    -- what is below a copy shows of its mark only whether the copy is new
    let shown (isNew : Bool) : List Node := mapEach Content.unnumbered (unrollAll ⟨none, isNew⟩ kids)
    have starred : ∀ mark, mapEach Content.unnumbered (unrollAll mark kids) = shown mark.isNew := fun mark =>
      (below mark mark rfl).trans (below ⟨none, mark.isNew⟩ mark rfl).symm
    have cleared : ∀ mark, mapEach Content.unnumbered (unrollAll mark (mapEach Content.withoutStar kids)) =
        shown mark.isNew := fun mark => (below ⟨none, mark.isNew⟩ mark rfl).symm
    have copies := congrArg (List.map fun copy : Bool × Content => mk copy.2 (shown copy.1))
      (Content.copies_withoutStar own isNew_eq)
    rw [List.map_map, List.map_map] at copies
    rw [mapEach_cons, unrollAll_cons, unrollAll_cons, mapEach_append, mapEach_append,
      ih (fun c inside => others c (.inr inside)) first second isNew_eq, mapEach_eq_map _ (List.map _ _),
      mapEach_eq_map _ (List.map _ _), List.map_map, List.map_map]
    congr 1
    refine Eq.trans ?_ (copies.trans ?_)
    · exact List.map_congr_left fun copy _ => by rw [Function.comp_apply, mapAll_mk, starred]; rfl
    · exact List.map_congr_left fun copy _ => by rw [Function.comp_apply, Function.comp_apply, mapAll_mk, cleared]

/-- Nodes that are the same up to stars and numbers are the same up to stars if their numbers are the same. -/
theorem mapEach_withoutStar_eq {others : List Node}
    (same : mapEach Content.unnumbered nodes = mapEach Content.unnumbered others)
    (numbers : (contentsAll nodes).map Content.counter = (contentsAll others).map Content.counter) :
    mapEach Content.withoutStar nodes = mapEach Content.withoutStar others := by
  induction nodes using Node.induction generalizing others with
  | nil =>
    cases others with
    | nil => rfl
    | cons n rest =>
      rw [mapEach_nil, mapEach] at same
      cases same
  | cons c kids rest kidsInduction ih =>
    obtain _ | ⟨⟨d, below⟩, beside⟩ := others
    · rw [mapEach_nil, mapEach_cons] at same
      cases same
    · rw [mapEach_cons, mapEach_cons] at same
      obtain ⟨sameFirst, sameRest⟩ := List.cons.inj same
      obtain ⟨sameContent, sameBelow⟩ := Node.mk.inj sameFirst
      rw [contentsAll_cons, contentsAll_cons, List.map_cons, List.map_cons, List.map_append, List.map_append]
        at numbers
      obtain ⟨number, numbers⟩ := List.cons.inj numbers
      -- there are as many nodes below the one as below the other
      have sameLength : (contentsAll kids).length = (contentsAll below).length := by
        have contents := congrArg (fun nodes => (contentsAll nodes).length) sameBelow
        simpa only [contentsAll_mapEach, List.length_map] using contents
      obtain ⟨numbersBelow, numbersRest⟩ := List.append_inj numbers (by simpa only [List.length_map])
      rw [mapEach_cons, mapEach_cons, Content.withoutStar_eq sameContent number,
        kidsInduction sameBelow numbersBelow, ih sameRest numbersRest]

end Node

/-! ## The numbers side by side -/

/-- The numbers of the copies of a content with its star and without it, where it belongs to a copy with the number `n`
or `m`. -/
def Content.numberPairs (n m : Int) (c : Content) : List (Int × Int) :=
  if 1 < c.repeatCount then c.copyNumbers.map fun k => (k, k) else [(if c.implicitRepeat then 1 else n, m)]

namespace Content

variable {c : Content} {n m : Int}

theorem map_fst_numberPairs (positive : 1 ≤ c.repeatCount) :
    (c.numberPairs n m).map Prod.fst = c.numbersWithin n := by
  rw [numberPairs, numbersWithin]
  by_cases many : 1 < c.repeatCount
  · rw [if_pos many, if_pos (isRepeating_of_counted many), List.map_map]
    exact List.map_id _
  · have once : c.repeatCount = 1 := by omega
    rw [if_neg many, isRepeating_of_once once, copyNumbers_of_once once, List.map_singleton]
    split <;> rfl

theorem map_snd_numberPairs : (c.numberPairs n m).map Prod.snd = c.withoutStar.numbersWithin m := by
  rw [numberPairs, numbersWithin, isRepeating_withoutStar]
  by_cases many : 1 < c.repeatCount
  · rw [if_pos many, if_pos (decide_eq_true many), List.map_map]
    exact List.map_id _
  · have once : ¬ decide (1 < c.repeatCount) = true := by rwa [decide_eq_true_eq]
    rw [if_neg many, if_neg once, List.map_singleton]

end Content

namespace Node

variable {c : Content} {kids rest nodes : List Node} {n m : Int}

/-- The numbers that are left of nodes with their stars and without them, where they belong to a copy with the number
`n` or `m`. -/
def numberPairs (n m : Int) : List Node → List (Int × Int)
  | [] => []
  | mk c kids :: rest =>
    ((c.numberPairs n m).flatMap fun pair => (if c.isGroup then [] else [pair]) ++ numberPairs pair.1 pair.2 kids) ++
      numberPairs n m rest

@[simp] theorem numberPairs_nil : numberPairs n m [] = [] := by rw [numberPairs]

theorem numberPairs_cons : numberPairs n m (mk c kids :: rest) =
    ((c.numberPairs n m).flatMap fun pair => (if c.isGroup then [] else [pair]) ++ numberPairs pair.1 pair.2 kids) ++
      numberPairs n m rest := by rw [numberPairs]

theorem map_fst_numberPairs (positive : ∀ c ∈ contentsAll nodes, 1 ≤ c.repeatCount) :
    (numberPairs n m nodes).map Prod.fst = numbersWithin n nodes := by
  induction nodes using Node.induction generalizing n m with
  | nil => simp
  | cons c kids rest kidsInduction ih =>
    simp only [contentsAll_cons, List.mem_cons, List.mem_append, forall_eq_or_imp] at positive
    obtain ⟨own, others⟩ := positive
    rw [numberPairs_cons, numbersWithin_cons, List.map_append, ih fun c inside => others c (.inr inside),
      ← Content.map_fst_numberPairs (m := m) own, List.flatMap_map, List.map_flatMap]
    congr 1
    refine List.flatMap_congr fun pair _ => ?_
    rw [List.map_append, kidsInduction fun c inside => others c (.inl inside)]
    split <;> rfl

theorem map_snd_numberPairs :
    (numberPairs n m nodes).map Prod.snd = numbersWithin m (mapEach Content.withoutStar nodes) := by
  induction nodes using Node.induction generalizing n m with
  | nil => simp [mapEach_nil]
  | cons c kids rest kidsInduction ih =>
    rw [numberPairs_cons, mapEach_cons, numbersWithin_cons, List.map_append, ih,
      ← Content.map_snd_numberPairs (n := n), List.flatMap_map, List.map_flatMap]
    congr 1
    refine List.flatMap_congr fun pair _ => ?_
    have group : c.withoutStar.isGroup = c.isGroup := rfl
    rw [List.map_append, kidsInduction, group]
    split <;> rfl

/-- Every pair of numbers of a list of nodes comes from a node, or from the nodes below it. -/
theorem forall_numberPairs_cons {P : Int × Int → Prop} :
    (∀ pair ∈ numberPairs n m (mk c kids :: rest), P pair) ↔
      (∀ pair ∈ c.numberPairs n m,
        (c.isGroup = false → P pair) ∧ ∀ below ∈ numberPairs pair.1 pair.2 kids, P below) ∧
      ∀ pair ∈ numberPairs n m rest, P pair := by
  rw [numberPairs_cons, List.forall_mem_append, List.forall_mem_flatMap]
  refine and_congr_left fun _ => forall₂_congr fun pair _ => ?_
  rw [List.forall_mem_append]
  cases c.isGroup <;> simp

/-- If the numbers of the copies are the same or the first is one, then so are all pairs of numbers. -/
theorem numberPairs_same_or_one (related : n = m ∨ n = 1) :
    ∀ pair ∈ numberPairs n m nodes, pair.1 = pair.2 ∨ pair.1 = 1 := by
  induction nodes using Node.induction generalizing n m with
  | nil => simp
  | cons c kids rest kidsInduction ih =>
    have own : ∀ pair ∈ c.numberPairs n m, pair.1 = pair.2 ∨ pair.1 = 1 := by
      intro pair inside
      rw [Content.numberPairs] at inside
      by_cases many : 1 < c.repeatCount
      · rw [if_pos many] at inside
        obtain ⟨number, -, rfl⟩ := List.mem_map.1 inside
        exact .inl rfl
      · rw [if_neg many, List.mem_singleton] at inside
        rw [inside]
        by_cases star : c.implicitRepeat = true
        · exact .inr (if_pos star)
        · rwa [if_neg star]
    rw [forall_numberPairs_cons]
    exact ⟨fun pair inside => ⟨fun _ => own pair inside, kidsInduction (own pair inside)⟩, ih related⟩

end Node

/-! ## Numbering anew -/

/-- Where a node gets its numbers from. -/
inductive Numbering where
  /-- No count stands above it. -/
  | plain
  /-- The nearest count above it, with no bare star after that. -/
  | counted
  /-- A bare star below the nearest count above it. -/
  | restarted
  deriving DecidableEq, Repr

namespace Numbering

/-- Where the copies of a content, and the nodes below it, get their numbers from. -/
def below (s : Numbering) (c : Content) : Numbering :=
  if 1 < c.repeatCount then .counted else if c.implicitRepeat = true ∧ s = .counted then .restarted else s

/-- The numbers of copies with bare stars and without them, in copies after the first. -/
def Relates : Numbering → Int → Int → Prop
  | plain, n, m => n = 1 ∧ m = 1
  | counted, n, m => n = m ∧ 2 ≤ m
  | restarted, n, m => n = 1 ∧ 2 ≤ m

variable {s : Numbering} {c : Content} {n m : Int}

theorem Relates.eq_iff (related : s.Relates n m) : n = m ↔ s ≠ .restarted := by
  cases s <;> simp only [Relates] at related <;> simp <;> omega

/-- A content that is wanted once keeps the relation. -/
theorem Relates.below (once : ¬ 1 < c.repeatCount) (related : s.Relates n m) :
    (s.below c).Relates (if c.implicitRepeat then 1 else n) m := by
  rw [Numbering.below, if_neg once]
  by_cases star : c.implicitRepeat = true
  · rw [if_pos star]
    cases s with
    | plain => rwa [if_neg (by simp), ← related.1]
    | counted =>
      rw [if_pos ⟨star, rfl⟩]
      exact ⟨rfl, related.2⟩
    | restarted => rwa [if_neg (by simp), ← related.1]
  · rwa [if_neg star, if_neg (by simp [star])]

end Numbering

namespace Node

variable {nodes : List Node} {n m : Int} {s : Numbering}

/-- Some node with a token gets its number from a bare star that stands below the nearest count. -/
def restarts (s : Numbering) : List Node → Bool
  | [] => false
  | mk c kids :: rest =>
    s.below c == .restarted && !c.isGroup || restarts (s.below c) kids || restarts s rest

@[simp] theorem restarts_nil : restarts s [] = false := by rw [restarts]

theorem restarts_cons_eq_false {c : Content} {kids rest : List Node} :
    restarts s (mk c kids :: rest) = false ↔
      ((c.isGroup = false → s.below c ≠ .restarted) ∧ restarts (s.below c) kids = false) ∧
        restarts s rest = false := by
  rw [restarts]
  cases c.isGroup <;> simp

/-- What is not numbered anew below a count is not numbered anew where no count stands above it. -/
theorem restarts_plain (none : restarts s nodes = false) : restarts .plain nodes = false := by
  induction nodes using Node.induction generalizing s with
  | nil => rw [restarts_nil]
  | cons c kids rest kidsInduction ih =>
    obtain ⟨⟨own, below⟩, beside⟩ := restarts_cons_eq_false.1 none
    refine restarts_cons_eq_false.2 ⟨⟨fun _ => ?_, ?_⟩, ih beside⟩
    · simp only [Numbering.below]
      split <;> simp
    · -- at the first count both begin alike, and above it nothing is numbered anew
      by_cases many : 1 < c.repeatCount
      · rw [Numbering.below, if_pos many] at below ⊢
        exact below
      · have same : Numbering.plain.below c = .plain := by simp [Numbering.below, many]
        rw [same]
        exact kidsInduction below

/-- All numbers are the same with and without stars exactly if no node with a token is numbered anew. -/
theorem numberPairs_same_iff (related : s.Relates n m) :
    (∀ pair ∈ numberPairs n m nodes, pair.1 = pair.2) ↔ restarts s nodes = false := by
  induction nodes using Node.induction generalizing s n m with
  | nil => simp
  | cons c kids rest kidsInduction ih =>
    rw [forall_numberPairs_cons, restarts_cons_eq_false, ih related]
    refine and_congr_left fun _ => ?_
    rw [Content.numberPairs]
    by_cases many : 1 < c.repeatCount
    · -- the second copy shows whether something below the count is numbered anew, and the first one never does
      have counted : s.below c = .counted := by rw [Numbering.below, if_pos many]
      rw [if_pos many, counted]
      constructor
      · intro same
        have second : (2 : Int) ∈ c.copyNumbers := by
          rw [Content.copyNumbers, List.mem_map]
          exact ⟨1, List.mem_range.2 (by omega), rfl⟩
        have below := (same (2, 2) (List.mem_map.2 ⟨2, second, rfl⟩)).2
        exact ⟨fun _ => by simp, (kidsInduction (s := .counted) ⟨rfl, by omega⟩).1 below⟩
      · rintro ⟨-, none⟩ pair inside
        obtain ⟨number, wanted, rfl⟩ := List.mem_map.1 inside
        obtain ⟨k, -, rfl⟩ := List.mem_map.1 wanted
        refine ⟨fun _ => rfl, ?_⟩
        cases k with
        | zero => exact (kidsInduction (s := .plain) ⟨rfl, rfl⟩).2 (restarts_plain none)
        | succ k => exact (kidsInduction (s := .counted) ⟨rfl, by dsimp only; omega⟩).2 none
    · have next := related.below many
      rw [if_neg many, List.forall_mem_singleton, kidsInduction next, next.eq_iff]

end Node

/-- Reading leaves contents without numbers. -/
theorem Content.isUnnumbered_isKept : IsKept IsUnnumbered := by
  have repeated : ∀ {c : Content} {multiplier : Multiplier}, multiplier.IsPositive → c.IsUnnumbered →
      (c.repeatBy multiplier).IsUnnumbered := by
    intro c multiplier positive unnumbered
    cases multiplier with
    | absent => exact unnumbered
    | bare => exact ⟨unnumbered.repeatCount_pos, unnumbered.counter_eq⟩
    | times n => exact ⟨positive, unnumbered.counter_eq⟩
  refine ⟨⟨Int.le_refl 1, rfl⟩, repeated, fun {c said} positive unnumbered => ?_⟩
  have applied := repeated positive unnumbered
  exact ⟨applied.repeatCount_pos, applied.counter_eq⟩

namespace Node

variable {kids : List Node} (unnumbered : ∀ c ∈ contentsAll kids, c.IsUnnumbered)
include unnumbered

/-- The numbers of the tree that is optimized with its bare stars stand first in the pairs. -/
theorem numbers_optimize_eq : (optimize (mk {} kids)).numbers = (numberPairs 1 1 kids).map Prod.fst := by
  rw [numbers_optimize unnumbered, map_fst_numberPairs fun c inside => (unnumbered c inside).repeatCount_pos]

/-- Those of the tree that is optimized without them stand second. -/
theorem numbers_optimize_withoutStar :
    (optimize ((mk {} kids).mapAll Content.withoutStar)).numbers = (numberPairs 1 1 kids).map Prod.snd := by
  have cleared : ∀ c ∈ contentsAll (mapEach Content.withoutStar kids), c.IsUnnumbered := by
    rw [contentsAll_mapEach]
    intro c inside
    obtain ⟨d, within, rfl⟩ := List.mem_map.1 inside
    exact ⟨(unnumbered d within).repeatCount_pos, (unnumbered d within).counter_eq⟩
  rw [mapAll_mk, numbers_optimize cleared, map_snd_numberPairs]

/-- The nodes below the two optimized trees are the same, up to stars and numbers. -/
theorem mapEach_unnumbered_optimize :
    mapEach Content.unnumbered (optimize (mk {} kids)).children =
      mapEach Content.unnumbered (optimize ((mk {} kids).mapAll Content.withoutStar)).children := by
  have groups : ∀ c : Content, c.unnumbered.isGroup = c.isGroup := fun _ => rfl
  have unrolled := unrollAll_withoutStars (fun c inside => (unnumbered c inside).repeatCount_pos) {} {} rfl
  rw [mapAll_mk]
  simp only [optimize, unroll_mk, squash_mk, children_mk]
  rw [← squashAll_mapEach groups, unrolled, squashAll_mapEach groups]

end Node

/-- A tree is optimized with its bare stars and without them to the same tree, up to the stars and the numbers. A number
is the same, or it is one with the stars. The trees are the same up to the stars exactly if no node with a token gets its
number from a bare star that stands below a count, with no count between them. -/
theorem optimize_withoutStars {t : Text} {root : Node} (accepted : parseRaw t = .ok root) :
    (optimize root).mapAll Content.unnumbered =
        (optimize (root.mapAll Content.withoutStar)).mapAll Content.unnumbered ∧
      List.Forall₂ (fun n m => n = m ∨ n = 1) (optimize root).numbers
        (optimize (root.mapAll Content.withoutStar)).numbers ∧
      ((optimize root).mapAll Content.withoutStar =
          (optimize (root.mapAll Content.withoutStar)).mapAll Content.withoutStar ↔
        Node.restarts .plain root.children = false) := by
  obtain ⟨blank, unnumbered⟩ := holds_of_parseRaw Content.isUnnumbered_isKept accepted
  obtain ⟨c, kids⟩ := root
  obtain rfl : c = {} := blank
  rw [Node.children_mk] at unnumbered
  -- the numbers of the two trees are the two sides of one list of pairs
  have first := Node.numbers_optimize_eq unnumbered
  have second := Node.numbers_optimize_withoutStar unnumbered
  have nodes := Node.mapEach_unnumbered_optimize unnumbered
  have numbers : (optimize (.mk {} kids)).numbers =
      (optimize ((Node.mk {} kids).mapAll Content.withoutStar)).numbers ↔ Node.restarts .plain kids = false := by
    rw [first, second, List.map_inj_left]
    exact Node.numberPairs_same_iff ⟨rfl, rfl⟩
  have kept : ∀ c : Content, c.withoutStar.counter = c.counter := fun _ => rfl
  refine ⟨congrArg (Node.mk {}) nodes, ?_, ?_⟩
  · rw [first, second, List.forall₂_map_left_iff, List.forall₂_map_right_iff, List.forall₂_same]
    exact Node.numberPairs_same_or_one (.inl rfl)
  · rw [Node.children_mk, ← numbers]
    constructor
    · intro same
      have contents := congrArg Node.numbers same
      rwa [Node.numbers_mapAll kept, Node.numbers_mapAll kept] at contents
    · intro same
      exact congrArg (Node.mk {}) (Node.mapEach_withoutStar_eq nodes same)

/-- A bare star above a count changes nothing but the flag. -/
theorem optimize_withoutStars_aboveCount :
    ∃ root, parseRaw "ul*>li*2".toList = .ok root ∧
      (optimize root).mapAll Content.withoutStar =
        (optimize (root.mapAll Content.withoutStar)).mapAll Content.withoutStar := by
  have ended : (readAbbreviation "ul*>li*2".toList).fault = none := by cbv
  have accepted := parseRaw_eq_ok_iff.2 ⟨ended, rfl⟩
  have plain : Node.restarts .plain (readAbbreviation "ul*>li*2".toList).tree.children = false := by cbv
  exact ⟨_, accepted, (optimize_withoutStars accepted).2.2.2 plain⟩

/-- A bare star below a count begins to number anew: the second item has the number one with it, and two without it. -/
theorem optimize_ne_withoutStars_belowCount :
    ∃ root, parseRaw "ul*2>li*".toList = .ok root ∧
      (optimize root).numbers = [1, 1, 2, 1] ∧
      (optimize (root.mapAll Content.withoutStar)).numbers = [1, 1, 2, 2] ∧
      (optimize root).mapAll Content.withoutStar ≠
        (optimize (root.mapAll Content.withoutStar)).mapAll Content.withoutStar := by
  have ended : (readAbbreviation "ul*2>li*".toList).fault = none := by cbv
  have accepted := parseRaw_eq_ok_iff.2 ⟨ended, rfl⟩
  have first : (optimize (readAbbreviation "ul*2>li*".toList).tree).numbers = [1, 1, 2, 1] := by cbv
  have second : (optimize ((readAbbreviation "ul*2>li*".toList).tree.mapAll Content.withoutStar)).numbers =
      [1, 1, 2, 2] := by cbv
  have kept : ∀ c : Content, c.withoutStar.counter = c.counter := fun _ => rfl
  refine ⟨_, accepted, first, second, fun same => ?_⟩
  have contents := congrArg Node.numbers same
  rw [Node.numbers_mapAll kept, Node.numbers_mapAll kept, first, second] at contents
  exact absurd contents (by decide)

end Shorthand
