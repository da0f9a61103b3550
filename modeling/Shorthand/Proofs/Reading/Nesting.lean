import Shorthand.Proofs.Reading.Compose

/-! # How deep groups are nested

The items of a reading tell how many groups were opened in each other. A reading for which fewer groups may be opened is
the same as long as it opens no more than it may.

* **`Item.nestingAll`** — the number of groups that are opened in each other.
* `readItems_of_nestingAll_le` — the reading depends on the limit only through the groups that it opens. -/

namespace Shorthand

namespace Item

mutual
/-- The number of groups of an item that are opened in each other. -/
def nesting : Item → Nat
  | group inside _ => nestingAll inside + 1
  | _ => 0

/-- The greatest number of groups that are opened in each other in a list of items. -/
def nestingAll : List Item → Nat
  | [] => 0
  | item :: rest => max (nesting item) (nestingAll rest)
end

@[simp] theorem nestingAll_nil : nestingAll [] = 0 := by rw [nestingAll]

@[simp] theorem nestingAll_cons (item : Item) (rest : List Item) :
    nestingAll (item :: rest) = max (nesting item) (nestingAll rest) := by rw [nestingAll]

@[simp] theorem nesting_group (inside : List Item) (multiplier : Multiplier) :
    nesting (.group inside multiplier) = nestingAll inside + 1 := by rw [nesting]

/-- Operators and tokens open no groups. -/
@[simp] theorem nesting_of_single {item : Item} (single : ∀ inside multiplier, item ≠ .group inside multiplier) :
    nesting item = 0 := by
  rw [nesting]
  exact single

/-- A limit that allows a group allows one group less inside of it. -/
theorem exists_of_nestingAll_group_le {inside rest : List Item} {multiplier : Multiplier}
    {fewer groups : Nat} (within : nestingAll (.group inside multiplier :: rest) ≤ fewer)
    (less : fewer ≤ groups + 1) :
    ∃ deeper, fewer = deeper + 1 ∧ nestingAll inside ≤ deeper ∧ deeper ≤ groups ∧
      nestingAll rest ≤ fewer := by
  rw [nestingAll_cons, nesting_group, Nat.max_le] at within
  obtain ⟨deeper, rfl⟩ := Nat.exists_eq_add_of_le' (Nat.le_of_add_left_le within.1)
  exact ⟨deeper, rfl, Nat.le_of_succ_le_succ within.1, Nat.le_of_succ_le_succ less, within.2⟩

end Item

/-- A reading that opens no more groups than a smaller limit allows is the same with that limit. -/
theorem readItems_of_nestingAll_le (groups steps size : Nat) (t : Text) :
    ∀ fewer, Item.nestingAll (readItems groups steps size t).items ≤ fewer → fewer ≤ groups →
      readItems fewer steps size t = readItems groups steps size t := by
  fun_induction readItems groups steps size t with
  | case1 => exact fun fewer _ _ => readItems_nil
  | case2 =>
    intro fewer _ _
    rw [readItems]
  | case3 groups size rest steps unclosed =>
    intro fewer _ _
    rw [readItems, if_pos rfl]
    simp only [unclosed]
  | case4 size rest steps span after found =>
    intro fewer _ less
    obtain rfl := Nat.le_zero.1 less
    rw [readItems, if_pos rfl]
    simp only [found]
  | case5 size rest steps span after groups inside reading fault ended found ih =>
    intro fewer within less
    obtain ⟨deeper, rfl, inner, lower, -⟩ := Item.exists_of_nestingAll_group_le within less
    have same : readItems deeper (stepLimit - 1) span.interior.trim.length span.interior.trim =
        reading := ih deeper inner lower
    rw [readItems, if_pos rfl]
    simp only [found, same, ended]
  | case6 size rest steps span after groups inside reading ended fault refused found ih =>
    intro fewer within less
    obtain ⟨deeper, rfl, inner, lower, -⟩ := Item.exists_of_nestingAll_group_le within less
    have same : readItems deeper (stepLimit - 1) span.interior.trim.length span.interior.trim =
        reading := ih deeper inner lower
    rw [readItems, if_pos rfl]
    simp only [found, same, ended, refused]
  | case7 size rest steps span after groups inside reading ended multiplier next cut found insideIh
      restIh =>
    intro fewer within less
    obtain ⟨deeper, rfl, inner, lower, others⟩ := Item.exists_of_nestingAll_group_le within less
    have same : readItems deeper (stepLimit - 1) span.interior.trim.length span.interior.trim =
        reading := insideIh deeper inner lower
    rw [readItems, if_pos rfl]
    simp only [found, same, ended, cut, restIh (deeper + 1) others less]
  | case8 groups size rest steps _ ih =>
    intro fewer within less
    simp only [Reading.items_after, Item.nestingAll_cons, Nat.max_le] at within
    rw [readItems_descend, ih fewer within.2 less]
  | case9 groups size rest steps _ _ ih =>
    intro fewer within less
    simp only [Reading.items_after, Item.nestingAll_cons, Nat.max_le] at within
    rw [readItems_sibling, ih fewer within.2 less]
  | case10 groups size rest steps _ _ _ ih =>
    intro fewer within less
    simp only [Reading.items_after, Item.nestingAll_cons, Nat.max_le] at within
    rw [readItems_climb, ih fewer within.2 less]
  | case11 groups size c rest steps notGroup notDescend notSibling notClimb fault refused =>
    intro fewer _ _
    rw [readItems, if_neg notGroup, if_neg notDescend, if_neg notSibling, if_neg notClimb]
    simp only [refused]
  | case12 groups size c rest steps notGroup notDescend notSibling notClimb after empty =>
    intro fewer _ _
    rw [readItems, if_neg notGroup, if_neg notDescend, if_neg notSibling, if_neg notClimb]
    simp only [empty]
  | case13 groups size c rest steps notGroup notDescend notSibling notClimb source after nonempty run
      token fault read =>
    intro fewer _ _
    exact readItems_token_of_fault ⟨notGroup, notDescend, notSibling, notClimb⟩ run nonempty read
  | case14 groups size c rest steps notGroup notDescend notSibling notClimb source after nonempty run
      token read ih =>
    intro fewer within less
    simp only [Reading.items_after, Item.nestingAll_cons, Nat.max_le] at within
    rw [readItems_token ⟨notGroup, notDescend, notSibling, notClimb⟩ run nonempty read,
      ih fewer within.2 less]

end Shorthand
