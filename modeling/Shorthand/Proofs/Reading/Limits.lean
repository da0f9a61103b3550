import Shorthand.Proofs.Reading.Nesting
import Shorthand.Reading.Spine

/-! # The limits of a reading

Reading is limited in two ways: a level may take so many scan steps, and groups may be nested so deep. Apart from that a
text is read as operators, groups and tokens, one step for each of them, and this can be said without the limits. The
number of steps is started anew for each group, so a text is refused for its steps exactly if one of its levels has too
many items, wherever it stands.

* **`Text.IsReadAs`** — what the end of a level is read as, without limits.
* **`Item.levels`** — the levels of an abbreviation: its items, and those inside of each of its groups.
* `isReadAs_of_readItems` — what is read within the limits is read without them.
* `readItems_of_isReadAs`, `exists_tooManySteps_of_isReadAs` — what the limits make of it.
* `parseRaw_endless_iff` — a text that can be read is refused exactly for a level of a thousand items or more. -/

namespace Shorthand

/-- The end of a level of `size` characters is read as the items. It is made up of operators, of balanced groups whose
insides can be read, with the multipliers after them, and of tokens. How many items there are and how deep groups are
nested does not matter. -/
inductive Text.IsReadAs : Nat → Text → List Item → Prop where
  | nil {size} : IsReadAs size [] []
  | descend {size rest items} (later : IsReadAs size rest items) : IsReadAs size ('>' :: rest) (.descend :: items)
  | sibling {size rest items} (later : IsReadAs size rest items) : IsReadAs size ('+' :: rest) (.sibling :: items)
  | climb {size rest items} (later : IsReadAs size rest items) : IsReadAs size ('^' :: rest) (.climb :: items)
  | group {size inside rest after multiplier inner items} (balanced : Delimiter.round.IsBalanced inside)
      (within : IsReadAs inside.trim.length inside.trim inner)
      (counted : Multiplier.read rest = .ok (multiplier, after)) (later : IsReadAs size after items) :
      IsReadAs size (inside.grouped ++ rest) (.group inner multiplier :: items)
  | token {size c rest source after said items} (begins : IsPlainStart c)
      (run : tokenRun size (c :: rest) = .ok (source, after)) (nonempty : source ≠ [])
      (read : Token.read source = (said, none)) (later : IsReadAs size after items) :
      IsReadAs size (c :: rest) (.token source (size - (c :: rest).length) said :: items)

namespace Item

mutual
/-- The levels inside of an item: the inside of a group, and the levels inside of that. -/
def innerLevels : Item → List (List Item)
  | group inside _ => inside :: innerLevelsAll inside
  | _ => []

/-- The levels inside of the items of a list. -/
def innerLevelsAll : List Item → List (List Item)
  | [] => []
  | item :: rest => innerLevels item ++ innerLevelsAll rest
end

/-- The levels of a list of items: the list itself, and the levels inside of its items. -/
def levels (items : List Item) : List (List Item) := items :: innerLevelsAll items

@[simp] theorem innerLevelsAll_nil : innerLevelsAll [] = [] := by rw [innerLevelsAll]

@[simp] theorem innerLevelsAll_cons (item : Item) (rest : List Item) :
    innerLevelsAll (item :: rest) = innerLevels item ++ innerLevelsAll rest := by rw [innerLevelsAll]

@[simp] theorem innerLevels_group (inside : List Item) (multiplier : Multiplier) :
    innerLevels (.group inside multiplier) = levels inside := by rw [innerLevels, levels]

/-- Operators and tokens have no levels inside. -/
@[simp] theorem innerLevels_of_single {item : Item} (single : ∀ inside multiplier, item ≠ .group inside multiplier) :
    innerLevels item = [] := by
  rw [innerLevels]
  exact single

end Item

open Text

/-- What is read within the limits is read without them. -/
theorem isReadAs_of_readItems {groups steps size : Nat} {t : Text}
    (ended : (readItems groups steps size t).fault = none) :
    IsReadAs size t (readItems groups steps size t).items := by
  fun_induction readItems groups steps size t with
  | case1 => exact .nil
  | case7 size rest steps span after groups inside reading endsInside multiplier next counted found within later =>
    obtain ⟨interior, balanced, rfl, rfl⟩ := Delimiter.isBalanced_of_span? (d := .round) found
    have sameInside : inside = interior.trim := congrArg Text.trim (Text.interior_delimited ..)
    have group : '(' :: (interior ++ Delimiter.round.closer :: after) = interior.grouped ++ after :=
      (grouped_append interior after).symm
    rw [group]
    have insideRead : IsReadAs interior.trim.length interior.trim reading.items := by
      rw [← sameInside]
      exact within endsInside
    exact .group balanced insideRead counted (later ended)
  | case8 groups size rest steps _ ih => exact .descend (ih ended)
  | case9 groups size rest steps _ _ ih => exact .sibling (ih ended)
  | case10 groups size rest steps _ _ _ ih => exact .climb (ih ended)
  | case14 groups size c rest steps notGroup notDescend notSibling notClimb source after nonempty run said read ih =>
    exact .token ⟨notGroup, notDescend, notSibling, notClimb⟩ run nonempty read (ih ended)
  | _ => cases ended

variable {size : Nat} {t : Text} {items : List Item}

/-- What can be read without limits is read if it is within them. -/
theorem readItems_of_isReadAs (reads : IsReadAs size t items) : ∀ groups steps,
    Item.nestingAll items ≤ groups → items.length ≤ steps →
    (∀ level ∈ Item.innerLevelsAll items, level.length < stepLimit) →
    readItems groups steps size t = ⟨items, none⟩ := by
  induction reads with
  | nil =>
    intro groups steps _ _ _
    rw [readItems_nil]
    rfl
  | descend later ih | sibling later ih | climb later ih =>
    intro groups steps nested short inner
    obtain ⟨fewer, rfl⟩ := Nat.exists_eq_add_of_le' (Nat.le_of_add_left_le short)
    have rest := ih groups fewer (by simpa using nested) (Nat.le_of_succ_le_succ short) (by simpa using inner)
    simp only [readItems_descend, readItems_sibling, readItems_climb, rest]
    rfl
  | @token size c rest source after said items begins run nonempty read later ih =>
    intro groups steps nested short inner
    obtain ⟨fewer, rfl⟩ := Nat.exists_eq_add_of_le' (Nat.le_of_add_left_le short)
    have rest := ih groups fewer (by simpa using nested) (Nat.le_of_succ_le_succ short) (by simpa using inner)
    rw [readItems_token begins run nonempty read, rest]
    rfl
  | @group size inside rest after multiplier within items balanced _ counted _ insideIh ih =>
    intro groups steps nested short inner
    obtain ⟨fewer, rfl⟩ := Nat.exists_eq_add_of_le' (Nat.le_of_add_left_le short)
    obtain ⟨deeper, rfl, nestedInside, -, nestedRest⟩ :=
      Item.exists_of_nestingAll_group_le nested (Nat.le_succ groups)
    simp only [Item.innerLevelsAll_cons, Item.innerLevels_group, Item.levels, List.cons_append, List.mem_cons,
      List.mem_append] at inner
    -- the inside is a level of its own, for which the steps are counted anew
    have insideRead : readLevel deeper inside = ⟨within, none⟩ :=
      insideIh deeper (stepLimit - 1) nestedInside (Nat.le_pred_of_lt (inner within (.inl rfl)))
        fun level member => inner level (.inr (.inl member))
    have rest := ih (deeper + 1) fewer nestedRest (Nat.le_of_succ_le_succ short)
      fun level member => inner level (.inr (.inr member))
    rw [readItems_group balanced (by rw [insideRead]) counted, insideRead, rest]
    rfl

/-- What can be read without limits is refused for its steps if it has more items than steps may be done, or if a level
inside of it has too many. -/
theorem exists_tooManySteps_of_isReadAs (reads : IsReadAs size t items) : ∀ groups steps,
    Item.nestingAll items ≤ groups →
    steps < items.length ∨ (∃ level ∈ Item.innerLevelsAll items, stepLimit ≤ level.length) →
    ∃ position, (readItems groups steps size t).fault = some (.abbreviation (.tooManySteps position)) := by
  induction reads with
  | nil =>
    intro groups steps _ long
    simp at long
  | @descend size rest items later ih | @sibling size rest items later ih | @climb size rest items later ih =>
    intro groups steps nested long
    cases steps with
    | zero => exact ⟨_, by rw [readItems]; rfl⟩
    | succ fewer =>
      obtain ⟨position, refused⟩ := ih groups fewer (by simpa using nested) (by simpa using long)
      refine ⟨position, ?_⟩
      simpa only [readItems_descend, readItems_sibling, readItems_climb, Reading.fault_after] using refused
  | @token size c rest source after said items begins run nonempty read later ih =>
    intro groups steps nested long
    cases steps with
    | zero => exact ⟨_, by rw [readItems]; rfl⟩
    | succ fewer =>
      obtain ⟨position, refused⟩ := ih groups fewer (by simpa using nested) (by simpa using long)
      exact ⟨position, by rwa [readItems_token begins run nonempty read]⟩
  | @group size inside rest after multiplier within items balanced reads counted _ insideIh ih =>
    intro groups steps nested long
    cases steps with
    | zero => exact ⟨_, by rw [grouped_append, readItems]; rfl⟩
    | succ fewer =>
      obtain ⟨deeper, rfl, nestedInside, -, nestedRest⟩ :=
        Item.exists_of_nestingAll_group_le nested (Nat.le_succ groups)
      by_cases longInside : ∃ level ∈ Item.levels within, stepLimit ≤ level.length
      · -- the fault is found inside of the group
        obtain ⟨position, refused⟩ := insideIh deeper (stepLimit - 1) nestedInside (by
          obtain ⟨level, member, tooLong⟩ := longInside
          rcases List.mem_cons.1 member with rfl | deep
          · exact .inl (Nat.lt_of_lt_of_le (by decide) tooLong)
          · exact .inr ⟨level, deep, tooLong⟩)
        exact ⟨position, by rw [readItems_group_of_fault balanced refused]⟩
      · -- the inside is read, and the fault is found after the group
        have short : ∀ level ∈ Item.levels within, level.length < stepLimit := fun level member =>
          Nat.lt_of_not_le fun tooLong => longInside ⟨level, member, tooLong⟩
        have insideRead : readLevel deeper inside = ⟨within, none⟩ :=
          readItems_of_isReadAs reads deeper (stepLimit - 1) nestedInside
            (Nat.le_pred_of_lt (short within List.mem_cons_self))
            fun level member => short level (List.mem_cons_of_mem within member)
        obtain ⟨position, refused⟩ := ih (deeper + 1) fewer nestedRest (by
          rcases long with many | ⟨level, member, tooLong⟩
          · exact .inl (Nat.lt_of_succ_lt_succ many)
          · rw [Item.innerLevelsAll_cons, Item.innerLevels_group, List.mem_append] at member
            exact member.elim (fun member => absurd ⟨level, member, tooLong⟩ longInside)
              fun member => .inr ⟨level, member, tooLong⟩)
        exact ⟨position, by rwa [readItems_group balanced (by rw [insideRead]) counted]⟩

/-- A text that can be read, with groups nested no deeper than they may be, is refused for an endless loop exactly if
some level of it, the text or the inside of a group, has as many items as the limit of steps or more. If every level has
fewer, then the text is accepted, and its tree is that of its items. -/
theorem parseRaw_endless_iff (reads : IsReadAs t.trim.length t.trim items)
    (nested : Item.nestingAll items ≤ groupLimit) :
    ((∃ cause, parseRaw t = .error (.abbreviation cause) ∧ cause.kind = .runawayInput ∧
        "Endless loop detected".toList <+: cause.message) ↔
      ∃ level ∈ Item.levels items, stepLimit ≤ level.length) ∧
    ((∀ level ∈ Item.levels items, level.length < stepLimit) →
      parseRaw t = .ok (Reading.tree ⟨items, none⟩)) := by
  have accepted (short : ∀ level ∈ Item.levels items, level.length < stepLimit) :
      parseRaw t = .ok (Reading.tree ⟨items, none⟩) := by
    have reading : readAbbreviation t = ⟨items, none⟩ :=
      readItems_of_isReadAs reads groupLimit (stepLimit - 1) nested
        (Nat.le_pred_of_lt (short items List.mem_cons_self))
        fun level member => short level (List.mem_cons_of_mem items member)
    rw [parseRaw, reading]
  refine ⟨⟨?_, ?_⟩, accepted⟩
  · rintro ⟨cause, refused, -, -⟩
    by_contra short
    have within : ∀ level ∈ Item.levels items, level.length < stepLimit := fun level member =>
      Nat.lt_of_not_le fun tooLong => short ⟨level, member, tooLong⟩
    rw [accepted within] at refused
    cases refused
  · rintro ⟨level, member, tooLong⟩
    obtain ⟨position, refused⟩ := exists_tooManySteps_of_isReadAs reads groupLimit (stepLimit - 1) nested (by
      rcases List.mem_cons.1 member with rfl | deep
      · exact .inl (Nat.lt_of_lt_of_le (by decide) tooLong)
      · exact .inr ⟨level, deep, tooLong⟩)
    have ended : (readAbbreviation t).fault = some (.abbreviation (.tooManySteps position)) := refused
    refine ⟨.tooManySteps position, ?_, rfl, ?_⟩
    · rw [parseRaw, ended]
    · have begins : "Endless loop detected".toList <+: "Endless loop detected: reached the limit of ".toList := by
        decide
      unfold AbbreviationFault.message
      rw [List.append_assoc]
      exact begins.trans (List.prefix_append ..)

/-- Operators that go down, in a group. -/
theorem isReadAs_grouped_descend (n : Nat) :
    IsReadAs (grouped (List.replicate n '>')).length (grouped (List.replicate n '>'))
      [.group (List.replicate n .descend) .absent] := by
  have operators : ∀ size n, IsReadAs size (List.replicate n '>') (List.replicate n .descend) := by
    intro size n
    induction n with
    | zero => exact .nil
    | succ n ih => exact .descend ih
  have plain : ∀ c ∈ List.replicate n '>', c = '>' := fun c inside => List.eq_of_mem_replicate inside
  have trimmed : trim (List.replicate n '>') = List.replicate n '>' :=
    trim_eq_self_of_forall fun c inside => by rw [plain c inside]; decide
  have balanced : Delimiter.round.IsBalanced (List.replicate n '>') :=
    Delimiter.isBalanced_of_forall_ne fun c inside => by rw [plain c inside]; decide
  have inside : IsReadAs (trim (List.replicate n '>')).length (trim (List.replicate n '>'))
      (List.replicate n .descend) := by
    rw [trimmed]
    exact operators _ n
  have counted : Multiplier.read [] = .ok (.absent, []) := rfl
  have whole : IsReadAs (grouped (List.replicate n '>')).length (grouped (List.replicate n '>') ++ [])
      [.group (List.replicate n .descend) .absent] := .group balanced inside counted .nil
  rwa [List.append_nil] at whole

/-- A thousand operators in a group are refused, and one less is accepted. -/
theorem parseRaw_endless_iff_grouped :
    (∃ cause, parseRaw (grouped (List.replicate 1000 '>')) = .error (.abbreviation cause) ∧
      cause.kind = .runawayInput ∧ "Endless loop detected".toList <+: cause.message) ∧
    parseRaw (grouped (List.replicate 999 '>')) =
      .ok (Reading.tree ⟨[.group (List.replicate 999 .descend) .absent], none⟩) := by
  have flat : ∀ n, Item.nestingAll (List.replicate n .descend) = 0 ∧
      Item.innerLevelsAll (List.replicate n .descend) = [] := by
    intro n
    induction n with
    | zero => exact ⟨Item.nestingAll_nil, Item.innerLevelsAll_nil⟩
    | succ n ih => simp [List.replicate_succ, ih]
  have levels : ∀ n, Item.levels [.group (List.replicate n .descend) .absent] =
      [[.group (List.replicate n .descend) .absent], List.replicate n .descend] := by
    intro n
    rw [Item.levels, Item.innerLevelsAll_cons, Item.innerLevels_group, Item.levels, (flat n).2,
      Item.innerLevelsAll_nil, List.append_nil]
  have limits : ∀ n, _ := fun n =>
    parseRaw_endless_iff (t := grouped (List.replicate n '>'))
      (by rw [trim_grouped]; exact isReadAs_grouped_descend n)
      (by simp [flat, groupLimit])
  constructor
  · refine (limits 1000).1.2 ⟨List.replicate 1000 .descend, ?_, ?_⟩
    · rw [levels]
      exact List.mem_cons_of_mem _ List.mem_cons_self
    · rw [List.length_replicate]
      decide
  · refine (limits 999).2 fun level member => ?_
    rw [levels] at member
    rcases List.mem_pair.1 member with rfl | rfl
    · decide
    · rw [List.length_replicate]
      decide

end Shorthand
