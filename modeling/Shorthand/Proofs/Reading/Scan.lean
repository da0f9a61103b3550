import Shorthand.Reading.Scan

/-! # What the items of a reading say

The scan of a level reads each token and each multiplier once and keeps what it found in the item. So the items of
a reading that no fault ended are *faithful*: they say what their texts say.

* **`Item.AreFaithful`** — tokens say what their texts say, and multipliers are such as are read.
* `readItems_areFaithful` — the items of a level are faithful. -/

namespace Shorthand

/-! ## Changed results -/

section

variable {ε α β : Type} {f : α → β} {x : Except ε α}

/-- A changed result comes from a result. -/
theorem exists_of_map_eq_ok {b : β} (done : x.map f = .ok b) : ∃ a, x = .ok a ∧ f a = b := by
  cases x with
  | error fault => cases done
  | ok a =>
    cases done
    exact ⟨a, rfl, rfl⟩

/-- A fault of a computation with a changed result is a fault of the computation. -/
theorem eq_error_of_map {fault : ε} (failed : x.map f = .error fault) : x = .error fault := by
  cases x with
  | error other =>
    cases failed
    rfl
  | ok a => cases failed

end

/-! ## Multipliers -/

namespace Multiplier

/-- A number of repetitions is never less than one. -/
def IsPositive : Multiplier → Prop
  | .times n => 1 ≤ n
  | _ => True

/-- Zero stands for once, so that a written number gives a positive multiplier. -/
theorem ofInt_isPositive (n : Nat) : (ofInt n).IsPositive := by
  simp only [ofInt, IsPositive]
  split <;> omega

/-- Digits after a star give a positive multiplier. -/
theorem ofDigits_isPositive {digits : Text} {m : Multiplier} (h : ofDigits digits = .ok m) :
    m.IsPositive := by
  unfold ofDigits at h
  split at h
  · cases h; trivial
  · cases value : Text.readDigits digits with
    | error fault => rw [value] at h; cases h
    | ok n =>
      rw [value] at h
      cases h
      exact ofInt_isPositive n

/-- The multiplier that is read after a group is positive. -/
theorem read_isPositive {t rest : Text} {m : Multiplier} (h : read t = .ok (m, rest)) :
    m.IsPositive := by
  rcases read_cases h with ⟨-, rfl⟩ | ⟨after, -, counted, -⟩
  · trivial
  · exact ofDigits_isPositive counted

/-- The multiplier that is cut off a token is positive. -/
theorem cut_isPositive {t rest : Text} {m : Multiplier} (h : cut t = .ok (rest, m)) :
    m.IsPositive := by
  rcases cut_cases h with ⟨-, -, rfl⟩ | ⟨digits, -, counted⟩
  · trivial
  · exact ofDigits_isPositive counted

end Multiplier

/-! ## Tokens and items -/

/-- The longest token at the beginning of a text and what follows it make up the text. -/
theorem tokenRun_append {size : Nat} {t source rest : Text}
    (run : tokenRun size t = .ok (source, rest)) : source ++ rest = t := by
  fun_induction tokenRun size t generalizing source rest with
  | case1 => cases run; rfl
  | case2 c rest' bracket span after found ih =>
    obtain ⟨⟨taken, left⟩, later, same⟩ := exists_of_map_eq_ok run
    cases same
    rw [List.append_assoc, ih later, Delimiter.span?_append found]
  | case3 => cases run
  | case4 c rest' _ _ ih =>
    obtain ⟨⟨taken, left⟩, later, same⟩ := exists_of_map_eq_ok run
    cases same
    rw [List.cons_append, ih later]
  | case5 => cases run; rfl

/-- A token that is read to its end has its multiplier cut off and keeps the rest as its abbreviation. -/
theorem Token.cut_of_read {source : Text} {said : Token} (h : Token.read source = (said, none)) :
    ∃ rest, Multiplier.cut source = .ok (rest, said.multiplier) ∧ said.abbreviation = some rest := by
  unfold Token.read at h
  split at h
  · simp at h
  · next rest multiplier cut =>
    refine ⟨rest, ?_⟩
    rw [cut]
    dsimp only at h
    -- the parts that are read later change neither the multiplier nor the abbreviation
    split at h
    · simp at h
    · split at h
      · simp at h
      · split at h
        · rw [← (Prod.mk.inj h).1]
          exact ⟨rfl, rfl⟩
        · simp at h

namespace Item

mutual
/-- An item says what its text says. -/
def IsFaithful : Item → Prop
  | token source _ said => Token.read source = (said, none)
  | group inside multiplier => AreFaithful inside ∧ multiplier.IsPositive
  | _ => True

/-- All items of a list, and those inside of their groups, say what their texts say. -/
def AreFaithful : List Item → Prop
  | [] => True
  | item :: rest => IsFaithful item ∧ AreFaithful rest
end

@[simp] theorem areFaithful_nil : AreFaithful [] := by rw [AreFaithful]; trivial

@[simp] theorem areFaithful_cons (item : Item) (rest : List Item) :
    AreFaithful (item :: rest) ↔ IsFaithful item ∧ AreFaithful rest := by rw [AreFaithful]

end Item

/-- The items of a level that is read to its end are faithful. -/
theorem readItems_areFaithful {groups steps size : Nat} {t : Text}
    (h : (readItems groups steps size t).fault = none) :
    Item.AreFaithful (readItems groups steps size t).items := by
  fun_induction readItems groups steps size t with
  | case1 => exact Item.areFaithful_nil
  | case7 size rest steps span after groups inside reading ended multiplier next read _
      insideFaithful restFaithful =>
    rw [Reading.items_after, Item.areFaithful_cons, Item.IsFaithful]
    exact ⟨⟨insideFaithful ended, Multiplier.read_isPositive read⟩, restFaithful h⟩
  | case14 groups size c rest steps _ _ _ _ source after _ _ said read restFaithful =>
    rw [Reading.items_after, Item.areFaithful_cons, Item.IsFaithful]
    exact ⟨read, restFaithful h⟩
  | _ => simp_all [Reading.failed, Item.IsFaithful]

end Shorthand
