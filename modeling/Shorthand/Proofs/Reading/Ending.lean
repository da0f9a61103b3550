import Shorthand.Proofs.Reading.Scanned

/-! # How a level ends that is read to its end

The last character of a level that no fault refuses belongs to its last item. So a closing brace there ends a text, and a
closing parenthesis ends a group, whose inside is read without a fault, too.

* **`Text.EndsAsRead`** — a text ends as a level may end that is read without a fault.
* `readItems_endsAsRead` — such levels end so.
* `Text.EndsAsRead.of_curly`, `Text.EndsAsRead.of_round` — what a closing delimiter at the end tells. -/

namespace Shorthand

namespace Text

/-! ## Where a character of a text in two parts stands -/

/-- A character of a text in two parts stands in the one or in the other. -/
theorem append_eq_append_cons {s t u r : Text} {c : Char} (same : s ++ t = u ++ c :: r) :
    (∃ left, s = u ++ c :: left ∧ r = left ++ t) ∨ ∃ right, u = s ++ right ∧ t = right ++ c :: r := by
  rcases List.append_eq_append_iff.1 same with ⟨right, rfl, rfl⟩ | ⟨left, rfl, whole⟩
  · exact .inr ⟨right, rfl, rfl⟩
  · cases left with
    | nil => exact .inr ⟨[], by simp, whole.symm⟩
    | cons e left =>
      cases whole
      exact .inl ⟨left, rfl, rfl⟩

/-- A character that is not in the first part of a text stands in the second. -/
theorem eq_append_of_not_mem {s t u r : Text} {c : Char} (same : s ++ t = u ++ c :: r) (outside : c ∉ s) :
    ∃ right, u = s ++ right ∧ t = right ++ c :: r := by
  rcases append_eq_append_cons same with ⟨left, rfl, -⟩ | found
  · simp at outside
  · exact found

/-- A character that differs from the last one stands before it. -/
theorem eq_append_of_ne_last {s u r : Text} {c e : Char} (same : s ++ [e] = u ++ c :: r) (other : c ≠ e) :
    ∃ left, s = u ++ c :: left ∧ r = left ++ [e] := by
  rcases append_eq_append_cons same with found | ⟨right, -, whole⟩
  · exact found
  · cases right with
    | nil =>
      cases whole
      exact absurd rfl other
    | cons d right => simp at whole

/-! ## Ends -/

/-- The text is empty, or it ends with a character that closes nothing, with a span, or with a group whose inside is
read without a fault. -/
inductive EndsAsRead : Text → Prop where
  | nil : EndsAsRead []
  | char (before : Text) {c : Char} (closesNone : ∀ d : Delimiter, c ≠ d.closer) : EndsAsRead (before ++ [c])
  | span (before : Text) {d : Delimiter} {inside : Text} (notRound : d ≠ .round) (balanced : d.IsBalanced inside) :
    EndsAsRead (before ++ (d.opener :: (inside ++ [d.closer])))
  | group (before : Text) {inside : Text} {groups : Nat} (balanced : Delimiter.round.IsBalanced inside)
    (ends : (readLevel groups inside).fault = none) : EndsAsRead (before ++ inside.grouped)

variable {t before rest : Text}

/-- What a text begins with does not matter as long as it goes on after that. -/
theorem EndsAsRead.append (ends : rest.EndsAsRead) (goesOn : rest ≠ []) (before : Text) :
    (before ++ rest).EndsAsRead := by
  cases ends with
  | nil => exact absurd rfl goesOn
  | char start closesNone =>
    rw [← List.append_assoc]
    exact .char _ closesNone
  | span start notRound balanced =>
    rw [← List.append_assoc]
    exact .span _ notRound balanced
  | group start balanced ends =>
    rw [← List.append_assoc]
    exact .group _ balanced ends

/-- A text in two parts ends as its second part, or as its first if the second is empty. -/
theorem EndsAsRead.append_of (first : before.EndsAsRead) (second : rest.EndsAsRead) :
    (before ++ rest).EndsAsRead := by
  by_cases goesOn : rest = []
  · rwa [goesOn, List.append_nil]
  · exact second.append goesOn before

/-- A text in which nothing is closed ends so. -/
theorem endsAsRead_of_forall (closesNone : ∀ c ∈ t, ∀ d : Delimiter, c ≠ d.closer) : t.EndsAsRead := by
  rcases List.eq_nil_or_concat t with rfl | ⟨before, c, rfl⟩
  · exact .nil
  · rw [List.concat_eq_append] at closesNone ⊢
    exact .char before (closesNone c (by simp))

/-- A token character closes nothing, and neither does a plus sign. -/
theorem ne_closer_of_isChar {c : Char} (isChar : isTokenChar c = true ∨ c = '+') (d : Delimiter) :
    c ≠ d.closer := by
  rintro rfl
  cases d <;> revert isChar <;> decide

/-- What is taken into a token ends as a token. -/
theorem IsScanned.endsAsRead (scanned : t.IsScanned) : t.EndsAsRead := by
  induction scanned with
  | nil => exact .nil
  | @char c rest isChar later ih =>
    exact EndsAsRead.append_of (.char [] (ne_closer_of_isChar isChar)) ih
  | @span d inside rest notRound balanced later ih =>
    have parts : d.opener :: (inside ++ d.closer :: rest) = d.opener :: (inside ++ [d.closer]) ++ rest := by simp
    rw [parts]
    exact EndsAsRead.append_of (.span [] notRound balanced) ih

/-- A brace at the end closes a text. -/
theorem EndsAsRead.of_curly (ends : EndsAsRead (t ++ [Delimiter.curly.closer])) :
    ∃ before inside, t = before ++ Delimiter.curly.opener :: inside ∧ Delimiter.curly.IsBalanced inside := by
  generalize whole : t ++ [Delimiter.curly.closer] = u at ends
  cases ends with
  | nil => simp at whole
  | char before closesNone =>
    obtain ⟨-, same⟩ := List.append_inj' whole rfl
    exact absurd (List.singleton_inj.1 same).symm (closesNone .curly)
  | @span before d inside notRound balanced =>
    rw [← List.cons_append, ← List.append_assoc] at whole
    obtain ⟨rfl, same⟩ := List.append_inj' whole rfl
    have isCurly : d = .curly := by
      cases d <;> first | rfl | exact absurd same (by decide)
    subst isCurly
    exact ⟨before, inside, rfl, balanced⟩
  | group before balanced ends =>
    rw [grouped, ← List.cons_append, ← List.append_assoc] at whole
    obtain ⟨-, same⟩ := List.append_inj' whole rfl
    exact absurd same (by decide)

/-- A parenthesis at the end closes a group. -/
theorem EndsAsRead.of_round (ends : EndsAsRead (t ++ [Delimiter.round.closer])) :
    ∃ before inside groups, t = before ++ Delimiter.round.opener :: inside ∧
      Delimiter.round.IsBalanced inside ∧ (readLevel groups inside).fault = none := by
  generalize whole : t ++ [Delimiter.round.closer] = u at ends
  cases ends with
  | nil => simp at whole
  | char before closesNone =>
    obtain ⟨-, same⟩ := List.append_inj' whole rfl
    exact absurd (List.singleton_inj.1 same).symm (closesNone .round)
  | @span before d inside notRound balanced =>
    rw [← List.cons_append, ← List.append_assoc] at whole
    obtain ⟨-, same⟩ := List.append_inj' whole rfl
    have isRound : d = .round := by
      cases d <;> first | rfl | exact absurd same (by decide)
    exact absurd isRound notRound
  | @group before inside groups balanced ends =>
    rw [grouped, ← List.cons_append, ← List.append_assoc] at whole
    obtain ⟨rfl, -⟩ := List.append_inj' whole rfl
    exact ⟨before, inside, groups, rfl, balanced, ends⟩

end Text

open Text

/-- What is read of a multiplier ends with a star or a digit, which close nothing. -/
theorem Multiplier.endsAsRead_of_read {t rest : Text} {multiplier : Multiplier}
    (read : Multiplier.read t = .ok (multiplier, rest)) : ∃ taken, t = taken ++ rest ∧ taken.EndsAsRead := by
  rcases read_cases read with ⟨rfl, -⟩ | ⟨after, rfl, -, rfl⟩
  · exact ⟨[], rfl, .nil⟩
  · refine ⟨'*' :: after.takeWhile Text.isDigit, by simp, endsAsRead_of_forall ?_⟩
    rintro c inside d rfl
    obtain ⟨notDigit, -, notStar⟩ := d.closer_not_multiplier
    rcases List.mem_cons.1 inside with star | digit
    · exact notStar star
    · rw [List.mem_takeWhile_imp digit] at notDigit
      cases notDigit

/-- A level that is read without a fault ends so. -/
theorem readItems_endsAsRead {groups steps size : Nat} {t : Text}
    (ended : (readItems groups steps size t).fault = none) : t.EndsAsRead := by
  fun_induction readItems groups steps size t with
  | case1 => exact .nil
  | case7 size rest steps span after groups inside reading endsInside multiplier next counted found _ ih =>
    obtain ⟨interior, balanced, rfl, rfl⟩ := Delimiter.isBalanced_of_span? (d := .round) found
    obtain ⟨taken, rfl, endsTaken⟩ := Multiplier.endsAsRead_of_read counted
    have sameInside : inside = interior.trim := congrArg Text.trim (Text.interior_delimited ..)
    have endsGroup : (readLevel groups interior).fault = none := by
      rw [readLevel, ← sameInside]
      exact endsInside
    have group : '(' :: (interior ++ Delimiter.round.closer :: (taken ++ next)) =
        interior.grouped ++ (taken ++ next) := (Text.grouped_append ..).symm
    rw [group]
    exact EndsAsRead.append_of (.group [] balanced endsGroup) (endsTaken.append_of (ih ended))
  | case8 groups size rest steps _ ih | case9 groups size rest steps _ _ ih
  | case10 groups size rest steps _ _ _ ih =>
    refine EndsAsRead.append_of (.char [] ?_) (ih ended)
    intro d
    cases d <;> decide
  | case14 groups size c rest steps _ _ _ _ source after nonempty run token _ ih =>
    rw [← tokenRun_append run]
    exact (tokenRun_isScanned run).endsAsRead.append_of (ih ended)
  | _ => cases ended

/-- Behind a closing brace a parenthesis closes a group whose last item has a text. -/
theorem Text.EndsAsRead.of_round_of_curly {t : Text}
    (ends : EndsAsRead (t ++ [Delimiter.curly.closer] ++ [Delimiter.round.closer])) :
    ∃ before last, t = before ++ Delimiter.curly.opener :: last ∧ Delimiter.curly.IsBalanced last := by
  obtain ⟨before, inside, groups, closing, -, ended⟩ := EndsAsRead.of_round ends
  obtain ⟨inside', rfl, rfl⟩ := eq_append_of_ne_last closing (by decide)
  obtain ⟨dropped, kept, rfl, trimmed⟩ := exists_trim_concat (c := Delimiter.curly.closer) (by decide) inside'
  rw [readLevel, trimmed] at ended
  obtain ⟨form, last, rfl, balanced⟩ := EndsAsRead.of_curly (readItems_endsAsRead ended)
  exact ⟨before ++ Delimiter.round.opener :: (dropped ++ form), last, by simp, balanced⟩

end Shorthand
