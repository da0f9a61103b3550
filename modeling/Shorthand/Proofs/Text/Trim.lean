import Mathlib
import Shorthand.Text.Blank

/-! # Trimming

White space is trimmed from the two ends of a text, up to the first and the last character that is none.

* `Text.takeWhile_dropWhile_iff` — a run of characters at the beginning of a text ends where it does not go on.
* `Text.exists_eq_append_trim` — a text is white space, what is left of it, and white space.
* `Text.trim_eq_self` — a text with no white space at its ends is trimmed already.
* `Text.trim_append_cons` — trimming stops at a character that is no white space. -/

namespace Shorthand

namespace Text

/-- A text is made up of the white space before it, what is left when it is trimmed, and white space after it. -/
theorem exists_eq_append_trim (t : Text) : ∃ trailing, (∀ c ∈ trailing, isBlank c = true) ∧
    t = t.takeWhile isBlank ++ (t.trim ++ trailing) := by
  refine ⟨((t.dropWhile isBlank).reverse.takeWhile isBlank).reverse, fun c inside => ?_, ?_⟩
  · exact List.mem_takeWhile_imp (List.mem_reverse.1 inside)
  · rw [trim, trimStart, trimEnd, ← List.reverse_append, List.takeWhile_append_dropWhile, List.reverse_reverse,
      List.takeWhile_append_dropWhile]

/-- Nothing is dropped from a text whose first character stays. -/
theorem dropWhile_eq_self_of_head? {drops : Char → Bool} {t : Text} (stays : ∀ c ∈ t.head?, drops c = false) :
    t.dropWhile drops = t := by
  cases t with
  | nil => rfl
  | cons c rest => exact List.dropWhile_cons_of_neg (by simp [stays c rfl])

/-- A run of characters of one kind is the beginning of a text of that kind that does not go on. -/
theorem takeWhile_dropWhile_iff {p : Char → Bool} {t run rest : Text} :
    t.takeWhile p = run ∧ t.dropWhile p = rest ↔
      t = run ++ rest ∧ (∀ c ∈ run, p c = true) ∧ ∀ c ∈ rest.head?, p c = false := by
  constructor
  · rintro ⟨rfl, rfl⟩
    refine ⟨List.takeWhile_append_dropWhile.symm, fun c => List.mem_takeWhile_imp, fun c first => ?_⟩
    have stops := List.head?_dropWhile_not p t
    rw [Option.mem_def.1 first] at stops
    simpa using stops
  · rintro ⟨rfl, all, stops⟩
    have none : rest.dropWhile p = rest := dropWhile_eq_self_of_head? stops
    have nothing : rest.takeWhile p = [] := by
      cases rest with
      | nil => rfl
      | cons c rest => exact List.takeWhile_cons_of_neg (by simp [stops c rfl])
    rw [List.takeWhile_append_of_pos all, List.dropWhile_append_of_pos all, none, nothing, List.append_nil]
    exact ⟨rfl, rfl⟩

/-- A text is the run of characters of one kind at its beginning and a text that does not begin with one. -/
theorem takeWhile_dropWhile (p : Char → Bool) (t : Text) :
    t = t.takeWhile p ++ t.dropWhile p ∧ (∀ c ∈ t.takeWhile p, p c = true) ∧ ∀ c ∈ (t.dropWhile p).head?, p c = false :=
  takeWhile_dropWhile_iff.1 ⟨rfl, rfl⟩

/-- A text that neither begins nor ends with white space is left as it is by trimming. -/
theorem trim_eq_self {t : Text} (first : ∀ c ∈ t.head?, isBlank c = false)
    (last : ∀ c ∈ t.getLast?, isBlank c = false) : t.trim = t := by
  have start : trimStart isBlank t = t := dropWhile_eq_self_of_head? first
  have stop : t.reverse.dropWhile isBlank = t.reverse :=
    dropWhile_eq_self_of_head? fun c inside => last c (by rwa [List.head?_reverse] at inside)
  rw [trim, start, trimEnd, stop, List.reverse_reverse]

/-- A text without white space is left as it is by trimming. -/
theorem trim_eq_self_of_forall {t : Text} (plain : ∀ c ∈ t, isBlank c = false) : t.trim = t :=
  trim_eq_self (fun c first => plain c (List.mem_of_mem_head? first))
    fun c last => plain c (List.mem_of_getLast? last)

/-- A trimmed text does not begin with white space. -/
theorem isBlank_head_of_trim_eq_self {c : Char} {rest : Text} (trimmed : trim (c :: rest) = c :: rest) :
    isBlank c = false := by
  rw [← Bool.not_eq_true]
  intro blank
  have shorter : (trim (c :: rest)).length ≤ rest.length := by
    have dropped : trimStart isBlank (c :: rest) = trimStart isBlank rest := by
      rw [trimStart, List.dropWhile_cons_of_pos blank, trimStart]
    rw [trim, dropped]
    exact length_trim_le rest
  rw [trimmed, List.length_cons] at shorter
  omega

/-- What is no white space is no gap. -/
theorem isGap_of_isBlank_eq_false {c : Char} (stays : isBlank c = false) : isGap c = false := by
  rw [← Bool.not_eq_true]
  intro gap
  rw [isBlank_of_isGap gap] at stays
  cases stays

/-- Trimming the end of a text stops at a character that is not trimmed. -/
theorem trimEnd_append_cons {blank : Char → Bool} {c : Char} (stays : blank c = false) (before rest : Text) :
    trimEnd blank (before ++ c :: rest) = before ++ c :: trimEnd blank rest := by
  have reversed : (before ++ c :: rest).reverse = rest.reverse ++ c :: before.reverse := by simp
  rw [trimEnd, trimEnd, reversed, List.dropWhile_append]
  split
  · next nothing =>
    rw [List.isEmpty_iff.1 nothing, List.dropWhile_cons_of_neg (by simp [stays])]
    simp
  · simp

/-- Of a text that does not begin with white space, no more is trimmed than what follows a character that stays. -/
theorem trim_append_cons {before rest : Text} {c : Char} (stays : isBlank c = false)
    (first : ∀ e ∈ (before ++ c :: rest).head?, isBlank e = false) :
    trim (before ++ c :: rest) = before ++ c :: trimEnd isBlank rest := by
  have start : trimStart isBlank (before ++ c :: rest) = before ++ c :: rest := dropWhile_eq_self_of_head? first
  rw [trim, start, trimEnd_append_cons stays]

/-- Trimming a text that ends with a character that is no white space leaves the character and the end of what stands
before it. -/
theorem exists_trim_concat {c : Char} (stays : isBlank c = false) (t : Text) :
    ∃ dropped left, t = dropped ++ left ∧ trim (t ++ [c]) = left ++ [c] := by
  refine ⟨t.takeWhile isBlank, t.dropWhile isBlank, (List.takeWhile_append_dropWhile ..).symm, ?_⟩
  have start : trimStart isBlank (t ++ [c]) = t.dropWhile isBlank ++ [c] := by
    rw [trimStart, List.dropWhile_append]
    split
    · next nothing =>
      rw [List.isEmpty_iff.1 nothing, List.nil_append, List.dropWhile_cons_of_neg (by simp [stays])]
    · rfl
  rw [trim, start, trimEnd_append_cons stays]
  rfl

/-- What is left of a text when its end is trimmed begins it. -/
theorem trimEnd_isPrefix (blank : Char → Bool) (t : Text) : trimEnd blank t <+: t := by
  rw [trimEnd, ← List.reverse_suffix, List.reverse_reverse]
  exact List.dropWhile_suffix blank

/-- A trimmed text does not begin with white space. -/
theorem isBlank_of_head?_trim (t : Text) : ∀ c ∈ t.trim.head?, isBlank c = false := by
  intro c first
  obtain ⟨rest, whole⟩ := trimEnd_isPrefix isBlank (trimStart isBlank t)
  have begins : c ∈ (t.dropWhile isBlank).head? := by
    rw [trim] at first
    rw [← trimStart, ← whole]
    exact List.mem_head?_append_of_mem_head? first
  have stops := List.head?_dropWhile_not isBlank t
  rw [Option.mem_def.1 begins] at stops
  simpa using stops

end Text

end Shorthand
