import Shorthand.Proofs.Delimiter
import Shorthand.Proofs.Reading.Scan
import Shorthand.Proofs.Text.Trim

/-! # How the parts of a level are read

The scan reads one item after the other. What it makes of a level follows from what it makes of the items: an operator
is one character, a group is a balanced text between parentheses with a multiplier after it, and a token is the longest
run of token characters and spans.

* `readItems_group_of_fault`, `readItems_group` — the reading of a group.
* `readItems_token_of_fault`, `readItems_token` — the reading of a token.
* `tokenRun_append_of_forall` — token characters are taken into a token one by one.
* `isBlank_of_isTokenChar` — token characters are no white space. -/

namespace Shorthand

/-- A token character is no white space. -/
theorem isBlank_of_isTokenChar {c : Char} (h : isTokenChar c = true) : Text.isBlank c = false := by
  have bounds : 33 ≤ c.toNat ∧ c.toNat ≤ 126 := by
    simp only [isTokenChar, isNameChar, isWordChar, isAlphanumeric, Char.isAlphanum, Char.isAlpha,
      Char.isUpper, Char.isLower, Char.isDigit, Bool.or_eq_true, Bool.and_eq_true, decide_eq_true_eq,
      beq_iff_eq, ge_iff_le, UInt32.le_iff_toNat_le] at h
    simp only [↓Char.isValue, Char.reduceVal, UInt32.reduceToNat, Char.toNat_val, Char.ext_iff,
      ← UInt32.toNat_inj] at h
    omega
  simp only [Text.isBlank, Bool.or_eq_false_iff, Bool.and_eq_false_iff, decide_eq_false_iff_not,
    beq_eq_false_iff_ne]
  omega

variable {groups steps size : Nat} {t source rest : Text}

/-! ## Operators and groups -/

/-- The reading of a trimmed abbreviation. -/
theorem readAbbreviation_of_trimmed (trimmed : t.trim = t) :
    readAbbreviation t = readItems groupLimit 999 t.length t := by
  rw [readAbbreviation, readLevel, trimmed]
  rfl

@[simp] theorem readItems_nil : readItems groups steps size [] = .done := by rw [readItems]

theorem readItems_descend :
    readItems groups (steps + 1) size ('>' :: rest) =
      (readItems groups steps size rest).after .descend := by
  rw [readItems, if_neg (by decide), if_pos rfl]

theorem readItems_sibling :
    readItems groups (steps + 1) size ('+' :: rest) =
      (readItems groups steps size rest).after .sibling := by
  rw [readItems, if_neg (by decide), if_neg (by decide), if_pos rfl]

theorem readItems_climb :
    readItems groups (steps + 1) size ('^' :: rest) =
      (readItems groups steps size rest).after .climb := by
  rw [readItems, if_neg (by decide), if_neg (by decide), if_neg (by decide), if_pos rfl]

namespace Text

/-- The text between parentheses. -/
def grouped (t : Text) : Text := '(' :: (t ++ [')'])

theorem grouped_append (t rest : Text) : t.grouped ++ rest = '(' :: (t ++ ')' :: rest) := by
  rw [grouped, List.cons_append, List.append_assoc, List.singleton_append]

/-- A text that ends with a group is trimmed if it does not begin with white space. -/
theorem trim_append_grouped {before : Text} (begins : ∀ c ∈ before.head?, isBlank c = false)
    (inside : Text) : trim (before ++ inside.grouped) = before ++ inside.grouped := by
  have first : ∀ c ∈ (before ++ inside.grouped).head?, isBlank c = false := by
    intro c first
    cases before with
    | nil =>
      cases first
      decide
    | cons d before => exact begins c first
  have closing : before ++ inside.grouped = before ++ '(' :: inside ++ ')' :: [] := by simp [grouped]
  rw [closing] at first ⊢
  exact trim_append_cons (by decide) first

/-- A group has no white space at its ends. -/
theorem trim_grouped (t : Text) : t.grouped.trim = t.grouped := by
  rw [← List.nil_append t.grouped]
  exact trim_append_grouped (by simp) t

end Text

/-- A group whose inside has a fault ends the reading. -/
theorem readItems_group_of_fault {inside : Text} (balanced : Delimiter.round.IsBalanced inside)
    {fault : Fault} (refused : (readLevel groups inside).fault = some fault) (rest : Text) :
    readItems (groups + 1) (steps + 1) size (inside.grouped ++ rest) =
      ⟨[.group (readLevel groups inside).items .absent], some fault⟩ := by
  have span := Delimiter.span?_delimited balanced rest
  rw [readLevel] at refused
  rw [Text.grouped_append, readItems, if_pos rfl]
  simp only [Delimiter.opener, Delimiter.closer] at span
  simp only [span, Text.interior_delimited, refused, readLevel]

/-- A group is read with the multiplier after it, and then the reading goes on. -/
theorem readItems_group {inside after : Text} {multiplier : Multiplier}
    (balanced : Delimiter.round.IsBalanced inside) (read : (readLevel groups inside).fault = none)
    (counted : Multiplier.read rest = .ok (multiplier, after)) :
    readItems (groups + 1) (steps + 1) size (inside.grouped ++ rest) =
      (readItems (groups + 1) steps size after).after
        (.group (readLevel groups inside).items multiplier) := by
  have span := Delimiter.span?_delimited balanced rest
  rw [readLevel] at read
  rw [Text.grouped_append, readItems, if_pos rfl]
  simp only [Delimiter.opener, Delimiter.closer] at span
  simp only [span, Text.interior_delimited, read, counted, readLevel]

/-! ## Tokens -/

/-- The character begins neither a group nor an item of its own. -/
def IsPlainStart (c : Char) : Prop := c ≠ '(' ∧ c ≠ '>' ∧ c ≠ '+' ∧ c ≠ '^'

/-- Token characters begin tokens. -/
theorem isPlainStart_of_isTokenChar {c : Char} (h : isTokenChar c = true) : IsPlainStart c := by
  refine ⟨?_, ?_, ?_, ?_⟩ <;> rintro rfl <;> revert h <;> decide

/-- A token that has a fault ends the reading. -/
theorem readItems_token_of_fault {c : Char} {after : Text} (begins : IsPlainStart c)
    (run : tokenRun size (c :: rest) = .ok (source, after)) (nonempty : source ≠ []) {said : Token}
    {fault : Fault} (read : Token.read source = (said, some fault)) :
    readItems groups (steps + 1) size (c :: rest) =
      ⟨[.token source (size - (c :: rest).length) said], some fault⟩ := by
  obtain ⟨notGroup, notDescend, notSibling, notClimb⟩ := begins
  obtain _ | ⟨d, source⟩ := source
  · exact absurd rfl nonempty
  · rw [readItems, if_neg notGroup, if_neg notDescend, if_neg notSibling, if_neg notClimb]
    simp only [run, read]

/-- A token without a fault is read, and then the reading goes on. -/
theorem readItems_token {c : Char} {after : Text} (begins : IsPlainStart c)
    (run : tokenRun size (c :: rest) = .ok (source, after)) (nonempty : source ≠ []) {said : Token}
    (read : Token.read source = (said, none)) :
    readItems groups (steps + 1) size (c :: rest) =
      (readItems groups steps size after).after
        (.token source (size - (c :: rest).length) said) := by
  obtain ⟨notGroup, notDescend, notSibling, notClimb⟩ := begins
  obtain _ | ⟨d, source⟩ := source
  · exact absurd rfl nonempty
  · rw [readItems, if_neg notGroup, if_neg notDescend, if_neg notSibling, if_neg notClimb]
    simp only [run, read]

/-- Where the first item is a token, it is what is taken into a token there. -/
theorem tokenRun_of_readItems {start : Nat} {said : Token} {others : List Item}
    (items : (readItems groups steps size t).items = .token source start said :: others) :
    ∃ c rest after, t = c :: rest ∧ IsPlainStart c ∧ tokenRun size t = .ok (source, after) ∧
      source ≠ [] := by
  revert items
  fun_cases readItems groups steps size t with
  | case13 groups c rest steps notGroup notDescend notSibling notClimb source' after nonempty run _ _ _ =>
    intro items
    simp only [List.cons.injEq, Item.token.injEq] at items
    obtain ⟨⟨rfl, -, -⟩, -⟩ := items
    exact ⟨c, rest, after, rfl, ⟨notGroup, notDescend, notSibling, notClimb⟩, run, nonempty⟩
  | case14 groups c rest steps notGroup notDescend notSibling notClimb source' after nonempty run _ _ =>
    intro items
    simp only [Reading.items_after, List.cons.injEq, Item.token.injEq] at items
    obtain ⟨⟨rfl, -, -⟩, -⟩ := items
    exact ⟨c, rest, after, rfl, ⟨notGroup, notDescend, notSibling, notClimb⟩, run, nonempty⟩
  | _ =>
    intro items
    simp [Reading.failed, Reading.done] at items

/-- Token characters are taken into a token one by one. -/
theorem tokenRun_append_of_forall (plain : ∀ c ∈ source, isTokenChar c = true) (rest : Text) :
    tokenRun size (source ++ rest) =
      (tokenRun size rest).map fun run => (source ++ run.1, run.2) := by
  induction source with
  | nil =>
    rw [List.nil_append]
    cases tokenRun size rest <;> rfl
  | cons c source ih =>
    have token := plain c List.mem_cons_self
    have noSpan : ¬ (c = '[' ∨ c = '\x7b') := by
      rintro (rfl | rfl) <;> revert token <;> decide
    have tail := ih fun e inside => plain e (List.mem_cons_of_mem c inside)
    rw [List.cons_append, tokenRun, if_neg (by simpa using noSpan), if_pos (by simp [token]), tail]
    cases tokenRun size rest <;> rfl

@[simp] theorem tokenRun_nil : tokenRun size [] = .ok ([], []) := by rw [tokenRun]

/-- A text of token characters is taken into a token as a whole. -/
theorem tokenRun_of_forall (plain : ∀ c ∈ source, isTokenChar c = true) :
    tokenRun size source = .ok (source, []) := by
  have parts : tokenRun size (source ++ []) = _ := tokenRun_append_of_forall plain []
  rw [List.append_nil, tokenRun_nil] at parts
  simpa [Except.map] using parts

/-- A span is taken into a token as a whole. -/
theorem tokenRun_span {c : Char} {span after : Text} (bracket : (c = '[' || c = '\x7b') = true)
    (found : (if c = '[' then Delimiter.square else Delimiter.curly).span? (c :: rest) =
      some (span, after)) :
    tokenRun size (c :: rest) =
      (tokenRun size after).map fun run => (span ++ run.1, run.2) := by
  rw [tokenRun, if_pos bracket]
  dsimp only
  split
  · next found' =>
    rw [found] at found'
    cases found'
    rfl
  · next unclosed =>
    rw [found] at unclosed
    cases unclosed

/-- A plus sign at the end of a token stays in it if more of the token follows. -/
theorem endsName_append {tail : Text} (ended : endsName rest = true) (ends : endsName tail = true) :
    endsName (rest ++ tail) = true := by
  cases rest with
  | nil => exact ends
  | cons c rest => exact ended

/-- A text that is a token as a whole is taken into the token that it begins. -/
theorem tokenRun_append_right {size' : Nat} {tail : Text} (run : tokenRun size t = .ok (source, []))
    (ends : endsName tail = true) :
    tokenRun size' (t ++ tail) =
      (tokenRun size' tail).map fun run => (source ++ run.1, run.2) := by
  fun_induction tokenRun size t generalizing source with
  | case1 =>
    cases run
    rw [List.nil_append]
    cases tokenRun size' tail <;> rfl
  | case2 c rest bracket span after found ih =>
    obtain ⟨⟨taken, left⟩, later, same⟩ := exists_of_map_eq_ok run
    cases same
    have longer := Delimiter.span?_append_right found tail
    rw [List.cons_append] at longer ⊢
    rw [tokenRun_span bracket longer, ih later]
    cases tokenRun size' tail with
    | error fault => rfl
    | ok parts => simp [Except.map]
  | case3 => cases run
  | case4 c rest notBracket accepted ih =>
    obtain ⟨⟨taken, left⟩, later, same⟩ := exists_of_map_eq_ok run
    cases same
    have stays : ((c == '+' && endsName (rest ++ tail)) || isTokenChar c) = true := by
      rcases Bool.or_eq_true_iff.1 accepted with marker | token
      · obtain ⟨plus, ended⟩ := Bool.and_eq_true_iff.1 marker
        rw [plus, endsName_append ended ends]
        rfl
      · rw [token, Bool.or_true]
    rw [List.cons_append, tokenRun, if_neg notBracket, if_pos stays, ih later]
    cases tokenRun size' tail <;> rfl
  | case5 => cases run

/-- A token ends before the operator that goes down, and before a group. -/
theorem tokenRun_of_stop {c : Char} (stop : c = '>' ∨ c = '(') :
    tokenRun size (c :: rest) = .ok ([], c :: rest) := by
  have notToken : isTokenChar c = false ∧ c ≠ '[' ∧ c ≠ '\x7b' ∧ c ≠ '+' := by
    rcases stop with rfl | rfl <;> decide
  rw [tokenRun]
  simp [notToken]

/-- Token characters up to where a token ends are read as a token. -/
theorem readItems_token_append (plain : ∀ c ∈ source, isTokenChar c = true) (nonempty : source ≠ [])
    (ended : tokenRun size rest = .ok ([], rest)) {said : Token}
    (read : Token.read source = (said, none)) :
    readItems groups (steps + 1) size (source ++ rest) =
      (readItems groups steps size rest).after
        (.token source (size - (source ++ rest).length) said) := by
  have run : tokenRun size (source ++ rest) = .ok (source, rest) := by
    rw [tokenRun_append_of_forall plain, ended]
    simp [Except.map]
  cases source with
  | nil => exact absurd rfl nonempty
  | cons c source =>
    have begins := isPlainStart_of_isTokenChar (plain c List.mem_cons_self)
    exact readItems_token begins run nonempty read

end Shorthand
