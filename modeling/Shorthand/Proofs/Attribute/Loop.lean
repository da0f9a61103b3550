import Shorthand.Proofs.Attribute.Grammar
import Shorthand.Proofs.Cursor.Loop

/-! # The loops that read an attribute set

A set is read by a loop that reads one attribute in each iteration, and a quoted value by a loop that looks for the
closing quote, where a backslash takes the character after it along. Both advance, and what is read of a set is what
the loops make of it.

* **`quotedLoop`** — the search for a closing quote.
* **`Attribute.loop`** — the attributes of a set.
* `Cursor.skipQuoted_eq_run`, `Attribute.readSet_eq_run` — the functions are what the loops compute. -/

namespace Shorthand

variable {c : Cursor}

/-! ## Quoted values -/

/-- A character is compared with a quote as a text or as it is. -/
theorem matches_single (quote : Char) : (fun x => [x] == [quote]) = (· == quote) := by
  funext x
  simp

/-- An iteration of the search for a closing quote. A backslash takes the character after it along. -/
def quotedStep (quote : Char) (c : Cursor) : Iteration Empty (Bool × Cursor) Unit :=
  match c.next with
  | ([], _) => .stops (false, c)
  | (x :: _, beyond) =>
    if x = quote then .stops (true, beyond)
    else if x = '\\' then .goesOn () beyond.next.2
    else .goesOn () beyond

namespace Cursor

variable {quote : Char} {rest : Text}

/-- A closing quote that is found further on is the one that is looked for. -/
theorem skipQuoted_advance (placed : 0 ≤ c.pos) {passed : Text} (ahead : c.upcoming = passed ++ rest)
    (later : quotedBody? (· == quote) c.upcoming =
      (quotedBody? (· == quote) rest).map fun found => (passed ++ found.1, found.2)) :
    c.skipQuoted [quote] = (c.advance passed.length).skipQuoted [quote] := by
  rw [skipQuoted, skipQuoted, matches_single, later, upcoming_advance_length placed ahead]
  cases quotedBody? (· == quote) rest with
  | none => simp [ahead]
  | some found => simp [Nat.add_assoc]

end Cursor

/-- A closing quote is looked for as the iterations do it. -/
theorem quotedStep_computes (quote : Char) (ordered : c.IsOrdered) :
    (quotedStep quote c).Computes (Except.ok (c.skipQuoted [quote])) (fun c => .ok (c.skipQuoted [quote])) .error .ok
      (fun _ rest => rest) c := by
  cases ahead : c.upcoming with
  | nil =>
    rw [quotedStep, Cursor.next_eq_nil ahead]
    show Except.ok (c.skipQuoted [quote]) = .ok (false, c)
    rw [Cursor.skipQuoted, ahead]
    simp [quotedBody?]
  | cons x rest =>
    have goesOn {passed after : Text} (taken : x :: rest = passed ++ after) (some : passed ≠ [])
        (later : quotedBody? (· == quote) (x :: rest) =
          (quotedBody? (· == quote) after).map fun found => (passed ++ found.1, found.2)) :
        (Iteration.goesOn () (c.advance passed.length)).Computes (Except.ok (c.skipQuoted [quote]))
          (fun c => .ok (c.skipQuoted [quote])) (Except.error : Empty → _) .ok (fun _ rest => rest) c := by
      rw [← ahead] at taken later
      exact ⟨ordered.advances_of_ahead taken some,
        congrArg Except.ok (Cursor.skipQuoted_advance ordered.placed taken later)⟩
    have left : (c.advance 1).upcoming = rest := Cursor.upcoming_advance_one ordered.placed ahead
    rw [quotedStep, Cursor.next_eq ahead]
    dsimp only
    by_cases isClosing : x = quote
    · rw [if_pos isClosing]
      show Except.ok (c.skipQuoted [quote]) = .ok (true, c.advance 1)
      rw [Cursor.skipQuoted, matches_single, ahead, isClosing, quotedBody?_quote]
      rfl
    · rw [if_neg isClosing]
      by_cases isEscape : x = '\\'
      · -- a backslash takes the next character along, if there is one
        subst isEscape
        rw [if_pos rfl]
        cases rest with
        | nil =>
          rw [Cursor.next_eq_nil left]
          exact goesOn rfl (List.cons_ne_nil '\\' []) (by simp [quotedBody?, isClosing])
        | cons d after =>
          have both : '\\' :: d :: after = ['\\', d] ++ after := rfl
          rw [Cursor.next_eq left, Cursor.advance_advance]
          exact goesOn both (List.cons_ne_nil '\\' [d]) (quotedBody?_guarded (Ne.symm isClosing) d after)
      · rw [if_neg isEscape]
        exact goesOn rfl (List.cons_ne_nil x []) (quotedBody?_cons isClosing isEscape rest)

/-- The search for a closing quote. -/
def quotedLoop (quote : Char) : Loop Empty (Bool × Cursor) Unit where
  step c _ := quotedStep quote c
  advances {_ ordered _ _} goesOn := (goesOn ▸ quotedStep_computes quote ordered).1

/-- A closing quote is looked for as the loop does it. -/
theorem Cursor.skipQuoted_eq_run (quote : Char) (c : Cursor) (ordered : c.IsOrdered) :
    .ok (c.skipQuoted [quote]) = ((quotedLoop quote).run c ordered).ending :=
  (quotedLoop quote).eq_ending (fun _ ordered => quotedStep_computes quote ordered) c ordered

/-! ## Attributes -/

/-- The cursor behind the gaps ahead. -/
def Cursor.passGaps (c : Cursor) : Cursor := (c.eatGaps?.map Prod.snd).getD c

namespace Attribute

/-- The value at the beginning of a span, and the cursor behind it. -/
def scanValue? (c : Cursor) : Option (Text × Cursor) :=
  match c.next with
  | ([], _) => none
  | (quote :: _, opened) =>
    if quote = '"' || quote = '\'' then
      match opened.skipQuoted [quote] with
      | (true, closed) => some (unescapeQuote quote closed.current.interior, closed)
      | (false, _) => none
    else if Text.isBlank quote then none
    else
      let bare := (opened.eatWhile (.pattern .word)).2
      some (bare.current, bare)

/-- An iteration of reading a set: the name of an attribute, its value if an equals sign follows, and the gaps behind.
The reading stops where no word stands. -/
def scanStep (c : Cursor) : Iteration AbbreviationFault Unit Attribute :=
  if c.atEnd then .stops ()
  else
    match c.mark.eatWhile (.pattern .word) with
    | (false, _) => .stops ()
    | (true, named) =>
      if named.peek = ['='] then
        let begun := named.next.2.mark
        match scanValue? begun with
        | some (value, last) => .goesOn ⟨named.current, value⟩ last.passGaps
        | none => .raises (.badValue named.current begun.start.toNat)
      else .goesOn ⟨named.current, []⟩ named.passGaps

end Attribute

namespace Cursor

/-- Passing gaps is moving past them. -/
theorem passGaps_eq (placed : 0 ≤ c.pos) : c.passGaps = c.advance (c.upcoming.takeWhile Text.isGap).length := by
  rw [passGaps, eatGaps?_eq placed]
  rfl

/-- What stands behind the gaps is ahead afterwards. -/
theorem upcoming_passGaps (placed : 0 ≤ c.pos) : c.passGaps.upcoming = c.upcoming.dropWhile Text.isGap := by
  rw [passGaps_eq placed]
  exact upcoming_advance_length placed List.takeWhile_append_dropWhile.symm

/-- Passing gaps keeps the order. -/
theorem IsOrdered.passGaps (ordered : c.IsOrdered) : c.passGaps.IsOrdered := by
  rw [passGaps_eq ordered.placed]
  exact ordered.advance (List.takeWhile_prefix _).length_le

/-- A cursor may pass gaps where it has advanced to. -/
theorem Advances.passGaps {next : Cursor} (advances : c.Advances next) : c.Advances next.passGaps := by
  rw [passGaps_eq advances.ordered.placed]
  exact advances.advance (List.takeWhile_prefix _).length_le

end Cursor

namespace Attribute

variable {value rest : Text}

/-- What is taken at the beginning of a span is the span, and what follows it is ahead. -/
theorem taken_at_start (ordered : c.IsOrdered) (begun : c.start = c.pos) (taken rest : Text) (some : taken ≠ [])
    (ahead : c.upcoming = taken ++ rest) :
    (c.advance taken.length).current = taken ∧ c.Advances (c.advance taken.length) ∧
      (c.advance taken.length).upcoming = rest := by
  have marked : c.mark = c := by
    obtain ⟨text, pos, start⟩ := c
    cases begun
    rfl
  refine ⟨?_, ordered.advances_of_ahead ahead some, Cursor.upcoming_advance_length ordered.placed ahead⟩
  have current := Cursor.current_advance_length ordered.placed ahead
  rwa [marked] at current

/-- A value that can be read at the beginning of a span is found there, and the cursor is moved behind it. -/
theorem scanValue?_eq_some (ordered : c.IsOrdered) (begun : c.start = c.pos)
    (read : readValue? c.upcoming = some (value, rest)) :
    ∃ last, scanValue? c = some (value, last) ∧ c.Advances last ∧ last.upcoming = rest := by
  cases ahead : c.upcoming with
  | nil =>
    rw [ahead] at read
    cases read
  | cons x t =>
    have opened : (c.advance 1).upcoming = t :=
      Cursor.upcoming_advance_one ordered.placed ahead
    rw [ahead, readValue?] at read
    rw [scanValue?, Cursor.next_eq ahead]
    dsimp only
    by_cases isQuote : (x = '"' || x = '\'') = true
    · rw [if_pos isQuote] at read ⊢
      obtain ⟨⟨body, after⟩, found, same⟩ := Option.map_eq_some_iff.1 read
      cases same
      have differ : x ≠ '\\' := ne_backslash_of_isQuote (by simpa using isQuote)
      obtain ⟨rfl, -⟩ := (quotedBody?_eq_some_iff differ).1 found
      have closed : (c.advance 1).skipQuoted [x] = (true, c.advance (x :: (body ++ [x])).length) := by
        rw [Cursor.skipQuoted, matches_single, opened, found]
        simp [Nat.add_comm, Nat.add_left_comm]
      obtain ⟨current, advances, left⟩ :=
        taken_at_start ordered begun (x :: (body ++ [x])) after (List.cons_ne_nil _ _) (by rw [ahead]; simp)
      rw [closed]
      dsimp only
      rw [current, Text.interior_delimited]
      exact ⟨_, rfl, advances, left⟩
    · rw [if_neg isQuote] at read ⊢
      split at read
      · cases read
      · next noBlank =>
        obtain ⟨rfl, rfl⟩ := Prod.mk.inj (Option.some.inj read)
        obtain ⟨current, advances, left⟩ :=
          taken_at_start ordered begun (x :: t.takeWhile isWordChar) (t.dropWhile isWordChar) (List.cons_ne_nil _ _)
            (by rw [ahead, List.cons_append, List.takeWhile_append_dropWhile])
        have bare : ((c.advance 1).eatWhile (.pattern .word)).2 = c.advance (x :: t.takeWhile isWordChar).length := by
          rw [Cursor.eatWhile_word, opened, Cursor.advance_advance, List.length_cons, Nat.add_comm]
        rw [if_neg noBlank, bare, current]
        exact ⟨_, rfl, advances, left⟩

/-- Where none can be read none is found. -/
theorem scanValue?_eq_none (placed : 0 ≤ c.pos) (unread : readValue? c.upcoming = none) : scanValue? c = none := by
  cases ahead : c.upcoming with
  | nil => rw [scanValue?, Cursor.next_eq_nil ahead]
  | cons x t =>
    have opened : (c.advance 1).upcoming = t := Cursor.upcoming_advance_one placed ahead
    rw [ahead, readValue?] at unread
    rw [scanValue?, Cursor.next_eq ahead]
    dsimp only
    by_cases isQuote : (x = '"' || x = '\'') = true
    · rw [if_pos isQuote] at unread ⊢
      rw [Cursor.skipQuoted, matches_single, opened, Option.map_eq_none_iff.1 unread]
    · rw [if_neg isQuote] at unread ⊢
      split at unread
      · next blank => rw [if_pos blank]
      · cases unread

/-- A word ahead is taken as a name. -/
theorem eatWhile_name (name : Word) (ahead : c.upcoming = name.text ++ rest)
    (ends : ∀ x ∈ rest.head?, isWordChar x = false) :
    c.mark.eatWhile (.pattern .word) = (true, c.mark.advance name.text.length) := by
  have same : c.mark.upcoming = name.text ++ rest := ahead
  obtain ⟨taken, -⟩ := Text.takeWhile_dropWhile_iff.2 ⟨rfl, name.isWordChar_of_mem, ends⟩
  rw [Cursor.eatWhile_word, same, taken]
  have some : name.text.isEmpty = false := List.isEmpty_eq_false_iff.2 name.ne_nil
  rw [some]
  rfl

/-- Where no word stands the reading stops. -/
theorem scanStep_of_noWord (noWord : ∀ x ∈ c.upcoming.head?, isWordChar x = false) : scanStep c = .stops () := by
  have same : c.mark.upcoming = c.upcoming := rfl
  obtain ⟨taken, -⟩ := Text.takeWhile_dropWhile_iff.2 ⟨c.upcoming.nil_append.symm, by simp, noWord⟩
  rw [scanStep, Cursor.eatWhile_word, same, taken]
  exact ite_self _

/-- A name alone is found with an empty value. -/
theorem scanStep_alone (placed : 0 ≤ c.pos) (name : Word) (ahead : c.upcoming = name.text ++ rest)
    (ends : ∀ x ∈ rest.head?, isWordChar x = false ∧ x ≠ '=') :
    scanStep c = .goesOn ⟨name.text, []⟩ (c.mark.advance name.text.length).passGaps := by
  have some : c.upcoming.isEmpty = false := by
    rw [ahead, List.isEmpty_eq_false_iff]
    exact List.append_ne_nil_of_left_ne_nil name.ne_nil rest
  have left : (c.mark.advance name.text.length).upcoming = rest := Cursor.upcoming_advance_length placed ahead
  have noSign : (c.mark.advance name.text.length).peek ≠ ['='] := by
    cases rest with
    | nil =>
      rw [Cursor.peek_eq_nil left]
      exact (List.cons_ne_nil '=' []).symm
    | cons x rest =>
      rw [Cursor.peek_eq left]
      exact fun same => (ends x rfl).2 (List.head_eq_of_cons_eq same)
  rw [scanStep, Cursor.atEnd_eq placed, some, eatWhile_name name ahead fun x first => (ends x first).1]
  dsimp only
  rw [if_neg Bool.false_ne_true, if_neg noSign, Cursor.current_advance_length placed ahead]

/-- A name before an equals sign is found with the value after the sign, if one is found there. -/
theorem scanStep_assigned (placed : 0 ≤ c.pos) (name : Word) (ahead : c.upcoming = name.text ++ '=' :: rest) :
    scanStep c = match scanValue? (c.advance (name.text.length + 1)).mark with
      | some (value, last) => .goesOn ⟨name.text, value⟩ last.passGaps
      | none => .raises (.badValue name.text (c.advance (name.text.length + 1)).pos.toNat) := by
  have some : c.upcoming.isEmpty = false := by
    rw [ahead, List.isEmpty_eq_false_iff]
    exact List.append_ne_nil_of_left_ne_nil name.ne_nil _
  have left : (c.mark.advance name.text.length).upcoming = '=' :: rest :=
    Cursor.upcoming_advance_length placed ahead
  have ends : ∀ x ∈ ('=' :: rest).head?, isWordChar x = false := by
    rintro x ⟨⟩
    decide
  have begun : ((c.mark.advance name.text.length).advance 1).mark = (c.advance (name.text.length + 1)).mark := by
    rw [Cursor.advance_advance]
    rfl
  rw [scanStep, Cursor.atEnd_eq placed, some, eatWhile_name name ahead ends]
  dsimp only
  rw [if_neg Bool.false_ne_true, Cursor.peek_eq left, if_pos rfl, Cursor.next_eq left, begun,
    Cursor.current_advance_length placed ahead]
  rfl

/-- A set is read as the iterations do it: one attribute after the other, each with the gaps behind it. -/
theorem scanStep_computes (ordered : c.IsOrdered) :
    (scanStep c).Computes (readAll c.text.length c.upcoming) (fun c => readAll c.text.length c.upcoming) .error
      (fun _ => .ok []) (fun a rest => rest.map (a :: ·)) c := by
  have goesOn {a : Attribute} {last : Cursor} (advances : c.Advances last)
      (read : readOne c.text.length c.upcoming = .ok (some (a, last.upcoming.dropWhile Text.isGap))) :
      (Iteration.goesOn a last.passGaps).Computes (readAll c.text.length c.upcoming)
        (fun c => readAll c.text.length c.upcoming) Except.error (fun _ : Unit => .ok [])
        (fun a rest => rest.map (a :: ·)) c := by
    refine ⟨advances.passGaps, ?_⟩
    dsimp only
    rw [advances.passGaps.text_eq, Cursor.upcoming_passGaps advances.ordered.placed]
    exact readAll_of_readOne read
  rcases exists_word_or c.upcoming with noWord | ⟨name, rest, ahead, ends⟩ | ⟨name, after, ahead⟩
  · rw [scanStep_of_noWord noWord]
    exact readAll_of_readOne_none (readOne_of_noWord noWord)
  · have left : (c.mark.advance name.text.length).upcoming = rest :=
      Cursor.upcoming_advance_length ordered.placed ahead
    rw [scanStep_alone ordered.placed name ahead ends]
    refine goesOn (ordered.mark.advances_of_ahead ahead name.ne_nil).of_mark ?_
    rw [left, ahead]
    exact readOne_alone _ name ends
  · have taken : c.upcoming = (name.text ++ ['=']) ++ after := by rw [ahead, List.append_assoc]; rfl
    have begun := ordered.advances_of_ahead taken (List.append_ne_nil_of_left_ne_nil name.ne_nil _)
    have left := Cursor.upcoming_advance_length ordered.placed taken
    rw [List.length_append, List.length_singleton] at begun left
    have first := readOne_assigned c.text.length name after
    rw [← ahead] at first
    rw [scanStep_assigned ordered.placed name ahead]
    cases read : readValue? after with
    | none =>
      have unread : scanValue? (c.advance (name.text.length + 1)).mark = none :=
        scanValue?_eq_none begun.mark.ordered.placed (left ▸ read)
      have place : c.text.length - after.length = (c.advance (name.text.length + 1)).pos.toNat :=
        begun.ordered.size_sub_length left
      rw [read, place] at first
      rw [unread]
      exact readAll_of_readOne_error first
    | some found =>
      obtain ⟨value, rest⟩ := found
      obtain ⟨last, valued, advances, behind⟩ := scanValue?_eq_some begun.mark.ordered rfl (left.symm ▸ read)
      rw [read, ← behind] at first
      rw [valued]
      exact goesOn (begun.mark.trans advances) first

/-- The loop that reads the attributes of a set. -/
def loop : Loop AbbreviationFault Unit Attribute where
  step c _ := scanStep c
  advances {_ ordered _ _} goesOn := (goesOn ▸ scanStep_computes ordered).1

/-- What is read of the end of a set is what the loop makes of it. -/
theorem readAll_eq_run (c : Cursor) (ordered : c.IsOrdered) :
    readAll c.text.length c.upcoming =
      (loop.run c ordered).fold .error (fun _ => .ok []) fun a rest => rest.map (a :: ·) :=
  loop.eq_fold (F := fun c => readAll c.text.length c.upcoming) (fun _ ordered => scanStep_computes ordered) c ordered

/-- A set is read by the loop, which begins behind the gaps. -/
theorem readSet_eq_run (inside : Text) :
    readSet inside =
      (loop.run (Cursor.ofText inside.trim).passGaps (Cursor.isOrdered_ofText inside.trim).passGaps).fold .error
        (fun _ => .ok []) fun a rest => rest.map (a :: ·) := by
  have placed := (Cursor.isOrdered_ofText inside.trim).placed
  rw [← readAll_eq_run, Cursor.upcoming_passGaps placed, Cursor.passGaps_eq placed]
  rfl

end Attribute

end Shorthand
