import Shorthand.Proofs.Attribute.Loop
import Shorthand.Proofs.Token
import Shorthand.Proofs.Token.Layout

/-! # Loops that search a token

The text of a token is searched by a loop that passes over spans and protected characters, and its markers by a loop
that reads what each of them gives. Both advance, and what they come to is what the searches find.

* **`Token.textLoop`** — the search for the text.
* **`Token.markLoop`** — the search for the markers.
* `Token.splitText_eq_run`, `Token.marks_eq_run` — the searches are what the loops compute. -/

namespace Shorthand

namespace Token

variable {c : Cursor}

/-! ## The text -/

/-- An iteration of the search for the text that has come to its beginning. -/
def braceStep (c : Cursor) : Iteration AbbreviationFault (Option (Text × Text)) Unit :=
  match c.mark.skipPair? [Delimiter.curly.opener] [Delimiter.curly.closer] with
  | some (true, beyond) => .stops (some (beyond.text.slice 0 beyond.start, beyond.current.interior))
  | _ => .raises (.unclosed .curly c.pos.toNat)

/-- An iteration of the search for the text. A span without an end is passed over by its first character. -/
def textStep (c : Cursor) : Iteration AbbreviationFault (Option (Text × Text)) Unit :=
  match c.peek with
  | [] => .stops none
  | x :: _ =>
    if x = '[' || x = '(' then
      let d := if x = '[' then Delimiter.square else .round
      match c.skipPair? [d.opener] [d.closer] with
      | some (true, beyond) => .goesOn () beyond
      | _ => .goesOn () c.next.2
    else if x = '\\' then .goesOn () c.next.2.next.2
    else if x = '\x7b' then braceStep c
    else .goesOn () c.next.2

/-- The text of a token and what stands before it, where the search has come to the position. -/
def textFrom (c : Cursor) : Except AbbreviationFault (Option (Text × Text)) :=
  (splitText c.text.length c.upcoming).map (Option.map fun found => (c.text.slice 0 c.pos ++ found.1, found.2))

/-- What an iteration passes over stands before the text. -/
theorem textFrom_advance (ordered : c.IsOrdered) {passed rest : Text} (ahead : c.upcoming = passed ++ rest)
    (later : splitText c.text.length c.upcoming =
      (splitText c.text.length rest).map (Option.map fun found => (passed ++ found.1, found.2))) :
    textFrom c = textFrom (c.advance passed.length) := by
  rw [textFrom, later, map_before_append, textFrom, Cursor.advance_text,
    Cursor.slice_advance_length (Int.le_refl 0) ordered.placed ordered.pos_le ahead,
    Cursor.upcoming_advance_length ordered.placed ahead]

/-- The text is found where it begins, if it has an end. -/
theorem braceStep_computes (ordered : c.IsOrdered) {rest : Text} (ahead : c.upcoming = '\x7b' :: rest) :
    (braceStep c).Computes (textFrom c) textFrom .error .ok (fun _ rest => rest) c := by
  have searched := splitText.eq_def c.text.length ('\x7b' :: rest)
  dsimp only at searched
  rw [if_neg (by decide), if_neg (by decide), if_pos rfl] at searched
  rw [braceStep]
  cases found : Delimiter.curly.span? ('\x7b' :: rest) with
  | none =>
    have unclosed : Delimiter.curly.span? c.mark.upcoming = none := ahead ▸ found
    rw [found, ← List.length_cons, ordered.size_sub_length ahead] at searched
    rw [Cursor.skipPair?_of_none ordered.mark.placed unclosed]
    show textFrom c = .error (.unclosed .curly c.pos.toNat)
    rw [textFrom, ahead, searched]
    rfl
  | some parts =>
    obtain ⟨span, after⟩ := parts
    have closed : Delimiter.curly.span? c.mark.upcoming = some (span, after) := ahead ▸ found
    have current : (c.mark.advance span.length).current = span :=
      Cursor.current_advance_length ordered.placed (Delimiter.span?_append closed).symm
    rw [found] at searched
    rw [Cursor.skipPair?_of_span ordered.mark.placed closed]
    show textFrom c = .ok (some (c.text.slice 0 c.pos, (c.mark.advance span.length).current.interior))
    rw [textFrom, ahead, searched, current]
    show Except.ok (some (c.text.slice 0 c.pos ++ [], span.interior)) = _
    rw [List.append_nil]

/-- The text is searched as the iterations do it. -/
theorem textStep_computes (ordered : c.IsOrdered) :
    (textStep c).Computes (textFrom c) textFrom .error .ok (fun _ rest => rest) c := by
  cases ahead : c.upcoming with
  | nil =>
    rw [textStep, Cursor.peek_eq_nil ahead]
    show textFrom c = .ok none
    rw [textFrom, ahead, splitText_nil]
    rfl
  | cons x rest =>
    have goesOn {passed after : Text} (taken : x :: rest = passed ++ after) (some : passed ≠ [])
        (later : splitText c.text.length (x :: rest) =
          (splitText c.text.length after).map (Option.map fun found => (passed ++ found.1, found.2))) :
        (Iteration.goesOn () (c.advance passed.length)).Computes (textFrom c) textFrom Except.error .ok
          (fun _ rest => rest) c := by
      rw [← ahead] at taken later
      exact ⟨ordered.advances_of_ahead taken some, textFrom_advance ordered taken later⟩
    have left : (c.advance 1).upcoming = rest := Cursor.upcoming_advance_one ordered.placed ahead
    rw [textStep, Cursor.peek_eq ahead, Cursor.next_eq ahead]
    dsimp only
    have searched := splitText.eq_def c.text.length (x :: rest)
    dsimp only at searched
    by_cases opens : (x = '[' || x = '(') = true
    · -- a span is passed over as a whole, if it has an end
      rw [if_pos opens] at searched ⊢
      generalize delimiter : (if x = '[' then Delimiter.square else .round) = d at searched ⊢
      cases found : d.span? (x :: rest) with
      | none =>
        rw [Cursor.skipPair?_of_none ordered.placed (ahead ▸ found)]
        refine goesOn rfl (List.cons_ne_nil x []) (searched.trans ?_)
        split
        · next inside => cases found.symm.trans inside
        · rfl
      | some parts =>
        obtain ⟨span, after⟩ := parts
        rw [Cursor.skipPair?_of_span ordered.placed (ahead ▸ found)]
        refine goesOn (Delimiter.span?_append found).symm (pairSpan?_ne_nil found) (searched.trans ?_)
        split
        · next inside =>
          cases found.symm.trans inside
          rfl
        · next unclosed => cases found.symm.trans unclosed
    · rw [if_neg opens] at searched ⊢
      by_cases protects : x = '\\'
      · -- a backslash protects the next character, if there is one
        rw [if_pos protects] at searched ⊢
        cases rest with
        | nil =>
          rw [Cursor.next_eq_nil left]
          exact goesOn rfl (List.cons_ne_nil x []) (searched.trans (by rw [splitText_nil]; rfl))
        | cons d after =>
          rw [Cursor.next_eq left, Cursor.advance_advance]
          have both : x :: d :: after = [x, d] ++ after := rfl
          exact goesOn both (List.cons_ne_nil x [d]) searched
      · rw [if_neg protects] at searched ⊢
        by_cases brace : x = '\x7b'
        · rw [if_pos brace]
          exact braceStep_computes ordered (brace ▸ ahead)
        · rw [if_neg brace] at searched ⊢
          exact goesOn rfl (List.cons_ne_nil x []) searched

/-- The search for the text. -/
def textLoop : Loop AbbreviationFault (Option (Text × Text)) Unit where
  step c _ := textStep c
  advances {_ ordered _ _} goesOn := (goesOn ▸ textStep_computes ordered).1

/-- The text is searched as the loop does it. -/
theorem splitText_eq_run (t : Text) :
    splitText t.length t = (textLoop.run (.ofText t) (Cursor.isOrdered_ofText t)).ending := by
  rw [← textLoop.eq_ending (fun _ ordered => textStep_computes ordered)]
  show _ = (splitText t.length t).map (Option.map fun found => ([] ++ found.1, found.2))
  rw [map_before_nil]

/-! ## The markers -/

/-- The attribute of a marker is the word behind it. -/
def markWord (mark : WordMark) (c : Cursor) : Attribute × Cursor :=
  let word := (c.next.2.mark.eatWhile (.pattern .word)).2
  (⟨mark.name, word.current⟩, word)

/-- An iteration of the search for the markers that is to read an attribute set. -/
def setStep (c : Cursor) : Iteration AbbreviationFault Unit (List Attribute) :=
  match c.mark.skipPair? [Delimiter.square.opener] [Delimiter.square.closer] with
  | some (true, beyond) =>
    match Attribute.readSet beyond.current.interior with
    | .error fault => .raises fault
    | .ok [] => .raises (.emptySet beyond.start.toNat)
    | .ok (a :: others) => .goesOn (a :: others) beyond
  | _ => .raises (.unclosedSet c.pos.toNat)

/-- An iteration of the search for the markers. -/
def markStep (c : Cursor) : Iteration AbbreviationFault Unit (List Attribute) :=
  match c.peek with
  | [] => .stops ()
  | x :: _ =>
    if x = '#' then .goesOn [(markWord .hash c).1] (markWord .hash c).2
    else if x = '.' then .goesOn [(markWord .dot c).1] (markWord .dot c).2
    else if x = '[' then setStep c
    else .goesOn [] c.next.2

/-- What the markers ahead give. -/
def marksFrom (c : Cursor) : Except AbbreviationFault (List Attribute) := marks c.text.length c.upcoming

/-- What the markers ahead give is what an iteration amounts to. -/
def MarksBy (c : Cursor) (iteration : Iteration AbbreviationFault Unit (List Attribute)) : Prop :=
  iteration.Computes (marksFrom c) marksFrom .error (fun _ => .ok []) (fun found rest => rest.map (found ++ ·)) c

/-- What is found stands before what is found further on. -/
theorem marksBy_goesOn {found : List Attribute} {next : Cursor} (advances : c.Advances next)
    (later : marks c.text.length c.upcoming = (marks c.text.length next.upcoming).map (found ++ ·)) :
    MarksBy c (.goesOn found next) := by
  refine ⟨advances, later.trans ?_⟩
  rw [marksFrom, advances.text_eq]

/-- The word behind a marker is taken, and the cursor has advanced to its end. -/
theorem markWord_eq (ordered : c.IsOrdered) {x : Char} {rest : Text} (ahead : c.upcoming = x :: rest)
    (mark : WordMark) : (markWord mark c).1 = ⟨mark.name, rest.takeWhile isWordChar⟩ ∧ c.Advances (markWord mark c).2 ∧
      (markWord mark c).2.upcoming = rest.dropWhile isWordChar := by
  have left : (c.advance 1).mark.upcoming = rest := Cursor.upcoming_advance_one ordered.placed ahead
  have begun := ordered.advances_of_ahead ahead (List.cons_ne_nil x [])
  have word : (c.advance 1).mark.upcoming = rest.takeWhile isWordChar ++ rest.dropWhile isWordChar :=
    left.trans List.takeWhile_append_dropWhile.symm
  have enough : (rest.takeWhile isWordChar).length ≤ (c.advance 1).mark.upcoming.length := by
    rw [left]
    exact (List.takeWhile_prefix _).length_le
  simp only [markWord, Cursor.next_eq ahead, Cursor.eatWhile_word, left]
  exact ⟨congrArg _ (Cursor.current_advance_length begun.ordered.placed word), begun.mark.advance enough,
    Cursor.upcoming_advance_length begun.ordered.placed word⟩

/-- A set is read as its iteration does it. -/
theorem marksBy_setStep (ordered : c.IsOrdered) {rest : Text} (ahead : c.upcoming = '[' :: rest) :
    MarksBy c (setStep c) := by
  have place : c.text.length - (rest.length + 1) = c.pos.toNat := ordered.size_sub_length ahead
  rw [setStep]
  cases found : Delimiter.square.span? ('[' :: rest) with
  | none =>
    have unclosed : Delimiter.square.span? c.mark.upcoming = none := ahead ▸ found
    rw [Cursor.skipPair?_of_none ordered.mark.placed unclosed]
    show marks c.text.length c.upcoming = .error (.unclosedSet c.pos.toNat)
    rw [ahead, marks_square_of_unclosed found, place]
  | some parts =>
    obtain ⟨span, after⟩ := parts
    have closed : Delimiter.square.span? c.mark.upcoming = some (span, after) := ahead ▸ found
    have passed : c.upcoming = span ++ after := (Delimiter.span?_append closed).symm
    rw [Cursor.skipPair?_of_span ordered.mark.placed closed]
    dsimp only
    rw [Cursor.current_advance_length ordered.placed passed]
    cases read : Attribute.readSet span.interior with
    | error fault =>
      show marks c.text.length c.upcoming = .error fault
      rw [ahead, marks_square_of_error found read]
    | ok set =>
      cases set with
      | nil =>
        show marks c.text.length c.upcoming = .error (.emptySet c.pos.toNat)
        rw [ahead, marks_square_of_empty found read, place]
      | cons a others =>
        have left : (c.mark.advance span.length).upcoming = after :=
          Cursor.upcoming_advance_length ordered.mark.placed passed
        refine marksBy_goesOn (ordered.mark.advances_of_ahead passed (pairSpan?_ne_nil found)).of_mark ?_
        rw [left, ahead]
        exact marks_square found read

/-- The markers are searched as the iterations do it. -/
theorem marksBy_markStep (ordered : c.IsOrdered) : MarksBy c (markStep c) := by
  cases ahead : c.upcoming with
  | nil =>
    rw [markStep, Cursor.peek_eq_nil ahead]
    show marks c.text.length c.upcoming = .ok []
    rw [ahead, marks_nil]
  | cons x rest =>
    rw [markStep, Cursor.peek_eq ahead]
    dsimp only
    by_cases hash : x = '#'
    · obtain ⟨found, advances, left⟩ := markWord_eq ordered ahead .hash
      rw [if_pos hash, found]
      refine marksBy_goesOn advances ?_
      rw [left, ahead, marks, if_pos hash]
      rfl
    rw [if_neg hash]
    by_cases dot : x = '.'
    · obtain ⟨found, advances, left⟩ := markWord_eq ordered ahead .dot
      rw [if_pos dot, found]
      refine marksBy_goesOn advances ?_
      rw [left, ahead, marks, if_neg hash, if_pos dot]
      rfl
    rw [if_neg dot]
    by_cases square : x = '['
    · rw [if_pos square]
      exact marksBy_setStep ordered (square ▸ ahead)
    · -- any other character is passed over
      have plain : isMark x = false := by simp [isMark, hash, dot, square]
      rw [if_neg square, Cursor.next_eq ahead]
      refine marksBy_goesOn (ordered.advances_of_ahead ahead (List.cons_ne_nil x [])) ?_
      rw [Cursor.upcoming_advance_one ordered.placed ahead, ahead, marks_cons plain]
      cases marks c.text.length rest <;> rfl

/-- The search for the markers. -/
def markLoop : Loop AbbreviationFault Unit (List Attribute) where
  step c _ := markStep c
  advances {_ ordered _ _} goesOn := (goesOn ▸ marksBy_markStep ordered).1

/-- The markers are searched as the loop does it. -/
theorem marks_eq_run (t : Text) :
    marks t.length t = (markLoop.run (.ofText t) (Cursor.isOrdered_ofText t)).fold .error (fun _ => .ok [])
      fun found rest => rest.map (found ++ ·) :=
  markLoop.eq_fold (F := marksFrom) (fun _ ordered => marksBy_markStep ordered) (.ofText t) (Cursor.isOrdered_ofText t)

end Token

end Shorthand
