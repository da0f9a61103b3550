import Shorthand.Proofs.Token.Layout

/-! # What is read of a token

The search for the text and the search for the markers follow the layout of a token: the segments have no part in the
first, and each gives its attributes in the second. So a token that the scan takes is read exactly if its abbreviation has
a layout, and then it says what the layout does, whatever is passed over in it.

* `Token.Layout.hasParts` — a layout is what is read of its text.
* **`Token.IsLaid`** — what the two searches find, from any place of a token on.
* `Token.exists_layout_of_hasParts` — what is read of a token has a layout.
* `Token.read_eq_iff_layout` — when a token is read, as what, and what is passed over. -/

namespace Shorthand

namespace Token

variable {size : Nat} {c : Char} {t rest : Text}

/-- The attribute of a marker and a word comes first. -/
theorem marks_char (mark : WordMark) (t : Text) :
    marks size (mark.char :: t) = (marks size t).map (⟨mark.name, t.takeWhile isWordChar⟩ :: ·) := by
  have noMarks : ∀ c ∈ t.takeWhile isWordChar, isMark c = false := fun c inside =>
    (plain_of_isNameChar (isNameChar_of_isWordChar (List.mem_takeWhile_imp inside))).1
  have later : marks size (t.takeWhile isWordChar ++ t.dropWhile isWordChar) = _ := marks_append noMarks _
  rw [List.takeWhile_append_dropWhile] at later
  cases mark with
  | hash => rw [WordMark.char, marks, if_pos rfl, later]; rfl
  | dot => rw [WordMark.char, marks, if_neg (by decide), if_pos rfl, later]; rfl

/-- What is passed over has no part in either search. -/
theorem plain_of_isPassed (passed : isPassed c = true) :
    isMark c = false ∧ c ≠ '[' ∧ c ≠ '(' ∧ c ≠ '\\' ∧ c ≠ '\x7b' := by
  simp only [isPassed, Bool.or_eq_true, beq_iff_eq] at passed
  rcases passed with ((isName | rfl) | rfl) | rfl
  · exact plain_of_isNameChar isName
  · decide
  · decide
  · decide

/-! ## What a layout says -/

namespace Segment

variable (s : Segment)

/-- A segment has no part in the search for the text. -/
theorem splitText_append (rest : Text) :
    splitText size (s.text ++ rest) =
      (splitText size rest).map (Option.map fun found => (s.text ++ found.1, found.2)) := by
  obtain ⟨piece, attributes, passed, -, -, -, arePassed⟩ := s
  cases piece with
  | oneWord mark word isWord =>
    refine Token.splitText_append (fun c inside => ?_) rest
    rcases List.mem_append.1 inside with inPiece | inPassed
    · rcases List.mem_cons.1 inPiece with rfl | inWord
      · cases mark <;> decide
      · exact (plain_of_isNameChar (isNameChar_of_isWordChar (isWord c inWord))).2
    · exact (plain_of_isPassed (arePassed c inPassed)).2
  | set inside balanced =>
    have whole : '[' :: (inside ++ [']']) ++ passed ++ rest = '[' :: (inside ++ ']' :: (passed ++ rest)) := by simp
    rw [text, Piece.text, whole, splitText_square (Delimiter.span?_square balanced _),
      Token.splitText_append fun c inside => (plain_of_isPassed (arePassed c inside)).2, map_before_append]

/-- The attributes of a segment come first. -/
theorem marks_append (stops : Stops rest) :
    marks size (s.text ++ rest) = (marks size rest).map (s.attributes ++ ·) := by
  obtain ⟨piece, attributes, passed, read, nonempty, ends, arePassed⟩ := s
  have passes : marks size (passed ++ rest) = marks size rest :=
    Token.marks_append (fun c inside => (plain_of_isPassed (arePassed c inside)).1) rest
  cases piece with
  | oneWord mark word isWord =>
    cases read
    have noMark : ∀ c ∈ word, isMark c = false := fun c inside =>
      (plain_of_isNameChar (isNameChar_of_isWordChar (isWord c inside))).1
    have taken := (Text.takeWhile_dropWhile_iff.2 ⟨rfl, isWord, ends.append stops⟩).1
    have whole : mark.char :: word ++ passed ++ rest = mark.char :: (word ++ (passed ++ rest)) := by simp
    rw [text, Piece.text, whole, marks_char, Token.marks_append noMark, passes, taken]
    rfl
  | set inside balanced =>
    cases attributes with
    | nil => exact absurd rfl nonempty
    | cons a attributes =>
      have whole : '[' :: (inside ++ [']']) ++ passed ++ rest = '[' :: (inside ++ ']' :: (passed ++ rest)) := by simp
      have inner : Attribute.readSet (Text.interior ('[' :: (inside ++ [']']))) = .ok (a :: attributes) := by
        rwa [Text.interior_delimited]
      rw [text, Piece.text, whole, marks_square (Delimiter.span?_square balanced _) inner, passes]

end Segment

/-- Segments have no part in the search for the text. -/
theorem splitText_segments (segments : List Segment) (rest : Text) :
    splitText size (segments.flatMap Segment.text ++ rest) =
      (splitText size rest).map (Option.map fun found => (segments.flatMap Segment.text ++ found.1, found.2)) := by
  induction segments with
  | nil => rw [List.flatMap_nil, List.nil_append, map_before_nil]
  | cons s segments ih =>
    rw [List.flatMap_cons, List.append_assoc, s.splitText_append, ih, map_before_append]

/-- The attributes of segments are those of each. -/
theorem marks_segments (segments : List Segment) :
    marks size (segments.flatMap Segment.text) = .ok (segments.flatMap (·.attributes)) := by
  induction segments with
  | nil => exact marks_nil
  | cons s segments ih =>
    rw [List.flatMap_cons, s.marks_append (stops_segments segments), ih]
    rfl

/-- The markers of segments behind characters that are none are those of the segments, and the characters are before
them. -/
theorem splitMarks_segments {before : Text} (plain : ∀ c ∈ before, isMark c = false) (segments : List Segment) :
    splitMarks (before ++ segments.flatMap Segment.text) =
      .ok ((mergedAttributes segments).map fun merged => (before, merged)) := by
  rw [splitMarks, marks_append plain, marks_segments]
  cases segments with
  | nil => rfl
  | cons s segments =>
    obtain ⟨c, after, mark, begins⟩ := s.exists_mark
    have taken : (before ++ (s :: segments).flatMap Segment.text).takeWhile (fun c => !isMark c) = before := by
      rw [List.flatMap_cons, begins, List.takeWhile_append_of_pos fun c inside => by simp [plain c inside],
        List.cons_append, List.takeWhile_cons_of_neg (by simp [mark]), List.append_nil]
    have some : (s :: segments).flatMap (·.attributes) ≠ [] := by simp [s.ne_nil]
    simp only [mergedAttributes, Except.map, if_neg some, taken, reduceCtorEq, if_false, Option.map_some]

/-- The name of a token is what stands before its segments, also if there are none. -/
theorem getD_name (before : Text) (segments : List Segment) :
    (((mergedAttributes segments).map fun merged => (before, merged)).map (·.1)).getD
      (before ++ segments.flatMap Segment.text) = before := by
  cases segments <;> simp [mergedAttributes]

/-- What stands before the text of a layout. -/
theorem element_eq_front {before t : Text} {segments : List Segment} {ending : Option Ending}
    (whole : t = before ++ (segments.flatMap Segment.text ++
      (ending.map Ending.written).getD [])) :
    element t (ending.map fun e => (before ++ segments.flatMap Segment.text, e.text)) =
      before ++ segments.flatMap Segment.text := by
  cases ending with
  | none => simp [whole, element]
  | some e => rfl

/-- A layout is what is read of its text. -/
theorem Layout.hasParts (l : Layout) :
    HasParts l.text (l.ending.map fun e => (l.front, e.text))
      ((mergedAttributes l.segments).map fun merged => (l.name, merged)) l.name := by
  have whole : l.text = l.name ++ (l.segments.flatMap Segment.text ++ l.back) := by
    rw [text, front, List.append_assoc]
  have front_eq : element l.text (l.ending.map fun e => (l.front, e.text)) = l.front := element_eq_front whole
  have plain := plain_of_mem_name l.named
  refine ⟨?_, ?_, ?_, l.named⟩
  · rw [whole, splitText_append fun c inside => (plain c inside).2, splitText_segments, back]
    cases l.ending with
    | none => rw [Option.map_none, Option.getD_none, splitText_nil]; rfl
    | some e =>
      have text : e.written = '\x7b' :: (e.text ++ '\x7d' :: e.passed) := by simp [Ending.written, braced]
      rw [Option.map_some, Option.getD_some, text, splitText_curly (Delimiter.span?_curly e.balanced e.passed),
        Text.interior_delimited]
      simp [Except.map, front]
  · rw [front_eq, front, splitMarks_segments fun c inside => (plain c inside).1]
  · rw [front_eq, front, getD_name]

/-! ## The layout of what is read -/

/-- The text goes on from characters that are passed over to segments and an ending, and the two searches find this text
and these attributes in it. -/
def IsLaid (t : Text) (split : Option (Text × Text)) (attributes : List Attribute) : Prop :=
  ∃ (before : Text) (segments : List Segment) (ending : Option Ending), (∀ c ∈ before, isPassed c = true) ∧
    t = before ++ (segments.flatMap Segment.text ++ (ending.map Ending.written).getD []) ∧
    split = (ending.map fun e => (before ++ segments.flatMap Segment.text, e.text)) ∧
    attributes = segments.flatMap (·.attributes)

namespace IsLaid

variable {split : Option (Text × Text)} {attributes : List Attribute}

theorem nil : IsLaid [] none [] := ⟨[], [], none, by simp, rfl, rfl, rfl⟩

/-- A text ends the search. -/
theorem braced {inside : Text} (balanced : Delimiter.curly.IsBalanced inside) (rest : Text) :
    IsLaid ('\x7b' :: (inside ++ '\x7d' :: rest)) (some ([], inside)) [] :=
  ⟨[], [], some ⟨inside, rest, balanced⟩, by simp, by simp [Ending.written, Token.braced], rfl, rfl⟩

/-- A character that is no marker is passed over. -/
theorem cons (laid : IsLaid t split attributes) (passed : isPassed c = true) :
    IsLaid (c :: t) (split.map fun found => (c :: found.1, found.2)) attributes := by
  obtain ⟨before, segments, ending, arePassed, rfl, rfl, rfl⟩ := laid
  refine ⟨c :: before, segments, ending, List.forall_mem_cons.2 ⟨passed, arePassed⟩, rfl, ?_, rfl⟩
  cases ending <;> rfl

/-- A marker begins a segment, whose word is taken from what was passed over. -/
theorem char (laid : IsLaid t split attributes) (mark : WordMark) :
    IsLaid (mark.char :: t) (split.map fun found => (mark.char :: found.1, found.2))
      (⟨mark.name, (element t split).takeWhile isWordChar⟩ :: attributes) := by
  obtain ⟨before, segments, ending, arePassed, rfl, rfl, rfl⟩ := laid
  obtain ⟨whole, isWord, ends⟩ := Text.takeWhile_dropWhile isWordChar before
  -- the word is the beginning of what was passed over, and the rest of it is passed over behind the word
  let s : Segment :=
    { piece := .oneWord mark (before.takeWhile isWordChar) isWord
      attributes := [⟨mark.name, before.takeWhile isWordChar⟩]
      passed := before.dropWhile isWordChar
      read_eq := rfl
      ne_nil := List.cons_ne_nil _ _
      endsBefore := ends
      isPassed_of_mem := fun c inside => arePassed c ((List.dropWhile_sublist isWordChar).subset inside) }
  have taken : (before ++ segments.flatMap Segment.text).takeWhile isWordChar = before.takeWhile isWordChar := by
    have found := (Text.takeWhile_dropWhile_iff.2 ⟨rfl, isWord, s.endsBefore.append (stops_segments segments)⟩).1
    rwa [← List.append_assoc, ← whole] at found
  have written : s.text = mark.char :: before := congrArg (mark.char :: ·) whole.symm
  refine ⟨[], s :: segments, ending, by simp, by simp [written], ?_, ?_⟩
  · cases ending <;> simp [written]
  · cases ending <;> simp [element, taken, s]

/-- A set that can be read begins a segment. -/
theorem set (laid : IsLaid t split attributes) {inside : Text} (balanced : Delimiter.square.IsBalanced inside)
    {own : List Attribute} (read : Attribute.readSet inside = .ok own) (nonempty : own ≠ []) :
    IsLaid ('[' :: (inside ++ ']' :: t))
      (split.map fun found => ('[' :: (inside ++ [']']) ++ found.1, found.2)) (own ++ attributes) := by
  obtain ⟨before, segments, ending, arePassed, rfl, rfl, rfl⟩ := laid
  refine ⟨[], ⟨.set inside balanced, own, before, read, nonempty, trivial, arePassed⟩ :: segments, ending, by simp,
    ?_, ?_, rfl⟩
  · simp [Segment.text, Piece.text]
  · cases ending <;> simp [Segment.text, Piece.text]

end IsLaid

/-- The attributes of a set that is accepted come first. -/
theorem exists_of_marks_square {inside : Text} (balanced : Delimiter.square.IsBalanced inside)
    {attributes : List Attribute} (read : marks size ('[' :: (inside ++ ']' :: rest)) = .ok attributes) :
    ∃ own others, Attribute.readSet inside = .ok own ∧ own ≠ [] ∧ marks size rest = .ok others ∧
      attributes = own ++ others := by
  have span := Delimiter.span?_square balanced rest
  cases own : Attribute.readSet inside with
  | error fault =>
    rw [marks_square_of_error span (by rw [Text.interior_delimited, own])] at read
    cases read
  | ok found =>
    cases found with
    | nil =>
      rw [marks_square_of_empty span (by rw [Text.interior_delimited, own])] at read
      cases read
    | cons a found =>
      rw [marks_square span (by rw [Text.interior_delimited, own])] at read
      obtain ⟨others, later, rfl⟩ := exists_of_map_eq_ok read
      exact ⟨a :: found, others, rfl, List.cons_ne_nil a found, later, rfl⟩

/-- What is read of a text that is taken into a token has a layout. -/
theorem isLaid_of_isScanned (scanned : t.IsScanned) {split : Option (Text × Text)} {attributes : List Attribute}
    {size' : Nat} (found : splitText size t = .ok split) (read : marks size' (element t split) = .ok attributes) :
    IsLaid t split attributes := by
  induction scanned generalizing split attributes with
  | nil =>
    rw [splitText_nil] at found
    cases found
    rw [element, Option.map_none, Option.getD_none, marks_nil] at read
    cases read
    exact .nil
  | @char c rest isChar later ih =>
    rw [splitText_cons (Text.plain_of_isChar isChar)] at found
    obtain ⟨split', found', rfl⟩ := exists_of_map_eq_ok found
    -- both searches go on behind the character
    rw [element_cons] at read
    by_cases mark : ∃ mark : WordMark, c = mark.char
    · obtain ⟨mark, rfl⟩ := mark
      rw [marks_char] at read
      obtain ⟨others, read', rfl⟩ := exists_of_map_eq_ok read
      exact (ih found' read').char mark
    · have notMark : c ≠ '#' ∧ c ≠ '.' :=
        ⟨fun same => mark ⟨.hash, same⟩, fun same => mark ⟨.dot, same⟩⟩
      have passed : isPassed c = true := by
        simp only [isTokenChar, Bool.or_eq_true, beq_iff_eq, notMark, or_false] at isChar
        simpa [isPassed, or_assoc] using isChar
      rw [marks_cons (plain_of_isPassed passed).1] at read
      exact (ih found' read).cons passed
  | @span d inside rest notRound balanced later ih =>
    cases d with
    | round => exact absurd rfl notRound
    | square =>
      have span := Delimiter.span?_square balanced rest
      obtain ⟨split', found', rfl⟩ := exists_of_map_eq_ok ((splitText_square span).symm.trans found)
      obtain ⟨own, others, own_eq, nonempty, read', rfl⟩ :=
        exists_of_marks_square balanced (element_set inside rest split' ▸ read)
      exact (ih found' read').set balanced own_eq nonempty
    | curly =>
      -- the text ends both searches
      have same := (splitText_curly (Delimiter.span?_curly balanced rest)).symm.trans found
      rw [Text.interior_delimited] at same
      cases same
      rw [element, Option.map_some, Option.getD_some, marks_nil] at read
      cases read
      exact .braced balanced rest

/-- The parts of a text that is taken into a token have a layout. -/
theorem exists_layout_of_hasParts (scanned : t.IsScanned) {split : Option (Text × Text)}
    {marked : Option (Text × List Attribute)} {name : Text} (parts : HasParts t split marked name) (m : Multiplier) :
    ∃ layout : Layout, layout.text = t ∧
      (⟨m, some t, split.map (·.2), marked.map (·.2), some name⟩ : Token) = layout.token m := by
  obtain ⟨found, marks, name_eq, named⟩ := parts
  obtain ⟨attributes, read, -⟩ := exists_of_map_eq_ok marks
  -- what stands before the first segment is the name, which has been checked
  obtain ⟨before, segments, ending, arePassed, whole, rfl, -⟩ := isLaid_of_isScanned scanned found read
  have plain : ∀ c ∈ before, isMark c = false := fun c inside => (plain_of_isPassed (arePassed c inside)).1
  rw [element_eq_front whole] at marks name_eq
  obtain rfl := Except.ok.inj ((splitMarks_segments plain segments).symm.trans marks)
  rw [getD_name] at name_eq
  subst name_eq
  refine ⟨⟨name, named, segments, ending⟩, ?_, ?_⟩
  · rw [whole, Layout.text, Layout.front, Layout.back, List.append_assoc]
  · rw [Layout.token, Layout.text, Layout.front, Layout.back, List.append_assoc, ← whole]
    simp [Function.comp_def]

end Token

/-- A token that the scan takes is read exactly if what is left of it without its multiplier has a layout, and it says what
the layout does: the name, the attributes of the pieces, merged, and the text. Nothing of it is passed over exactly if it is
a name or none, pieces, and a text or none, and nothing else; otherwise characters between the pieces, or all that stands
behind the text, have no effect. -/
theorem Token.read_eq_iff_layout {size : Nat} {t source after : Text} (run : tokenRun size t = .ok (source, after))
    (said : Token) :
    Token.read source = (said, none) ↔
      ∃ (layout : Token.Layout) (multiplier : Multiplier), Multiplier.cut source = .ok (layout.text, multiplier) ∧
        said = layout.token multiplier ∧ (layout.passed = [] ↔ Token.IsComplete layout.text) := by
  rw [Token.read_eq_iff]
  constructor
  · rintro ⟨abbreviation, multiplier, split, marked, name, cut, parts, rfl⟩
    obtain ⟨layout, rfl, same⟩ :=
      Token.exists_layout_of_hasParts ((tokenRun_isScanned run).cut cut) parts multiplier
    exact ⟨layout, multiplier, cut, same, layout.passed_eq_nil_iff⟩
  · rintro ⟨layout, multiplier, cut, rfl, -⟩
    exact ⟨layout.text, multiplier, _, _, layout.name, cut, layout.hasParts,
      by simp [Token.Layout.token, Function.comp_def]⟩

/-- A bar and a name character behind a class are passed over: the token is read, and its abbreviation is not complete. -/
theorem Token.read_eq_iff_layout_bar :
    tokenRun 7 "div.a|x".toList = .ok ("div.a|x".toList, []) ∧
      (∃ (layout : Token.Layout) (multiplier : Multiplier),
        Multiplier.cut "div.a|x".toList = .ok (layout.text, multiplier) ∧
        { abbreviation := some "div.a|x".toList, attributes := some [⟨"class".toList, "a".toList⟩],
          name := some "div".toList : Token } = layout.token multiplier ∧
        (layout.passed = [] ↔ Token.IsComplete layout.text)) ∧
      ¬ Token.IsComplete "div.a|x".toList := by
  have run : tokenRun 7 "div.a|x".toList = .ok ("div.a|x".toList, []) := by cbv
  have read : Token.read "div.a|x".toList =
      ({ abbreviation := some "div.a|x".toList, attributes := some [⟨"class".toList, "a".toList⟩],
         name := some "div".toList }, none) := by cbv
  let cls : Token.Segment :=
    { piece := .oneWord .dot "a".toList (List.all_eq_true.1 (by decide))
      attributes := [⟨"class".toList, "a".toList⟩]
      passed := "|x".toList
      read_eq := rfl
      ne_nil := List.cons_ne_nil _ _
      endsBefore := by rintro c ⟨⟩; decide
      isPassed_of_mem := List.all_eq_true.1 (by decide) }
  let layout : Token.Layout := ⟨"div".toList, .inr (by decide), [cls], none⟩
  refine ⟨run, (Token.read_eq_iff_layout run _).1 read, fun complete => ?_⟩
  have nothing : layout.passed = [] := layout.passed_eq_nil_iff.2 complete
  cases nothing

end Shorthand
