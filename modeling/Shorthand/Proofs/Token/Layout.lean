import Shorthand.Proofs.Attribute.Grammar
import Shorthand.Proofs.Reading.Scanned

/-! # The layout of a token

The abbreviation of a token is a name, pieces that give attributes, and at most one text, in this order. The name goes up
to the first piece or the text, and it must be an element name if it is there at all. Between the pieces and behind the
text there may be characters that are passed over: name characters, stars, bars and plus signs behind a piece, and anything
behind the text. A text has no two layouts that differ in whether something is passed over, because a piece, a name and a
text in braces each end at a place that the characters alone determine.

* **`Token.Piece`** — an identifier, a class or an attribute set, as it is written.
* **`Token.Layout`** — the parts of an abbreviation, with what is passed over between them.
* **`Token.IsComplete`** — a name, pieces and a text, and nothing else.
* `Token.Layout.passed_eq_nil_iff` — nothing is passed over exactly in a complete abbreviation. -/

namespace Shorthand

namespace Token

/-! ## Pieces -/

/-- The markers of the pieces that are one word. -/
inductive WordMark where
  /-- The hash of an identifier. -/
  | hash
  /-- The dot of a class. -/
  | dot

namespace WordMark

/-- The character of a marker. -/
def char : WordMark → Char
  | hash => '#'
  | dot => '.'

/-- The name of the attribute that a marker gives. -/
def name : WordMark → Text
  | hash => ['i', 'd']
  | dot => ['c', 'l', 'a', 's', 's']

end WordMark

/-- A part of a token that gives attributes. -/
inductive Piece where
  /-- An identifier or a class: a marker and a word, which may be empty. -/
  | oneWord (mark : WordMark) (word : Text) (isWord : ∀ c ∈ word, isWordChar c = true)
  /-- An attribute set, which closes the square brackets that it opens. -/
  | set (inside : Text) (balanced : Delimiter.square.IsBalanced inside)

namespace Piece

/-- A piece as it is written. -/
def text : Piece → Text
  | oneWord mark word _ => mark.char :: word
  | set inside _ => '[' :: (inside ++ [']'])

/-- The attributes that a piece gives. -/
def read : Piece → Except AbbreviationFault (List Attribute)
  | oneWord mark word _ => .ok [⟨mark.name, word⟩]
  | set inside _ => Attribute.readSet inside

/-- The piece ends before the given text: its word does not go on. -/
def EndsBefore : Piece → Text → Prop
  | oneWord .., rest => ∀ c ∈ rest.head?, isWordChar c = false
  | set .., _ => True

end Piece

/-- What stands in a text behind the piece at its beginning. -/
def behind : Text → Text
  | [] => []
  | c :: rest =>
    if c = '[' then ((Delimiter.square.span? (c :: rest)).map (·.2)).getD [] else rest.dropWhile isWordChar

/-- A piece is found where it ends. -/
theorem Piece.behind_append {piece : Piece} {rest : Text} (ends : piece.EndsBefore rest) :
    behind (piece.text ++ rest) = rest := by
  cases piece with
  | oneWord mark word isWord =>
    rw [text, List.cons_append, behind, if_neg (by cases mark <;> decide)]
    exact (Text.takeWhile_dropWhile_iff.2 ⟨rfl, isWord, ends⟩).2
  | set inside balanced =>
    have whole : (set inside balanced).text ++ rest = '[' :: (inside ++ ']' :: rest) := by simp [text]
    rw [whole, behind, if_pos rfl, Delimiter.span?_square balanced]
    rfl

/-- A piece begins with a marker. -/
theorem Piece.exists_mark (piece : Piece) : ∃ c rest, isMark c = true ∧ piece.text = c :: rest := by
  cases piece with
  | oneWord mark word isWord => exact ⟨mark.char, word, by cases mark <;> rfl, rfl⟩
  | set inside balanced => exact ⟨'[', _, rfl, rfl⟩

/-- Whether a character is passed over behind a piece: a name character, a star, a bar or a plus sign. -/
def isPassed (c : Char) : Bool := isNameChar c || c == '*' || c == '|' || c == '+'

/-- A piece of a token that is read, with what is passed over behind it. -/
structure Segment where
  /-- The piece. -/
  piece : Piece
  /-- The attributes that it gives. -/
  attributes : List Attribute
  /-- What is passed over. -/
  passed : Text
  /-- The piece is read as these attributes. -/
  read_eq : piece.read = .ok attributes
  /-- There is one at least. -/
  ne_nil : attributes ≠ []
  /-- The word of a piece does not go on. -/
  endsBefore : piece.EndsBefore passed
  /-- What is passed over begins no piece and no text. -/
  isPassed_of_mem : ∀ c ∈ passed, isPassed c = true

/-- A segment as it is written. -/
def Segment.text (s : Segment) : Text := s.piece.text ++ s.passed

/-- The attributes of the segments of a token, merged; without segments it gives none. -/
def mergedAttributes (segments : List Segment) : Option (List Attribute) :=
  if segments = [] then none else some (Attribute.merge (segments.flatMap (·.attributes)))

/-- A text between braces. -/
def braced (text : Text) : Text := '\x7b' :: (text ++ ['\x7d'])

/-- The text at the end of a token that is read, with what is passed over behind it. -/
structure Ending where
  /-- The text. -/
  text : Text
  /-- What is passed over. -/
  passed : Text
  /-- The text closes the braces that it opens. -/
  balanced : Delimiter.curly.IsBalanced text

/-- An ending as it is written. -/
def Ending.written (e : Ending) : Text := braced e.text ++ e.passed

/-- The parts of an abbreviation that is read, one after the other. -/
structure Layout where
  /-- The name. -/
  name : Text
  /-- The name is empty or an element name. -/
  named : name = [] ∨ isElementName name = true
  /-- The pieces. -/
  segments : List Segment
  /-- The text, if there is one. -/
  ending : Option Ending

namespace Layout

variable (l : Layout)

/-- What stands before the text. -/
def front : Text := l.name ++ l.segments.flatMap Segment.text

/-- The text and what stands behind it, or nothing. -/
def back : Text := (l.ending.map Ending.written).getD []

/-- The abbreviation. -/
def text : Text := l.front ++ l.back

/-- All that is passed over. -/
def passed : Text := l.segments.flatMap (·.passed) ++ (l.ending.map (·.passed)).getD []

/-- What a token says whose abbreviation has this layout. -/
def token (multiplier : Multiplier) : Token where
  multiplier
  abbreviation := some l.text
  text := l.ending.map (·.text)
  attributes := mergedAttributes l.segments
  name := some l.name

end Layout

/-- The text is a name or none, pieces, and a text between braces or none, one after the other and nothing else. -/
def IsComplete (t : Text) : Prop :=
  ∃ (name : Text) (pieces : List Piece) (text : Option Text), (name = [] ∨ isElementName name = true) ∧
    (∀ inside ∈ text, Delimiter.curly.IsBalanced inside) ∧
    t = name ++ (pieces.flatMap Piece.text ++ (text.map braced).getD [])

/-! ## Completeness -/

/-- The text is empty or begins with a marker or a brace. -/
def Stops (t : Text) : Prop := ∀ c ∈ t.head?, isMark c = true ∨ c = '\x7b'

/-- The text is empty or begins with a brace. -/
def OpensText (t : Text) : Prop := ∀ c ∈ t.head?, c = '\x7b'

theorem OpensText.stops {t : Text} (opens : OpensText t) : Stops t := fun c first => .inr (opens c first)

/-- What begins with a marker stops at once. -/
theorem stops_flatMap {α : Type} {written : α → Text}
    (begins : ∀ a, ∃ c after, isMark c = true ∧ written a = c :: after) (items : List α) {rest : Text}
    (opens : OpensText rest) : Stops (items.flatMap written ++ rest) := by
  cases items with
  | nil => exact opens.stops
  | cons a items =>
    obtain ⟨c, after, mark, first⟩ := begins a
    rw [List.flatMap_cons, first]
    rintro e ⟨⟩
    exact .inl mark

/-- Where a text stops no word goes on, and nothing is passed over. -/
theorem Stops.not_isPassed {t : Text} (stops : Stops t) : ∀ c ∈ t.head?, isPassed c = false := by
  intro c first
  rcases stops c first with mark | rfl
  · simp only [isMark, Bool.or_eq_true, beq_iff_eq] at mark
    rcases mark with (rfl | rfl) | rfl <;> decide
  · decide

/-- What is passed over does not stop a text. -/
theorem eq_nil_of_stops {passed rest : Text} (arePassed : ∀ c ∈ passed, isPassed c = true)
    (stops : Stops (passed ++ rest)) : passed = [] := by
  cases passed with
  | nil => rfl
  | cons c passed =>
    have isPassed := arePassed c List.mem_cons_self
    rw [stops.not_isPassed c rfl] at isPassed
    cases isPassed

/-- A piece ends where a text stops. -/
theorem Piece.endsBefore_of_stops (piece : Piece) {rest : Text} (stops : Stops rest) : piece.EndsBefore rest := by
  have noWord : ∀ c ∈ rest.head?, isWordChar c = false := fun c first => by
    have notPassed := stops.not_isPassed c first
    simp only [isPassed, isNameChar, Bool.or_eq_false_iff] at notPassed
    exact notPassed.1.1.1.1.1
  cases piece with
  | oneWord => exact noWord
  | set => trivial

/-- A piece that ends before some text ends before it also where the text goes on and stops. -/
theorem Piece.EndsBefore.append {piece : Piece} {passed rest : Text} (ends : piece.EndsBefore passed)
    (stops : Stops rest) : piece.EndsBefore (passed ++ rest) := by
  cases passed with
  | nil => exact piece.endsBefore_of_stops stops
  | cons c passed =>
    cases piece with
    | oneWord => exact ends
    | set => trivial

/-- A segment begins with a marker. -/
theorem Segment.exists_mark (s : Segment) : ∃ c rest, isMark c = true ∧ s.text = c :: rest := by
  obtain ⟨c, rest, mark, begins⟩ := s.piece.exists_mark
  exact ⟨c, rest ++ s.passed, mark, by rw [text, begins]; rfl⟩

/-- Segments alone stop at once. -/
theorem stops_segments (segments : List Segment) : Stops (segments.flatMap Segment.text) := by
  have stops : Stops (segments.flatMap Segment.text ++ []) :=
    stops_flatMap Segment.exists_mark segments (by simp [OpensText])
  rwa [List.append_nil] at stops

/-- Segments that are written as pieces have nothing passed over. -/
theorem passed_eq_nil_of_append_eq {segments : List Segment} {pieces : List Piece} {rest rest' : Text}
    (opens : OpensText rest) (opens' : OpensText rest')
    (same : segments.flatMap Segment.text ++ rest = pieces.flatMap Piece.text ++ rest') :
    segments.flatMap (·.passed) = [] ∧ rest = rest' := by
  induction segments generalizing pieces with
  | nil =>
    cases pieces with
    | nil => exact ⟨rfl, same⟩
    | cons piece pieces =>
      -- what comes after the segments would begin with a marker
      obtain ⟨c, after, mark, begins⟩ := piece.exists_mark
      rw [List.flatMap_cons, begins] at same
      obtain rfl := opens c (by rw [show rest = _ from same]; rfl)
      cases mark
  | cons s segments ih =>
    cases pieces with
    | nil =>
      obtain ⟨c, after, mark, begins⟩ := s.exists_mark
      rw [List.flatMap_cons, begins] at same
      obtain rfl := opens' c (by rw [← show _ = rest' from same]; rfl)
      cases mark
    | cons piece pieces =>
      have stops := stops_flatMap Segment.exists_mark segments opens
      have stops' := stops_flatMap Piece.exists_mark pieces opens'
      rw [List.flatMap_cons, List.flatMap_cons, Segment.text, List.append_assoc, List.append_assoc,
        List.append_assoc] at same
      -- where a piece ends is read off the characters, so both first pieces end at the same place
      have later := congrArg behind same
      rw [Piece.behind_append (s.endsBefore.append stops),
        Piece.behind_append (piece.endsBefore_of_stops stops')] at later
      -- and there the pieces go on with a marker, a brace or nothing, none of which is passed over
      have nothing := eq_nil_of_stops s.isPassed_of_mem (later ▸ stops')
      rw [nothing, List.nil_append] at later
      obtain ⟨others, left⟩ := ih later
      exact ⟨by rw [List.flatMap_cons, nothing, others]; rfl, left⟩

/-- A name ends where a text stops. -/
theorem takeWhile_name_append {name rest : Text} (named : name = [] ∨ isElementName name = true) (stops : Stops rest) :
    (name ++ rest).takeWhile (fun c => !isMark c && c != '\x7b') = name ∧
      (name ++ rest).dropWhile (fun c => !isMark c && c != '\x7b') = rest := by
  refine Text.takeWhile_dropWhile_iff.2 ⟨rfl, fun c inside => ?_, fun c first => ?_⟩
  · obtain ⟨noMark, -, -, -, noBrace⟩ := plain_of_mem_name named c inside
    simp [noMark, noBrace]
  · rcases stops c first with mark | rfl
    · simp [mark]
    · decide

namespace Layout

/-- What stands behind the pieces is empty or begins with a brace. -/
theorem opensText_back (l : Layout) : OpensText l.back := by
  cases ending : l.ending with
  | none => simp [OpensText, back, ending]
  | some e =>
    rw [OpensText, back, ending]
    rintro c ⟨⟩
    rfl

/-- A text that is complete up to the text in braces has nothing behind it. -/
theorem passed_eq_nil_of_back_eq {l : Layout} {text : Option Text}
    (balanced : ∀ inside ∈ text, Delimiter.curly.IsBalanced inside) (same : l.back = (text.map braced).getD []) :
    (l.ending.map (·.passed)).getD [] = [] := by
  cases ending : l.ending with
  | none => rfl
  | some e =>
    rw [back, ending] at same
    cases text with
    | none => cases same
    | some inside =>
      have first := Delimiter.span?_curly e.balanced e.passed
      have second := Delimiter.span?_curly (balanced inside rfl) []
      have whole : '\x7b' :: (e.text ++ '\x7d' :: e.passed) = '\x7b' :: (inside ++ '\x7d' :: []) := by
        simpa [Ending.written, braced] using same
      rw [whole, second] at first
      exact (Prod.mk.inj (Option.some.inj first)).2.symm

/-- Nothing is passed over exactly if the abbreviation is complete. -/
theorem passed_eq_nil_iff (l : Layout) : l.passed = [] ↔ IsComplete l.text := by
  constructor
  · intro nothing
    obtain ⟨between, behindText⟩ := List.append_eq_nil_iff.1 nothing
    refine ⟨l.name, l.segments.map (·.piece), l.ending.map (·.text), l.named, ?_, ?_⟩
    · rintro inside found
      obtain ⟨e, -, rfl⟩ := Option.map_eq_some_iff.1 found
      exact e.balanced
    · have front : l.segments.flatMap Segment.text = (l.segments.map (·.piece)).flatMap Piece.text := by
        rw [List.flatMap_map]
        refine List.flatMap_congr fun s inside => ?_
        rw [Segment.text, List.flatMap_eq_nil_iff.1 between s inside, List.append_nil]
      have back : l.back = ((l.ending.map (·.text)).map braced).getD [] := by
        rw [back]
        cases ending : l.ending with
        | none => rfl
        | some e =>
          rw [ending] at behindText
          have nothing : e.passed = [] := behindText
          simp [Ending.written, nothing]
      rw [Layout.text, Layout.front, front, back, List.append_assoc]
  · rintro ⟨name, pieces, text, named, balanced, same⟩
    have opens : OpensText ((text.map braced).getD []) := by
      cases text with
      | none => simp [OpensText]
      | some inside => rintro c ⟨⟩; rfl
    rw [Layout.text, front, List.append_assoc] at same
    have left := takeWhile_name_append l.named (stops_flatMap Segment.exists_mark l.segments l.opensText_back)
    have right := takeWhile_name_append named (stops_flatMap Piece.exists_mark pieces opens)
    rw [same] at left
    have same := left.2.symm.trans right.2
    obtain ⟨noneBetween, same⟩ := passed_eq_nil_of_append_eq l.opensText_back opens same
    rw [passed, noneBetween, passed_eq_nil_of_back_eq balanced same, List.append_nil]

end Layout

end Token

end Shorthand
