import Mathlib.Data.List.TakeWhile
import Shorthand.Proofs.Delimiter
import Shorthand.Proofs.Multiplier

/-! # How a token is taken apart

A token is taken apart from left to right, and most of its characters are passed over. What a scan of a token makes of its
beginning is said here, character by character and span by span, so that a proof about a token follows its parts.

* `Token.splitText_cons`, `Token.splitText_square`, `Token.splitText_curly` — the search for the text.
* `Token.marks_cons`, `Token.marks_square` — the search for the markers.
* `Token.plain_of_mem_name` — a name has no part in either search.
* **`Token.HasParts`** — the parts of a token without its multiplier.
* `Token.read_eq_iff` — a token is read without a fault exactly if it has all parts.
* `Token.read_of_isElementName` — an element name alone is such a token. -/

namespace Shorthand

namespace Token

variable {size : Nat} {c : Char} {t span after : Text}

/-! ## The text -/

@[simp] theorem splitText_nil : splitText size [] = .ok none := by rw [splitText]

/-- A character that neither opens a span nor protects another one stands before the text. -/
theorem splitText_cons (plain : c ≠ '[' ∧ c ≠ '(' ∧ c ≠ '\\' ∧ c ≠ '\x7b') (t : Text) :
    splitText size (c :: t) =
      (splitText size t).map (Option.map fun found => (c :: found.1, found.2)) := by
  obtain ⟨square, round, backslash, curly⟩ := plain
  rw [splitText.eq_def]
  dsimp only
  rw [if_neg (by simp [square, round]), if_neg backslash, if_neg curly]

section Before

variable {ε : Type} (found : Except ε (Option (Text × Text)))

/-- Nothing before the text changes nothing. -/
theorem map_before_nil : (found.map (Option.map fun found => (([] : Text) ++ found.1, found.2))) = found := by
  cases found with
  | error fault => rfl
  | ok split => cases split <;> rfl

/-- What is put before the text first stands behind what is put there later. -/
theorem map_before_append (s u : Text) :
    (found.map (Option.map fun found => (u ++ found.1, found.2))).map (Option.map fun found => (s ++ found.1, found.2)) =
      found.map (Option.map fun found => (s ++ u ++ found.1, found.2)) := by
  cases found with
  | error fault => rfl
  | ok split => cases split <;> simp [Except.map]

end Before

/-- Characters of that kind stand before the text. -/
theorem splitText_append (plain : ∀ c ∈ t, c ≠ '[' ∧ c ≠ '(' ∧ c ≠ '\\' ∧ c ≠ '\x7b') (rest : Text) :
    splitText size (t ++ rest) =
      (splitText size rest).map (Option.map fun found => (t ++ found.1, found.2)) := by
  induction t with
  | nil => rw [List.nil_append, map_before_nil]
  | cons c t ih =>
    rw [List.cons_append, splitText_cons (plain c List.mem_cons_self),
      ih fun e inside => plain e (List.mem_cons_of_mem c inside)]
    exact map_before_append (splitText size rest) [c] t

/-- Where such characters stand alone there is no text. -/
theorem splitText_eq_none (plain : ∀ c ∈ t, c ≠ '[' ∧ c ≠ '(' ∧ c ≠ '\\' ∧ c ≠ '\x7b') :
    splitText size t = .ok none := by
  have parts : splitText size (t ++ []) = _ := splitText_append plain []
  rw [List.append_nil, splitText_nil] at parts
  exact parts

/-- An attribute set is passed over. -/
theorem splitText_square (found : Delimiter.square.span? ('[' :: t) = some (span, after)) :
    splitText size ('[' :: t) =
      (splitText size after).map (Option.map fun found => (span ++ found.1, found.2)) := by
  rw [splitText.eq_def]
  dsimp only
  rw [if_pos (by decide)]
  split
  · next found' =>
    rw [if_pos rfl, found] at found'
    cases found'
    rfl
  · next unclosed =>
    rw [if_pos rfl, found] at unclosed
    cases unclosed

/-- The first span in braces is the text. -/
theorem splitText_curly (found : Delimiter.curly.span? ('\x7b' :: t) = some (span, after)) :
    splitText size ('\x7b' :: t) = .ok (some ([], span.interior)) := by
  rw [splitText.eq_def]
  dsimp only
  rw [if_neg (by decide), if_neg (by decide), if_pos rfl]
  simp only [found]

/-! ## The markers -/

@[simp] theorem marks_nil : marks size [] = .ok [] := by rw [marks]

/-- A character that is no marker is passed over. -/
theorem marks_cons (plain : isMark c = false) (t : Text) : marks size (c :: t) = marks size t := by
  simp only [isMark, Bool.or_eq_false_iff, beq_eq_false_iff_ne] at plain
  obtain ⟨⟨hash, dot⟩, square⟩ := plain
  rw [marks, if_neg hash, if_neg dot, if_neg square]

/-- Characters of that kind are passed over. -/
theorem marks_append (plain : ∀ c ∈ t, isMark c = false) (rest : Text) :
    marks size (t ++ rest) = marks size rest := by
  induction t with
  | nil => rfl
  | cons c t ih =>
    rw [List.cons_append, marks_cons (plain c List.mem_cons_self),
      ih fun e inside => plain e (List.mem_cons_of_mem c inside)]

/-- Without markers there are no attributes in a token. -/
theorem splitMarks_eq_none (plain : ∀ c ∈ t, isMark c = false) : splitMarks t = .ok none := by
  have noMarks : marks t.length (t ++ []) = _ := marks_append plain []
  rw [List.append_nil, marks_nil] at noMarks
  rw [splitMarks, noMarks]
  rfl

/-- What a set says comes before what follows it; a set that says nothing is refused. -/
theorem marks_of_span (found : Delimiter.square.span? ('[' :: t) = some (span, after)) :
    marks size ('[' :: t) = (Attribute.readSet span.interior).bind fun inside =>
      if inside = [] then .error (.emptySet (size - (t.length + 1)))
      else (marks size after).map fun others => inside ++ others := by
  rw [marks, if_neg (by decide), if_neg (by decide), if_pos rfl]
  split
  · next unclosed =>
    rw [found] at unclosed
    cases unclosed
  · next found' =>
    rw [found] at found'
    cases found'
    cases Attribute.readSet span.interior with
    | error fault => rfl
    | ok inside =>
      cases inside with
      | nil => rfl
      | cons a inside => cases marks size after <;> rfl

/-- The attributes of a set come first. -/
theorem marks_square (found : Delimiter.square.span? ('[' :: t) = some (span, after)) {a : Attribute}
    {inside : List Attribute} (read : Attribute.readSet span.interior = .ok (a :: inside)) :
    marks size ('[' :: t) = (marks size after).map fun others => a :: inside ++ others := by
  rw [marks_of_span found, read]
  rfl

/-- A set that cannot be read is refused. -/
theorem marks_square_of_error (found : Delimiter.square.span? ('[' :: t) = some (span, after))
    {fault : AbbreviationFault} (refused : Attribute.readSet span.interior = .error fault) :
    marks size ('[' :: t) = .error fault := by
  rw [marks_of_span found, refused]
  rfl

/-- A set without an end is refused. -/
theorem marks_square_of_unclosed (unclosed : Delimiter.square.span? ('[' :: t) = none) :
    marks size ('[' :: t) = .error (.unclosedSet (size - (t.length + 1))) := by
  rw [marks, if_neg (by decide), if_neg (by decide), if_pos rfl]
  split
  · rfl
  · next found =>
    rw [unclosed] at found
    cases found

/-- So is a set that gives no attribute. -/
theorem marks_square_of_empty (found : Delimiter.square.span? ('[' :: t) = some (span, after))
    (empty : Attribute.readSet span.interior = .ok []) :
    marks size ('[' :: t) = .error (.emptySet (size - (t.length + 1))) := by
  rw [marks_of_span found, empty]
  rfl

/-! ## The name -/

/-- An element name consists of name characters, a plus sign and a line feed. -/
theorem mem_of_isElementName (named : isElementName t = true) : ∀ c ∈ t, isNameChar c = true ∨ c = '+' ∨ c = '\n' := by
  intro c inside
  simp only [isElementName, Bool.and_eq_true, Bool.or_eq_true, beq_iff_eq] at named
  rw [← List.takeWhile_append_dropWhile (p := isNameChar) (l := t), List.mem_append] at inside
  rcases inside with inName | after
  · exact .inl (List.mem_takeWhile_imp inName)
  · rcases named.2 with ((nothing | plus) | feed) | both <;> simp_all

/-- A name character has no part in either search. -/
theorem plain_of_isNameChar (isName : isNameChar c = true) :
    isMark c = false ∧ c ≠ '[' ∧ c ≠ '(' ∧ c ≠ '\\' ∧ c ≠ '\x7b' := by
  have other : ∀ special, isNameChar special = false → c ≠ special := by
    rintro special notName rfl
    rw [notName] at isName
    cases isName
  have notMark : isMark c = false := by
    simp only [isMark, Bool.or_eq_false_iff, beq_eq_false_iff_ne]
    exact ⟨⟨other _ (by decide), other _ (by decide)⟩, other _ (by decide)⟩
  exact ⟨notMark, other _ (by decide), other _ (by decide), other _ (by decide), other _ (by decide)⟩

/-- Nor has any character of a name. -/
theorem plain_of_mem_name (named : t = [] ∨ isElementName t = true) :
    ∀ c ∈ t, isMark c = false ∧ c ≠ '[' ∧ c ≠ '(' ∧ c ≠ '\\' ∧ c ≠ '\x7b' := by
  intro c inside
  rcases named with rfl | named
  · cases inside
  · rcases mem_of_isElementName named c inside with isName | rfl | rfl
    · exact plain_of_isNameChar isName
    · decide
    · decide

/-! ## The whole token -/

/-- What is left of a token that has a text, or of one that has none. -/
def element (abbreviation : Text) (split : Option (Text × Text)) : Text := (split.map (·.1)).getD abbreviation

/-- What is put before the text and what is searched stands before what is left. -/
theorem element_append (passed t : Text) (split : Option (Text × Text)) :
    element (passed ++ t) (split.map fun found => (passed ++ found.1, found.2)) = passed ++ element t split := by
  cases split <;> rfl

theorem element_cons (c : Char) (t : Text) (split : Option (Text × Text)) :
    element (c :: t) (split.map fun found => (c :: found.1, found.2)) = c :: element t split :=
  element_append [c] t split

/-- A set that is passed over stands before what is left. -/
theorem element_set (inside t : Text) (split : Option (Text × Text)) :
    element ('[' :: (inside ++ ']' :: t)) (split.map fun found => ('[' :: (inside ++ [']']) ++ found.1, found.2)) =
      '[' :: (inside ++ ']' :: element t split) := by
  have passed := element_append ('[' :: (inside ++ [']'])) t split
  simpa using passed

/-- The parts that are found in a token without its multiplier, one after the other: the text, the markers, and the name
before them, which is empty or an element name. -/
structure HasParts (t : Text) (split : Option (Text × Text)) (marked : Option (Text × List Attribute)) (name : Text) :
    Prop where
  /-- The text and what stands before it. -/
  split_eq : splitText t.length t = .ok split
  /-- The attributes and what stands before their markers. -/
  marked_eq : splitMarks (element t split) = .ok marked
  /-- The name stands before the markers and the text. -/
  name_eq : name = (marked.map (·.1)).getD (element t split)
  /-- The name is empty or an element name. -/
  named : name = [] ∨ isElementName name = true

/-- A token is read without a fault exactly if it has all parts, and then it says what they are. -/
theorem read_eq_iff {source : Text} {said : Token} :
    Token.read source = (said, none) ↔
      ∃ t multiplier split marked name, Multiplier.cut source = .ok (t, multiplier) ∧ HasParts t split marked name ∧
        said = ⟨multiplier, some t, split.map (·.2), marked.map (·.2), some name⟩ := by
  constructor
  · intro read
    unfold Token.read at read
    split at read
    · simp at read
    · next t multiplier cut =>
      dsimp only at read
      split at read
      · simp at read
      · next split found =>
        split at read
        · simp at read
        · next marked marks =>
          split at read
          · next named =>
            rw [Bool.or_eq_true, decide_eq_true_eq] at named
            exact ⟨t, multiplier, split, marked, _, cut, ⟨found, marks, rfl, named⟩, (Prod.mk.inj read).1.symm⟩
          · simp at read
  · rintro ⟨t, multiplier, split, marked, name, cut, ⟨found, marks, rfl, named⟩, rfl⟩
    unfold Token.read
    rw [cut]
    dsimp only
    rw [found]
    dsimp only
    rw [show (split.map (·.1)).getD t = element t split from rfl, marks]
    dsimp only
    rw [if_pos (by rwa [Bool.or_eq_true, decide_eq_true_eq])]

/-- An element name alone is a token that gives this name and nothing else. -/
theorem read_of_isElementName (named : isElementName t = true) :
    Token.read t = ({ abbreviation := some t, name := some t }, none) := by
  have plain := plain_of_mem_name (.inr named)
  have noStar : ∀ c ∈ t, c ≠ '*' := by
    rintro _ inside rfl
    exact absurd (mem_of_isElementName named _ inside) (by decide)
  have cut := Multiplier.cut_eq_absent_iff.2 (Multiplier.splitAtStar?_eq_none noStar)
  exact read_eq_iff.2 ⟨t, .absent, none, none, t, cut,
    ⟨splitText_eq_none fun c inside => (plain c inside).2, splitMarks_eq_none fun c inside => (plain c inside).1, rfl,
      .inr named⟩, rfl⟩

/-- A token without a fault has its parts one after the other: the multiplier, the text, the markers and the name. -/
theorem exists_parts_of_read {source : Text} {said : Token} (read : Token.read source = (said, none)) :
    ∃ abbreviation split marked, Multiplier.cut source = .ok (abbreviation, said.multiplier) ∧
      splitText abbreviation.length abbreviation = .ok split ∧
      splitMarks (element abbreviation split) = .ok marked := by
  obtain ⟨t, multiplier, split, marked, name, cut, parts, rfl⟩ := read_eq_iff.1 read
  exact ⟨t, split, marked, cut, parts.split_eq, parts.marked_eq⟩

end Token

end Shorthand
