import Shorthand.Proofs.Reading.Scanned

/-! # Reading an abbreviation again

What is left of a token when its multiplier is cut off may end with a multiplier again, as in `a.b*2*3`. That one stands
behind all spans and all markers, so that the text, the attributes and the name are the same with and without it. An
abbreviation that is read again says of its node what the token said, unless the number of the multiplier at its end has
too many digits.

* **`Text.IsMute`** — a text holds nothing that the reading of a token looks for.
* `Token.splitText_of_append`, `Token.marks_of_append` — mute characters at the end do not matter.
* `Token.read_abbreviation` — an abbreviation is read as the token. -/

namespace Shorthand

/-! ## Spans -/

section Spans

variable {isOpen isClose : Char → Bool} {depth : Nat} {t tail span rest : Text}

/-- Where nothing is closed there is no span. -/
theorem pairSpan?_eq_none (closesNone : ∀ c ∈ t, isClose c = false) : pairSpan? isOpen isClose depth t = none := by
  induction t generalizing depth with
  | nil => rfl
  | cons c t ih =>
    have later : ∀ depth, pairSpan? isOpen isClose depth t = none := fun depth =>
      ih fun e inside => closesNone e (List.mem_cons_of_mem c inside)
    rw [pairSpan?, closesNone c List.mem_cons_self]
    simp [later]

/-- A tail that closes nothing ends no span. -/
theorem pairSpan?_append_eq_none (unclosed : pairSpan? isOpen isClose depth t = none)
    (closesNone : ∀ c ∈ tail, isClose c = false) : pairSpan? isOpen isClose depth (t ++ tail) = none := by
  induction t generalizing depth with
  | nil => exact pairSpan?_eq_none closesNone
  | cons c t ih =>
    rw [List.cons_append]
    obtain ends | ⟨later, goesOn⟩ := pairSpan?_cons isOpen isClose depth c
    · rw [ends] at unclosed
      cases unclosed
    · rw [goesOn] at unclosed ⊢
      exact Option.map_eq_none_iff.2 (ih (Option.map_eq_none_iff.1 unclosed))

/-- A tail that closes nothing follows the span of a text. -/
theorem Delimiter.span?_append_tail (d : Delimiter) (t : Text) (closesNone : ∀ c ∈ tail, c ≠ d.closer) :
    d.span? (t ++ tail) = (d.span? t).map fun found => (found.1, found.2 ++ tail) := by
  cases found : d.span? t with
  | some parts => exact span?_append_right found tail
  | none => exact pairSpan?_append_eq_none found fun c inside => beq_eq_false_iff_ne.2 (closesNone c inside)

end Spans

namespace Text

/-- The text holds no delimiter, no backslash and no marker of attributes, and it does not begin with a word
character. -/
structure IsMute (t : Text) : Prop where
  /-- Nothing is opened or closed. -/
  delimits : ∀ c ∈ t, ∀ d : Delimiter, c ≠ d.opener ∧ c ≠ d.closer
  /-- Nothing is protected. -/
  protects : ∀ c ∈ t, c ≠ '\\'
  /-- No attribute is introduced. -/
  marks : ∀ c ∈ t, Token.isMark c = false
  /-- No name goes on. -/
  begins : ∀ c ∈ t.head?, isWordChar c = false

end Text

namespace Token

variable {size size' : Nat} {t tail : Text}

/-- Mute characters neither open a span nor protect another character. -/
theorem plain_of_isMute (mute : tail.IsMute) : ∀ c ∈ tail, c ≠ '[' ∧ c ≠ '(' ∧ c ≠ '\\' ∧ c ≠ '\x7b' :=
  fun c inside => ⟨(mute.delimits c inside .square).1, (mute.delimits c inside .round).1, mute.protects c inside,
    (mute.delimits c inside .curly).1⟩

/-- Mute characters at the end do not matter for the text in a token. -/
theorem splitText_of_append (mute : tail.IsMute) {split : Option (Text × Text)}
    (found : splitText size (t ++ tail) = .ok split) : splitText size' t = .ok split := by
  have spans (d : Delimiter) (t : Text) := d.span?_append_tail t fun c inside => (mute.delimits c inside d).2
  fun_induction splitText size' t generalizing split with
  | case1 =>
    rwa [List.nil_append, splitText_eq_none (plain_of_isMute mute)] at found
  | case2 c rest bracket span after inside ih =>
    -- the span is passed over in both texts
    have inside' := spans (if c = '[' then .square else .round) (c :: rest)
    simp only [dite_eq_ite] at inside
    rw [inside] at inside'
    rw [splitText.eq_def, List.cons_append] at found
    simp only [if_pos bracket] at found
    split at found
    · next span' after' both =>
      cases both.symm.trans inside'
      obtain ⟨later, further, rfl⟩ := exists_of_map_eq_ok found
      rw [ih further]
      rfl
    · next unclosed => cases unclosed.symm.trans inside'
  | case3 c rest bracket unclosed ih =>
    have unclosed' := spans (if c = '[' then .square else .round) (c :: rest)
    simp only [dite_eq_ite] at unclosed
    rw [unclosed] at unclosed'
    rw [splitText.eq_def, List.cons_append] at found
    simp only [if_pos bracket] at found
    split at found
    · next span' after' inside => cases inside.symm.trans unclosed'
    · obtain ⟨later, further, rfl⟩ := exists_of_map_eq_ok found
      rw [ih further]
      rfl
  | case4 =>
    -- a backslash at the end would protect the first of the mute characters
    cases tail with
    | nil => rwa [List.append_nil, splitText.eq_def] at found
    | cons d after =>
      have plain := fun c inside => plain_of_isMute mute c (List.mem_cons_of_mem d inside)
      rw [List.singleton_append, splitText.eq_def] at found
      simp only [splitText_eq_none plain] at found
      exact found
  | case5 d after _ ih =>
    rw [splitText.eq_def] at found
    obtain ⟨later, further, rfl⟩ := exists_of_map_eq_ok found
    rw [ih further]
    rfl
  | case6 rest _ _ span after inside =>
    rw [List.cons_append, splitText_curly ((spans .curly _).trans (by rw [inside]))] at found
    exact found
  | case7 rest _ _ unclosed =>
    have unclosed' := spans .curly ('\x7b' :: rest)
    rw [unclosed] at unclosed'
    rw [splitText.eq_def, List.cons_append] at found
    simp only [List.cons_append] at unclosed'
    simp [unclosed'] at found
  | case8 c rest notBracket notBackslash notBrace ih =>
    simp only [Bool.or_eq_true, decide_eq_true_eq, not_or] at notBracket
    rw [List.cons_append, splitText_cons ⟨notBracket.1, notBracket.2, notBackslash, notBrace⟩] at found
    obtain ⟨later, further, rfl⟩ := exists_of_map_eq_ok found
    rw [ih further]
    rfl

/-- Where the second part of a text begins with a character of another kind, a run of characters ends in the first. -/
theorem takeWhile_append_of_begins {p : Char → Bool} (begins : ∀ c ∈ tail.head?, p c = false) (t : Text) :
    (t ++ tail).takeWhile p = t.takeWhile p ∧ (t ++ tail).dropWhile p = t.dropWhile p ++ tail := by
  induction t with
  | nil =>
    cases tail with
    | nil => exact ⟨rfl, rfl⟩
    | cons c tail =>
      have other : ¬ p c = true := by simp [begins c rfl]
      exact ⟨List.takeWhile_cons_of_neg other, List.dropWhile_cons_of_neg other⟩
  | cons c t ih =>
    by_cases same : p c = true
    · simp only [List.cons_append, List.takeWhile_cons_of_pos same, List.dropWhile_cons_of_pos same, ih, and_self]
    · simp only [List.cons_append, List.takeWhile_cons_of_neg same, List.dropWhile_cons_of_neg same, and_self]

/-- Mute characters at the end do not matter for the markers of a token. -/
theorem marks_of_append (mute : tail.IsMute) {attributes : List Attribute}
    (found : marks size (t ++ tail) = .ok attributes) : marks size' t = .ok attributes := by
  have words := takeWhile_append_of_begins mute.begins
  have spans (t : Text) := Delimiter.square.span?_append_tail t fun c inside => (mute.delimits c inside .square).2
  fun_induction marks size' t generalizing attributes with
  | case1 =>
    have none : marks size (tail ++ []) = marks size [] := marks_append mute.marks []
    rw [List.append_nil, marks_nil] at none
    rwa [List.nil_append, none] at found
  | case2 rest ih =>
    rw [List.cons_append, marks, if_pos rfl, (words rest).1, (words rest).2] at found
    obtain ⟨others, further, rfl⟩ := exists_of_map_eq_ok found
    rw [ih further]
    rfl
  | case3 rest notHash ih =>
    rw [List.cons_append, marks, if_neg notHash, if_pos rfl, (words rest).1, (words rest).2] at found
    obtain ⟨others, further, rfl⟩ := exists_of_map_eq_ok found
    rw [ih further]
    rfl
  | case4 rest _ _ unclosed =>
    have unclosed' := spans ('[' :: rest)
    rw [unclosed, List.cons_append] at unclosed'
    rw [List.cons_append, marks_square_of_unclosed unclosed'] at found
    cases found
  | case5 rest span after _ _ inside ih =>
    have inside' := spans ('[' :: rest)
    rw [inside, List.cons_append] at inside'
    rw [List.cons_append] at found
    -- what stands in the set is the same in both texts
    rcases read : Attribute.readSet span.interior with fault | ⟨_ | ⟨a, set⟩⟩
    · rw [marks_square_of_error inside' read] at found
      cases found
    · rw [marks_square_of_empty inside' read] at found
      cases found
    · rw [marks_square inside' read] at found
      obtain ⟨others, further, rfl⟩ := exists_of_map_eq_ok found
      rw [ih further]
      rfl
  | case6 c rest notHash notDot notSquare ih =>
    have plain : isMark c = false := by simp [isMark, notHash, notDot, notSquare]
    rw [List.cons_append, marks_cons plain] at found
    exact ih found

/-- Mute characters at the end do not matter for the attributes of a token that has some. -/
theorem splitMarks_of_append (mute : tail.IsMute) {marked : Text × List Attribute}
    (found : splitMarks (t ++ tail) = .ok (some marked)) : splitMarks t = .ok (some marked) := by
  obtain ⟨attributes, read, same⟩ := exists_of_map_eq_ok found
  have again : marks t.length t = .ok attributes := marks_of_append mute read
  split at same
  · cases same
  · next some =>
    cases same
    -- the first marker stands before the mute characters
    have marker : ¬ ∀ c ∈ t, (!isMark c) = true := by
      intro plain
      have none : marks t.length (t ++ []) = marks t.length [] :=
        marks_append (fun c inside => by simpa using plain c inside) []
      rw [List.append_nil, marks_nil, again] at none
      exact some (Except.ok.inj none)
    have before : (t ++ tail).takeWhile (fun c => !isMark c) = t.takeWhile fun c => !isMark c := by
      rw [List.takeWhile_append, if_neg]
      intro whole
      have all := List.takeWhile_eq_self_iff.1
        ((List.takeWhile_prefix (p := fun c => !isMark c) (l := t)).eq_of_length whole)
      exact marker all
    rw [splitMarks, again, before]
    simp only [Except.map, if_neg some]

/-- What holds a star is no name. -/
theorem not_isElementName_of_mem (star : '*' ∈ t) : isElementName t = false := by
  rw [← Bool.not_eq_true]
  intro named
  have inName := mem_of_isElementName named '*' star
  revert inName
  decide

/-- A token has the same parts with and without mute characters at the end that hold a star. -/
theorem HasParts.of_append {split : Option (Text × Text)} {marked : Option (Text × List Attribute)} {name : Text}
    (mute : tail.IsMute) (star : '*' ∈ tail) (parts : HasParts (t ++ tail) split marked name) :
    HasParts t split marked name := by
  obtain ⟨found, marks, rfl, named⟩ := parts
  have again : splitText t.length t = .ok split := splitText_of_append mute found
  cases split with
  | some split => exact ⟨again, marks, rfl, named⟩
  | none =>
    cases marked with
    | some marked => exact ⟨again, splitMarks_of_append mute marks, rfl, named⟩
    | none =>
      -- without text and markers the star would stand in the name
      have inside : '*' ∈ t ++ tail := List.mem_append_right t star
      rcases named with empty | isName
      · have nothing : t ++ tail = [] := empty
        exact absurd nothing (List.ne_nil_of_mem inside)
      · have whole : isElementName (t ++ tail) = true := isName
        rw [not_isElementName_of_mem inside] at whole
        cases whole

end Token

/-- What a multiplier is cut off of ends with the star and what follows it. -/
theorem Multiplier.exists_of_splitAtStar? {t rest digits : Text} (found : splitAtStar? t = some (rest, digits)) :
    ∃ after, t = rest ++ '*' :: after ∧ isDigitTail after = true := by
  induction t generalizing rest with
  | nil => cases found
  | cons c t ih =>
    rw [splitAtStar?] at found
    split at found
    · next last =>
      cases found
      simp only [Bool.and_eq_true, decide_eq_true_eq] at last
      exact ⟨t, by rw [last.1]; rfl, last.2⟩
    · obtain ⟨⟨before, more⟩, further, same⟩ := Option.map_eq_some_iff.1 found
      cases same
      obtain ⟨after, rfl, ends⟩ := ih further
      exact ⟨after, rfl, ends⟩

/-- A star with digits after it is mute. -/
theorem Text.isMute_star {after : Text} (ends : Multiplier.isDigitTail after = true) : IsMute ('*' :: after) := by
  have chars : ∀ c ∈ '*' :: after, isDigit c = true ∨ c = '\n' ∨ c = '*' := by
    intro c inside
    rcases List.mem_cons.1 inside with rfl | later
    · exact .inr (.inr rfl)
    · exact (Multiplier.mem_of_isDigitTail ends c later).imp_right .inl
  have differs : ∀ e : Char, isDigit e = false → e ≠ '\n' → e ≠ '*' → ∀ c ∈ '*' :: after, c ≠ e := by
    rintro e notDigit notFeed notStar c inside rfl
    rcases chars c inside with digit | feed | star
    · rw [notDigit] at digit
      cases digit
    · exact notFeed feed
    · exact notStar star
  refine ⟨fun c inside d => ?_, differs '\\' (by decide) (by decide) (by decide), fun c inside => ?_, ?_⟩
  · cases d <;> exact ⟨differs _ (by decide) (by decide) (by decide) c inside,
      differs _ (by decide) (by decide) (by decide) c inside⟩
  · simp only [Token.isMark, Bool.or_eq_false_iff, beq_eq_false_iff_ne]
    exact ⟨⟨differs _ (by decide) (by decide) (by decide) c inside,
      differs _ (by decide) (by decide) (by decide) c inside⟩,
      differs _ (by decide) (by decide) (by decide) c inside⟩
  · intro c first
    cases first
    decide

/-- The abbreviation of a token says what the token says, the multiplier apart, unless the number of a multiplier at its
end has too many digits. -/
theorem Token.read_abbreviation {source abbreviation : Text} {said : Token}
    (read : Token.read source = (said, none)) (named : said.abbreviation = some abbreviation) :
    (∃ fault, Multiplier.cut abbreviation = .error fault) ∨
      ∃ again, Token.read abbreviation = (again, none) ∧ again.text = said.text ∧
        again.attributes = said.attributes ∧ again.name = said.name := by
  obtain ⟨t, multiplier, split, marked, name, -, parts, rfl⟩ := read_eq_iff.1 read
  cases named
  cases cut : Multiplier.cut abbreviation with
  | error fault => exact .inl ⟨fault, rfl⟩
  | ok found =>
    obtain ⟨rest, again⟩ := found
    refine .inr ⟨⟨again, some rest, split.map (·.2), marked.map (·.2), some name⟩, ?_, rfl, rfl, rfl⟩
    refine read_eq_iff.2 ⟨rest, again, split, marked, name, cut, ?_, rfl⟩
    rcases Multiplier.cut_cases cut with ⟨-, rfl, -⟩ | ⟨digits, star, -⟩
    · exact parts
    · obtain ⟨after, rfl, ends⟩ := Multiplier.exists_of_splitAtStar? star
      exact parts.of_append (Text.isMute_star ends) List.mem_cons_self

end Shorthand
