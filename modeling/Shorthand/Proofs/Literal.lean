import Shorthand.Proofs.Attribute.Quoted
import Shorthand.Proofs.Grouping
import Shorthand.Proofs.Reading.Ending

/-! # Literal content

The scan looks for the end of an attribute set, of a text and of a group by counting the two delimiters of each, and by
nothing else: quotes do not protect a delimiter. So a quoted value and a text stand in an element as they are written
exactly if they close the delimiters that they open: the value its square brackets, and within a group the value and the
text together their parentheses.

* **`PlainName.element`** — an element with an attribute set and a text, as it is written.
* `PlainName.read_element` — what it says as a token.
* `PlainName.of_readItems_set` — a level that begins with a name and a set is read only if the set is.
* `PlainName.parseRaw_literal` — which elements are read, and as what. -/

namespace Shorthand

namespace Multiplier

/-- A multiplier is cut off behind any character that cannot be part of it. -/
theorem exists_eq_of_cut {c : Char} (notDigit : Text.isDigit c = false) (notFeed : c ≠ '\n') (notStar : c ≠ '*')
    {before rest abbreviation : Text} {multiplier : Multiplier}
    (cut : cut (before ++ c :: rest) = .ok (abbreviation, multiplier)) :
    ∃ rest', abbreviation = before ++ c :: rest' := by
  rcases cut_cases cut with ⟨-, rfl, -⟩ | ⟨digits, found, -⟩
  · exact ⟨rest, rfl⟩
  · rw [splitAtStar?_append_cons notDigit notFeed notStar] at found
    obtain ⟨parts, -, same⟩ := Option.map_eq_some_iff.1 found
    cases same
    exact ⟨parts.1, rfl⟩

end Multiplier

/-- A level that begins as a token and is read without a fault begins with a token without a fault, and what follows the
token ends as read. -/
theorem exists_token_of_readItems {groups steps size : Nat} {c : Char} {rest : Text} (begins : IsPlainStart c)
    (ended : (readItems groups steps size (c :: rest)).fault = none) :
    ∃ source after said, tokenRun size (c :: rest) = .ok (source, after) ∧ Token.read source = (said, none) ∧
      Text.EndsAsRead after := by
  obtain ⟨notGroup, notDescend, notSibling, notClimb⟩ := begins
  obtain _ | steps := steps
  · rw [readItems] at ended
    cases ended
  rw [readItems, if_neg notGroup, if_neg notDescend, if_neg notSibling, if_neg notClimb] at ended
  split at ended
  · cases ended
  · cases ended
  · next source after nonempty run =>
    cases read : Token.read source with
    | mk said fault =>
      simp only [read] at ended
      cases fault with
      | some fault => cases ended
      | none => exact ⟨source, after, said, run, read, readItems_endsAsRead ended⟩

/-- A level that begins with a group and is read without a fault begins with a group whose inside is, and what follows
the group ends as read. -/
theorem exists_group_of_readItems {groups steps size : Nat} {rest : Text}
    (ended : (readItems groups steps size ('(' :: rest)).fault = none) :
    ∃ deeper inside after, Delimiter.round.IsBalanced inside ∧ rest = inside ++ ')' :: after ∧
      (readLevel deeper inside).fault = none ∧ Text.EndsAsRead after := by
  obtain _ | steps := steps
  · rw [readItems] at ended
    cases ended
  rw [readItems, if_pos rfl] at ended
  split at ended
  · cases ended
  · next span after found =>
    obtain ⟨inside, balanced, rfl, rfl⟩ := Delimiter.isBalanced_of_span? (d := .round) found
    cases groups with
    | zero => cases ended
    | succ deeper =>
      dsimp only at ended
      split at ended
      · cases ended
      · next endsInside =>
        split at ended
        · cases ended
        · next multiplier next counted =>
          obtain ⟨taken, rfl, endsTaken⟩ := Multiplier.endsAsRead_of_read counted
          rw [Delimiter.opener, Delimiter.closer, Text.interior_delimited] at endsInside
          exact ⟨deeper, inside, taken ++ next, balanced, rfl, endsInside,
            endsTaken.append_of (readItems_endsAsRead ended)⟩

/-- A token that begins with an attribute set takes the whole of it. -/
theorem exists_span_of_tokenRun {size : Nat} {rest source after : Text}
    (run : tokenRun size ('[' :: rest) = .ok (source, after)) :
    ∃ inside following more, Delimiter.square.IsBalanced inside ∧ rest = inside ++ ']' :: following ∧
      source = '[' :: (inside ++ ']' :: more) ∧ tokenRun size following = .ok (more, after) := by
  cases opened : Delimiter.square.span? ('[' :: rest) with
  | none =>
    rw [tokenRun, if_pos (by decide)] at run
    dsimp only at run
    split at run
    · next found =>
      have := opened.symm.trans found
      cases this
    · cases run
  | some parts =>
    obtain ⟨span, following⟩ := parts
    obtain ⟨inside, balanced, rfl, rfl⟩ := Delimiter.isBalanced_of_span? (d := .square) opened
    rw [tokenRun_span (by decide) opened] at run
    obtain ⟨⟨more, left⟩, later, same⟩ := exists_of_map_eq_ok run
    cases same
    exact ⟨inside, following, more, balanced, rfl, by simp [Delimiter.opener, Delimiter.closer], later⟩

namespace PlainName

variable (x : PlainName) {set text : Text}

/-- An element with an attribute set and a text, as it is written. -/
def element (set text : Text) : Text := x.text ++ '[' :: (set ++ ']' :: '\x7b' :: (text ++ ['\x7d']))

/-! ## Elements that are read -/

/-- An element ends with a brace, so that it has no multiplier. -/
theorem cut_element (set text : Text) : Multiplier.cut (x.element set text) = .ok (x.element set text, .absent) := by
  have parts : x.element set text = (x.text ++ '[' :: (set ++ ']' :: '\x7b' :: text)) ++ '\x7d' :: [] := by
    simp [element]
  refine Multiplier.cut_eq_absent_iff.2 ?_
  rw [parts, Multiplier.splitAtStar?_append_cons (by decide) (by decide) (by decide)]
  rfl

/-- What an element says as a token. -/
theorem read_element (squares : Delimiter.square.IsBalanced set) (braces : Delimiter.curly.IsBalanced text)
    {a : Attribute} {others : List Attribute} (read : Attribute.readSet set = .ok (a :: others)) :
    Token.read (x.element set text) =
      ({ abbreviation := some (x.element set text), text := some text,
         attributes := some (Attribute.merge (a :: others)), name := some x.text }, none) := by
  have split : ∀ size, Token.splitText size (x.element set text) =
      .ok (some (x.text ++ '[' :: (set ++ [']']), text)) := by
    intro size
    rw [element, Token.splitText_append x.splitText_plain, Token.splitText_square (Delimiter.span?_square squares _),
      Token.splitText_curly (Delimiter.span?_curly braces []), Text.interior_delimited]
    simp [Except.map]
  have marked : Token.splitMarks (x.text ++ '[' :: (set ++ [']'])) =
      .ok (some (x.text, Attribute.merge (a :: others))) := by
    have name : (x.text ++ '[' :: (set ++ [']'])).takeWhile (fun c => !Token.isMark c) = x.text := by
      rw [List.takeWhile_append_of_pos fun c inside => by simp [x.isMark_of_mem c inside],
        List.takeWhile_cons_of_neg (by decide), List.append_nil]
    have inside : Attribute.readSet (Text.interior ('[' :: (set ++ [']']))) = .ok (a :: others) := by
      rw [Text.interior_delimited, read]
    rw [Token.splitMarks, Token.marks_append x.isMark_of_mem,
      Token.marks_square (Delimiter.span?_square squares []) inside, Token.marks_nil, name]
    simp [Except.map]
  rw [Token.read, x.cut_element]
  simp [split, marked, x.isElementName]

/-- An element begins with its name and ends with a brace, so there is nothing to be trimmed. -/
theorem trim_element : (x.element set text).trim = x.element set text := by
  have first : ∀ c ∈ (x.element set text).head?, Text.isBlank c = false := x.isBlank_of_head?
  have parts : x.element set text = x.text ++ '[' :: (set ++ ']' :: '\x7b' :: text) ++ '\x7d' :: [] := by
    simp [element]
  rw [parts] at first ⊢
  exact Text.trim_append_cons (by decide) first

/-- An element is one token. -/
theorem isToken_element (squares : Delimiter.square.IsBalanced set) (braces : Delimiter.curly.IsBalanced text) :
    (x.element set text).IsToken := by
  refine Text.isToken_iff_isWhole.2 ⟨x.trim_element, ?_, ?_⟩
  · cases name : x.text with
    | nil => exact absurd name x.ne_nil
    | cons c rest =>
      refine ⟨c, rest ++ '[' :: (set ++ ']' :: '\x7b' :: (text ++ ['\x7d'])), by rw [element, name]; rfl, ?_⟩
      exact isPlainStart_of_isTokenChar (x.isTokenChar_of_mem (by rw [name]; exact List.mem_cons_self))
  · generalize (x.element set text).length = size
    have setRun : tokenRun size ('[' :: (set ++ ']' :: '\x7b' :: (text ++ ['\x7d']))) = _ :=
      tokenRun_span (by decide) (Delimiter.span?_square squares _)
    have textRun : tokenRun size ('\x7b' :: (text ++ ['\x7d'])) = _ :=
      tokenRun_span (by decide) (Delimiter.span?_curly braces [])
    rw [element, tokenRun_append_of_forall fun c => x.isTokenChar_of_mem, setRun, textRun, tokenRun_nil]
    simp [Except.map]

/-! ## Elements that are refused -/

/-- A token that begins with a name and a set has no fault only if the set can be read. -/
theorem exists_readSet_of_read {inside more : Text} {said : Token} (balanced : Delimiter.square.IsBalanced inside)
    (read : Token.read (x.text ++ '[' :: (inside ++ ']' :: more)) = (said, none)) :
    ∃ attributes, Attribute.readSet inside = .ok attributes := by
  obtain ⟨abbreviation, split, marked, cut, found, marks⟩ := Token.exists_parts_of_read read
  have parts : x.text ++ '[' :: (inside ++ ']' :: more) = (x.text ++ '[' :: inside) ++ ']' :: more := by simp
  rw [parts] at cut
  obtain ⟨left, rfl⟩ := Multiplier.exists_eq_of_cut (by decide) (by decide) (by decide) cut
  -- the text, if there is one, stands behind the set
  obtain ⟨left', same⟩ : ∃ left', Token.element ((x.text ++ '[' :: inside) ++ ']' :: left) split =
      x.text ++ '[' :: (inside ++ ']' :: left') := by
    have whole : (x.text ++ '[' :: inside) ++ ']' :: left = x.text ++ '[' :: (inside ++ ']' :: left) := by simp
    rw [whole] at found ⊢
    rw [Token.splitText_append x.splitText_plain,
      Token.splitText_square (Delimiter.span?_square balanced left)] at found
    obtain ⟨_, setFound, rfl⟩ := exists_of_map_eq_ok found
    obtain ⟨behind, -, rfl⟩ := exists_of_map_eq_ok setFound
    cases behind with
    | none => exact ⟨left, rfl⟩
    | some parts => exact ⟨parts.1, by simp [Token.element]⟩
  cases readSet : Attribute.readSet inside with
  | ok attributes => exact ⟨attributes, rfl⟩
  | error fault =>
    have refused : Attribute.readSet (Text.interior ('[' :: (inside ++ [']']))) = .error fault := by
      rw [Text.interior_delimited, readSet]
    rw [same, Token.splitMarks, Token.marks_append x.isMark_of_mem,
      Token.marks_square_of_error (Delimiter.span?_square balanced left') refused] at marks
    cases marks

/-- A level that begins with a name and a set is read without a fault only if the set has an end and can be read, and
what follows the set ends as read. -/
theorem of_readItems_set {groups steps size : Nat} {rest : Text}
    (ended : (readItems groups steps size (x.text ++ '[' :: rest)).fault = none) :
    ∃ inside after, Delimiter.square.IsBalanced inside ∧ rest = inside ++ ']' :: after ∧
      (∃ attributes, Attribute.readSet inside = .ok attributes) ∧ Text.EndsAsRead after := by
  obtain ⟨source, after, said, run, read, later⟩ : ∃ source after said,
      tokenRun size (x.text ++ '[' :: rest) = .ok (source, after) ∧ Token.read source = (said, none) ∧
        Text.EndsAsRead after := by
    cases name : x.text with
    | nil => exact absurd name x.ne_nil
    | cons c name' =>
      rw [name] at ended
      exact exists_token_of_readItems
        (isPlainStart_of_isTokenChar (x.isTokenChar_of_mem (by rw [name]; exact List.mem_cons_self))) ended
  rw [tokenRun_append_of_forall fun c => x.isTokenChar_of_mem] at run
  obtain ⟨⟨source', after'⟩, setRun, same⟩ := exists_of_map_eq_ok run
  cases same
  obtain ⟨inside, following, more, balanced, rfl, rfl, behind⟩ := exists_span_of_tokenRun setRun
  refine ⟨inside, following, balanced, rfl, x.exists_readSet_of_read balanced read, ?_⟩
  rw [← tokenRun_append behind]
  exact (tokenRun_isScanned behind).endsAsRead.append_of later

variable (w : Word) {value : Text}

/-- The element with one attribute, whose value is quoted, and a text. -/
def literal (value text : Text) : Text := x.element (w.opening ++ (value ++ ['"'])) text

theorem trim_literal : (x.literal w value text).trim = x.literal w value text := x.trim_element

/-- The square brackets of a set with one quoted value are those of the value. -/
theorem isBalanced_set_iff :
    Delimiter.square.IsBalanced (w.opening ++ (value ++ ['"'])) ↔ Delimiter.square.IsBalanced value := by
  refine Delimiter.isBalanced_congr ?_
  have opening : w.opening.filter Delimiter.square.isOwn = [] := Delimiter.filter_isOwn_eq_nil fun c inside =>
    ⟨w.ne_of_mem_opening inside (by decide), w.ne_of_mem_opening inside (by decide)⟩
  have quote : ['"'].filter Delimiter.square.isOwn = [] := by decide
  rw [List.filter_append, List.filter_append, opening, quote, List.nil_append, List.append_nil]

/-- The parentheses of an element are those of its value and its text. -/
theorem isBalanced_literal_iff :
    Delimiter.round.IsBalanced (x.literal w value text) ↔ Delimiter.round.IsBalanced (value ++ text) := by
  refine Delimiter.isBalanced_congr ?_
  have name : x.text.filter Delimiter.round.isOwn = [] := Delimiter.filter_isOwn_eq_nil fun c inside =>
    ⟨x.ne_of_mem inside (by decide), x.ne_of_mem inside (by decide)⟩
  have opening : w.opening.filter Delimiter.round.isOwn = [] := Delimiter.filter_isOwn_eq_nil fun c inside =>
    ⟨w.ne_of_mem_opening inside (by decide), w.ne_of_mem_opening inside (by decide)⟩
  simp [literal, element, name, opening, Delimiter.isOwn, Delimiter.opener, Delimiter.closer]

/-- An element is read only if its value closes the square brackets that it opens. -/
theorem isBalanced_value_of_readItems (verbatim : value.IsVerbatim) (braces : Delimiter.curly.IsBalanced text)
    {groups steps size : Nat} (ended : (readItems groups steps size (x.literal w value text)).fault = none) :
    Delimiter.square.IsBalanced value := by
  obtain ⟨inside, after, balanced, same, ⟨attributes, read⟩, endsAfter⟩ := x.of_readItems_set ended
  have notInOpening : ']' ∉ w.opening := fun inside => w.ne_of_mem_opening inside (by decide) rfl
  rcases Text.append_eq_append_cons same with ⟨left, early, -⟩ | ⟨right, rfl, late⟩
  · -- the set ends within the value, so that the value has no closing quote
    obtain ⟨start, rfl, quoted⟩ := Text.eq_append_of_not_mem early notInOpening
    obtain ⟨rest, rfl, -⟩ := Text.eq_append_of_ne_last quoted (by decide)
    have verbatimStart : Text.IsVerbatim start := verbatim.of_subset (List.subset_append_left ..)
    obtain ⟨fault, refused⟩ := w.readSet_open verbatimStart
    rw [refused] at read
    cases read
  · cases right with
    | nil =>
      -- the set ends where its value does
      rw [List.append_nil] at balanced
      exact (isBalanced_set_iff w).1 balanced
    | cons c right =>
      -- the set ends within the text, so that the brace that ends the element opens within the text
      obtain rfl := (List.cons.inj late).1
      have whole : '\x7b' :: text ++ ['\x7d'] = right ++ ']' :: after := (List.cons.inj late).2
      obtain ⟨left, behind, rfl⟩ := Text.eq_append_of_ne_last whole (by decide)
      obtain ⟨before, last, rfl, balancedLast⟩ := Text.EndsAsRead.of_curly endsAfter
      obtain ⟨middle, rfl, inText⟩ := Text.eq_append_of_not_mem (s := ['\x7b']) behind (by decide)
      rw [inText, ← List.cons_append, ← List.append_assoc] at braces
      exact absurd braces (balancedLast.not_isBalanced_append_opener _)

/-- A set in which a value has no end is not read, with or without white space at its end. -/
theorem readLevel_open_ne_none (verbatim : value.IsVerbatim) (groups : Nat) :
    (readLevel groups (x.text ++ '[' :: (w.opening ++ value))).fault ≠ none := by
  have trimmed : Text.trim (x.text ++ '[' :: (w.opening ++ value)) =
      x.text ++ '[' :: (w.opening ++ Text.trimEnd Text.isBlank value) := by
    have first : ∀ c ∈ (x.text ++ '[' :: (w.opening ++ value)).head?, Text.isBlank c = false := x.isBlank_of_head?
    have parts : ∀ t, x.text ++ '[' :: (w.opening ++ t) = (x.text ++ '[' :: (w.text ++ ['='])) ++ '"' :: t :=
      fun t => by simp [Word.opening]
    rw [parts] at first ⊢
    rw [Text.trim_append_cons (by decide) first, ← parts]
  intro ended
  rw [readLevel, trimmed] at ended
  obtain ⟨inside, after, -, same, ⟨attributes, read⟩, -⟩ := x.of_readItems_set ended
  have notInOpening : ']' ∉ w.opening := fun inside => w.ne_of_mem_opening inside (by decide) rfl
  obtain ⟨start, rfl, quoted⟩ := Text.eq_append_of_not_mem same notInOpening
  have verbatimTrimmed := verbatim.of_subset (Text.trimEnd_isPrefix Text.isBlank value).subset
  rw [quoted] at verbatimTrimmed
  have verbatimStart : Text.IsVerbatim start := verbatimTrimmed.of_subset (List.subset_append_left ..)
  obtain ⟨fault, refused⟩ := w.readSet_open verbatimStart
  rw [refused] at read
  cases read

/-- Between parentheses an element is read only if its value closes the square brackets that it opens, and its value and
its text together the parentheses. -/
theorem isBalanced_of_readItems_grouped (verbatim : value.IsVerbatim) (braces : Delimiter.curly.IsBalanced text)
    {groups steps size : Nat}
    (ended : (readItems groups steps size (x.literal w value text).grouped).fault = none) :
    Delimiter.square.IsBalanced value ∧ Delimiter.round.IsBalanced (value ++ text) := by
  obtain ⟨deeper, inside, after, balanced, same, endsInside, endsAfter⟩ := exists_group_of_readItems ended
  rcases Text.append_eq_append_cons same with ⟨left, early, rfl⟩ | ⟨right, rfl, late⟩
  · -- the group ends within the element, and that is within the value or within the text
    have outside : ')' ∉ x.text ++ '[' :: w.opening := by
      intro inside
      rcases List.mem_append.1 inside with inName | inSet
      · exact x.ne_of_mem inName (by decide) rfl
      · rcases List.mem_cons.1 inSet with bracket | inOpening
        · cases bracket
        · exact w.ne_of_mem_opening inOpening (by decide) rfl
    have parts : x.literal w value text =
        x.text ++ '[' :: w.opening ++ (value ++ '"' :: ']' :: '\x7b' :: (text ++ ['\x7d'])) := by
      simp [literal, element]
    rw [parts] at early
    obtain ⟨start, rfl, found⟩ := Text.eq_append_of_not_mem early outside
    rcases Text.append_eq_append_cons found with ⟨more, rfl, -⟩ | ⟨behind, rfl, rest⟩
    · have verbatimStart : Text.IsVerbatim start := verbatim.of_subset (List.subset_append_left ..)
      rw [List.append_assoc, List.cons_append] at endsInside
      exact absurd endsInside (x.readLevel_open_ne_none w verbatimStart deeper)
    · obtain ⟨middle, -, inText⟩ := Text.eq_append_of_not_mem (s := ['"', ']', '\x7b']) rest (by decide)
      obtain ⟨tail, rfl, rfl⟩ := Text.eq_append_of_ne_last inText (by decide)
      obtain ⟨before, last, rfl, balancedLast⟩ := Text.EndsAsRead.of_round_of_curly endsAfter
      rw [← List.cons_append, ← List.append_assoc] at braces
      exact absurd braces (balancedLast.not_isBalanced_append_opener _)
  · -- the group ends behind the element
    cases right with
    | cons c right => simp at late
    | nil =>
      rw [List.append_nil] at balanced endsInside
      rw [readLevel, trim_literal] at endsInside
      exact ⟨x.isBalanced_value_of_readItems w verbatim braces endsInside,
        (x.isBalanced_literal_iff w).1 balanced⟩

/-! ## What literal content means -/

/-- The content of the node of an element. -/
def literalContent (value text : Text) : Content :=
  { abbreviation := x.literal w value text, elementName := some x.text, text,
    attributes := [⟨w.text, value⟩] }

/-- The reading of an element whose value closes the square brackets that it opens. -/
theorem readAbbreviation_literal (verbatim : value.IsVerbatim) (squares : Delimiter.square.IsBalanced value)
    (braces : Delimiter.curly.IsBalanced text) :
    ∃ said, (x.literal w value text).IsToken ∧
      readAbbreviation (x.literal w value text) = ⟨[.token (x.literal w value text) 0 said], none⟩ ∧
      ({} : Content).assign said = x.literalContent w value text := by
  have setSquares := (isBalanced_set_iff w).2 squares
  have isToken := x.isToken_element setSquares braces
  have read := x.read_element setSquares braces (w.readSet_assign verbatim)
  refine ⟨_, isToken, by rw [literal, isToken.readAbbreviation, read], ?_⟩
  have merged : Attribute.merge [⟨w.text, value⟩] = [⟨w.text, value⟩] := rfl
  simp [Content.assign, literalContent, merged, x.ne_nil, literal]

/-- The reading of the element between parentheses, if the parentheses are closed. -/
theorem readAbbreviation_grouped_literal (verbatim : value.IsVerbatim) (squares : Delimiter.square.IsBalanced value)
    (braces : Delimiter.curly.IsBalanced text) (rounds : Delimiter.round.IsBalanced (value ++ text)) :
    readAbbreviation (x.literal w value text).grouped =
      ⟨[.group (readAbbreviation (x.literal w value text)).items .absent], none⟩ := by
  obtain ⟨said, isToken, reading, -⟩ := x.readAbbreviation_literal w verbatim squares braces
  have groupable := isToken.isGroupable ((x.isBalanced_literal_iff w).2 rounds)
  have grouped : readItems groupLimit (998 + 1) (x.literal w value text).grouped.length
      (x.literal w value text).grouped = _ := readItems_grouped groupable
  rw [readAbbreviation_of_trimmed (Text.trim_grouped _), grouped, reading]

/-- A quoted value and a text may stand in an element as they are written exactly if the value closes the square brackets
that it opens; then the element is one node with this name, this value and this text. Between parentheses the value and
the text together must close the parentheses that they open, too, and the node stands in the group. -/
theorem parseRaw_literal (verbatim : value.IsVerbatim) (braces : Delimiter.curly.IsBalanced text) (root : Node) :
    (parseRaw (x.literal w value text) = .ok root ↔
      Delimiter.square.IsBalanced value ∧ root = .mk {} [.mk (x.literalContent w value text) []]) ∧
    (parseRaw (x.literal w value text).grouped = .ok root ↔
      Delimiter.square.IsBalanced value ∧ Delimiter.round.IsBalanced (value ++ text) ∧
        root = .mk {} [.mk {} [.mk (x.literalContent w value text) []]]) := by
  have alone : (readAbbreviation (x.literal w value text)).fault = none ↔ Delimiter.square.IsBalanced value := by
    constructor
    · intro ended
      rw [readAbbreviation_of_trimmed (x.trim_literal w)] at ended
      exact x.isBalanced_value_of_readItems w verbatim braces ended
    · intro squares
      obtain ⟨said, -, reading, -⟩ := x.readAbbreviation_literal w verbatim squares braces
      rw [reading]
  have grouped : (readAbbreviation (x.literal w value text).grouped).fault = none ↔
      Delimiter.square.IsBalanced value ∧ Delimiter.round.IsBalanced (value ++ text) := by
    constructor
    · intro ended
      rw [readAbbreviation_of_trimmed (Text.trim_grouped _)] at ended
      exact x.isBalanced_of_readItems_grouped w verbatim braces ended
    · rintro ⟨squares, rounds⟩
      rw [x.readAbbreviation_grouped_literal w verbatim squares braces rounds]
  rw [parseRaw_eq_ok_iff, parseRaw_eq_ok_iff, alone, grouped, and_assoc]
  refine ⟨and_congr_right fun squares => ?_, and_congr_right fun squares => and_congr_right fun rounds => ?_⟩
  · obtain ⟨said, -, reading, content⟩ := x.readAbbreviation_literal w verbatim squares braces
    rw [reading, Reading.tree, Item.build_token, content]
  · obtain ⟨said, -, reading, content⟩ := x.readAbbreviation_literal w verbatim squares braces
    rw [x.readAbbreviation_grouped_literal w verbatim squares braces rounds, Reading.tree, Item.build_group, reading,
      Item.build_token, content, Content.repeatBy_absent]

/-- A value with a closed bracket and an open parenthesis, and a text that closes the parenthesis. -/
theorem parseRaw_literal_link :
    Text.IsVerbatim "[x](".toList ∧ Delimiter.curly.IsBalanced ")y".toList ∧
      parseRaw "p[t=\"[x](\"]\x7b)y\x7d".toList =
        .ok (.mk {} [.mk
          { abbreviation := "p[t=\"[x](\"]\x7b)y\x7d".toList, elementName := some "p".toList,
            text := ")y".toList, attributes := [⟨"t".toList, "[x](".toList⟩] } []]) ∧
      parseRaw "(p[t=\"[x](\"]\x7b)y\x7d)".toList =
        .ok (.mk {} [.mk {} [.mk
          { abbreviation := "p[t=\"[x](\"]\x7b)y\x7d".toList, elementName := some "p".toList,
            text := ")y".toList, attributes := [⟨"t".toList, "[x](".toList⟩] } []]]) := by
  let name : PlainName := .ofAll "p".toList (by decide) (by decide)
  let word : Word := ⟨"t".toList, by decide, List.all_eq_true.1 (by decide)⟩
  have verbatim : Text.IsVerbatim "[x](".toList := by simp [Text.IsVerbatim]
  have braces : Delimiter.curly.IsBalanced ")y".toList := by cbv
  have squares : Delimiter.square.IsBalanced "[x](".toList := by cbv
  have rounds : Delimiter.round.IsBalanced ("[x](".toList ++ ")y".toList) := by cbv
  refine ⟨verbatim, braces, ?_, ?_⟩
  · exact (name.parseRaw_literal word verbatim braces _).1.2 ⟨squares, rfl⟩
  · exact (name.parseRaw_literal word verbatim braces _).2.2 ⟨squares, rounds, rfl⟩

/-- A quoted closing bracket ends the set, and a quoted closing parenthesis ends the group. -/
theorem parseRaw_literal_closers :
    Text.IsVerbatim "]".toList ∧ Text.IsVerbatim ")".toList ∧ Delimiter.curly.IsBalanced "x".toList ∧
      parseRaw "p[t=\"]\"]\x7bx\x7d".toList = .error (.abbreviation (.badValue "t".toList 2)) ∧
      parseRaw "(p[t=\")\"]\x7bx\x7d)".toList = .error (.abbreviation (.unclosed .square 1)) := by
  refine ⟨by simp [Text.IsVerbatim], by simp [Text.IsVerbatim], by cbv, by cbv, by cbv⟩

end PlainName

end Shorthand
