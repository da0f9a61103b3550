import Shorthand.Attribute.Basic
import Shorthand.Alphabet
import Shorthand.Fault

/-! # Attribute sets

The inside of an attribute set such as `[col=3 title="Quoted text" checked]`. An attribute is a word, and
with an equals sign a value: text between two single or two double quotes, in which a backslash escapes the
quote, or a bare value, whose first character may be any that is neither a quote nor blank and whose others
are word characters. Gaps separate the attributes. Reading stops at the first place where no word
stands. -/

namespace Shorthand

/-- The text up to the closing quote, and what follows the quote. A backslash protects the character after
it. -/
def quotedBody? (isQuote : Char → Bool) : Text → Option (Text × Text)
  | [] => none
  | [c] => if isQuote c then some ([], []) else none
  | c :: d :: rest =>
    if isQuote c then some ([], d :: rest)
    else if c = '\\' then
      (quotedBody? isQuote rest).map fun found => (c :: d :: found.1, found.2)
    else (quotedBody? isQuote (d :: rest)).map fun found => (c :: found.1, found.2)

/-- The text with every escaped quote replaced by the quote. -/
def unescapeQuote (quote : Char) : Text → Text
  | [] => []
  | [c] => [c]
  | c :: d :: rest =>
    if c = '\\' && d = quote then quote :: unescapeQuote quote rest
    else c :: unescapeQuote quote (d :: rest)

/-- What follows a quoted text is shorter than the text. -/
theorem quotedBody?_length_lt {isQuote : Char → Bool} {t body rest : Text}
    (h : quotedBody? isQuote t = some (body, rest)) : rest.length < t.length := by
  fun_induction quotedBody? isQuote t generalizing body rest with
  | case1 => simp at h
  | case2 c quote => cases h; simp
  | case3 => simp at h
  | case4 c d tail quote => cases h; simp
  | case5 d tail plain ih =>
    obtain ⟨⟨b, r⟩, found, same⟩ := Option.map_eq_some_iff.1 h
    cases same
    have := ih found
    simp only [List.length_cons]; omega
  | case6 c d tail plain other ih =>
    obtain ⟨⟨b, r⟩, found, same⟩ := Option.map_eq_some_iff.1 h
    cases same
    have := ih found
    simp only [List.length_cons] at this ⊢; omega

namespace Attribute

/-- Read the value at the beginning of a text, and give what follows it. -/
def readValue? : Text → Option (Text × Text)
  | [] => none
  | c :: rest =>
    if c = '"' || c = '\'' then
      (quotedBody? (· == c) rest).map fun found => (unescapeQuote c found.1, found.2)
    else if Text.isBlank c then none
    else some (c :: rest.takeWhile isWordChar, rest.dropWhile isWordChar)

/-- What follows a value is no longer than the text. -/
theorem readValue?_length_le {t value rest : Text} (h : readValue? t = some (value, rest)) :
    rest.length ≤ t.length := by
  cases t with
  | nil => simp [readValue?] at h
  | cons c t =>
    rw [readValue?] at h
    split at h
    · obtain ⟨⟨b, r⟩, found, same⟩ := Option.map_eq_some_iff.1 h
      cases same
      have := quotedBody?_length_lt found
      simp only [List.length_cons]; omega
    · split at h
      · simp at h
      · cases h
        have := (List.dropWhile_sublist (l := t) isWordChar).length_le
        simp only [List.length_cons]; omega

/-- Read one attribute at the beginning of a text that ends a set of `size` characters, and give what follows
it and the gaps after it. Nothing is read where no word stands. -/
def readOne (size : Nat) (t : Text) : Except AbbreviationFault (Option (Attribute × Text)) :=
  let name := t.takeWhile isWordChar
  if name = [] then .ok none
  else
    match t.dropWhile isWordChar with
    | '=' :: rest =>
      match readValue? rest with
      | none => .error (.badValue name (size - rest.length))
      | some (value, rest') => .ok (some (⟨name, value⟩, rest'.dropWhile Text.isGap))
    | rest => .ok (some (⟨name, []⟩, rest.dropWhile Text.isGap))

/-- Reading an attribute uses up at least one character. -/
theorem readOne_length_lt {size : Nat} {t rest : Text} {a : Attribute}
    (h : readOne size t = .ok (some (a, rest))) : rest.length < t.length := by
  have whole := congrArg List.length (List.takeWhile_append_dropWhile (p := isWordChar) (l := t))
  rw [List.length_append] at whole
  rw [readOne] at h
  split at h
  · cases h
  · next word =>
    have some := List.length_pos_iff.2 word
    split at h
    · next rest' after =>
      rw [after, List.length_cons] at whole
      split at h
      · cases h
      · next value rest'' read =>
        cases h
        have gaps := (List.dropWhile_sublist (l := rest'') Text.isGap).length_le
        have value := readValue?_length_le read
        omega
    · cases h
      have gaps := (List.dropWhile_sublist (l := t.dropWhile isWordChar) Text.isGap).length_le
      omega

/-- Read the attributes at the beginning of a text that ends a set of `size` characters. -/
def readAll (size : Nat) (t : Text) : Except AbbreviationFault (List Attribute) :=
  match _ : readOne size t with
  | .error fault => .error fault
  | .ok none => .ok []
  | .ok (some (a, rest)) => (readAll size rest).map (a :: ·)
termination_by t.length
decreasing_by exact readOne_length_lt (by assumption)

/-- Read the inside of an attribute set. White space at its ends is left aside; positions are counted in
what is left. -/
def readSet (inside : Text) : Except AbbreviationFault (List Attribute) :=
  let t := inside.trim
  readAll t.length (t.dropWhile Text.isGap)

end Attribute

end Shorthand
