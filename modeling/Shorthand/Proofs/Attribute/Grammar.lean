import Shorthand.Proofs.Attribute.Quoted

/-! # The grammar of attribute sets

A set is a sequence of attributes with gaps between them. An attribute is a word, alone or with an equals sign and a value,
and a value is quoted or bare. A word and a bare value go on as far as they can. Reading a set follows this grammar up to
the first character that begins no attribute, and what stands from there on is passed over without a fault; only an equals
sign without a value is refused.

* **`IsQuotedBody`**, **`Attribute.IsValue`**, **`Attribute.IsWritten`** — what stands between two quotes, values and
  attributes, as they are written.
* **`Attribute.AreWritten`** — a text is a sequence of attributes.
* `Attribute.readAll_eq_ok_iff`, `Attribute.readAll_eq_error_iff` — what is read and what is refused.
* `Attribute.readSet_iff` — the same for the inside of a set. -/

namespace Shorthand

/-! ## Quoted texts -/

/-- What may stand between two quotes: a backslash stands before a character that it protects, and the quote stands only
where it is protected. -/
inductive IsQuotedBody (quote : Char) : Text → Prop
  | nil : IsQuotedBody quote []
  | char {c t} (noQuote : c ≠ quote) (noBackslash : c ≠ '\\') (later : IsQuotedBody quote t) :
    IsQuotedBody quote (c :: t)
  | guarded (c : Char) {t} (later : IsQuotedBody quote t) : IsQuotedBody quote ('\\' :: c :: t)

section Quotes

variable {quote : Char} {t body rest : Text}

/-- A quote is no backslash. -/
theorem ne_backslash_of_isQuote (isQuote : quote = '"' ∨ quote = '\'') : quote ≠ '\\' := by
  rintro rfl
  revert isQuote
  decide

/-- A character behind a backslash is quoted, whatever it is. -/
theorem quotedBody?_guarded (noBackslash : quote ≠ '\\') (c : Char) (t : Text) :
    quotedBody? (· == quote) ('\\' :: c :: t) =
      (quotedBody? (· == quote) t).map fun found => ('\\' :: c :: found.1, found.2) := by
  rw [quotedBody?, if_neg (by simpa using noBackslash.symm), if_pos rfl]

/-- What is quoted reaches to the first quote that is not protected. -/
theorem quotedBody?_eq_some_iff (noBackslash : quote ≠ '\\') :
    quotedBody? (· == quote) t = some (body, rest) ↔ t = body ++ quote :: rest ∧ IsQuotedBody quote body := by
  constructor
  · intro found
    fun_induction quotedBody? (· == quote) t generalizing body with
    | case1 => cases found
    | case2 c closes =>
      cases found
      exact ⟨by rw [beq_iff_eq.1 closes]; rfl, .nil⟩
    | case3 => cases found
    | case4 c d rest' closes =>
      cases found
      exact ⟨by rw [beq_iff_eq.1 closes]; rfl, .nil⟩
    | case5 d rest' _ ih =>
      obtain ⟨⟨body', left⟩, later, same⟩ := Option.map_eq_some_iff.1 found
      cases same
      obtain ⟨rfl, isBody⟩ := ih later
      exact ⟨rfl, .guarded d isBody⟩
    | case6 c d rest' noQuote noBackslash ih =>
      obtain ⟨⟨body', left⟩, later, same⟩ := Option.map_eq_some_iff.1 found
      cases same
      obtain ⟨whole, isBody⟩ := ih later
      exact ⟨by rw [whole]; rfl, .char (by simpa using noQuote) noBackslash isBody⟩
  · rintro ⟨rfl, isBody⟩
    induction isBody with
    | nil => exact quotedBody?_quote quote rest
    | char noQuote noBackslash later ih =>
      rw [List.cons_append, quotedBody?_cons noQuote noBackslash, ih]
      rfl
    | guarded c later ih =>
      rw [List.cons_append, List.cons_append, quotedBody?_guarded noBackslash, ih]
      rfl

end Quotes

namespace Attribute

/-! ## Values and attributes -/

/-- A value as it is written before the given text: between two quotes of one kind, or bare as a character that is neither
a quote nor white space and all word characters after it. -/
inductive IsValue : Text → Text → Text → Prop
  | quoted {quote body after} (isQuote : quote = '"' ∨ quote = '\'') (isBody : IsQuotedBody quote body) :
    IsValue (unescapeQuote quote body) (quote :: (body ++ [quote])) after
  | bare {c word after} (noQuote : c ≠ '"' ∧ c ≠ '\'') (noBlank : Text.isBlank c = false)
    (isWord : ∀ e ∈ word, isWordChar e = true) (ends : ∀ e ∈ after.head?, isWordChar e = false) :
    IsValue (c :: word) (c :: word) after

/-- An attribute as it is written before the given text: its name alone, or its name, an equals sign and its value. -/
inductive IsWritten : Attribute → Text → Text → Prop
  | alone (name : Word) {after} (ends : ∀ c ∈ after.head?, isWordChar c = false ∧ c ≠ '=') :
    IsWritten ⟨name.text, []⟩ name.text after
  | assigned (name : Word) {value written after} (isValue : IsValue value written after) :
    IsWritten ⟨name.text, value⟩ (name.text ++ '=' :: written) after

variable {size : Nat} {t rest value written : Text} {a : Attribute} {attributes : List Attribute}

/-- A value is read exactly if one is written. -/
theorem readValue?_eq_some_iff :
    readValue? t = some (value, rest) ↔ ∃ written, t = written ++ rest ∧ IsValue value written rest := by
  constructor
  · intro read
    cases t with
    | nil => cases read
    | cons c t =>
      rw [readValue?] at read
      split at read
      · next isQuote =>
        simp only [Bool.or_eq_true, decide_eq_true_eq] at isQuote
        obtain ⟨⟨body, left⟩, found, same⟩ := Option.map_eq_some_iff.1 read
        cases same
        obtain ⟨rfl, isBody⟩ := (quotedBody?_eq_some_iff (ne_backslash_of_isQuote isQuote)).1 found
        exact ⟨c :: (body ++ [c]), by simp, .quoted isQuote isBody⟩
      · next noQuote =>
        simp only [Bool.or_eq_true, decide_eq_true_eq, not_or] at noQuote
        split at read
        · cases read
        · next noBlank =>
          obtain ⟨rfl, rfl⟩ := Prod.mk.inj (Option.some.inj read)
          obtain ⟨whole, isWord, ends⟩ := Text.takeWhile_dropWhile_iff.1 ⟨rfl, rfl⟩
          exact ⟨_, congrArg (c :: ·) whole, .bare noQuote (by simpa using noBlank) isWord ends⟩
  · rintro ⟨written, rfl, isValue⟩
    cases isValue with
    | @quoted quote body _ isQuote isBody =>
      have whole : quote :: (body ++ [quote]) ++ rest = quote :: (body ++ quote :: rest) := by simp
      rw [whole, readValue?, if_pos (by simpa using isQuote),
        (quotedBody?_eq_some_iff (ne_backslash_of_isQuote isQuote)).2 ⟨rfl, isBody⟩]
      rfl
    | @bare c word _ noQuote noBlank isWord ends =>
      obtain ⟨taken, left⟩ := Text.takeWhile_dropWhile_iff.2 ⟨rfl, isWord, ends⟩
      rw [List.cons_append, readValue?, if_neg (by simpa using noQuote), if_neg (by simp [noBlank]), taken, left]

/-! ## One attribute -/

/-- A text begins with no word, or with a word that ends where a text begins that is a value's or none. -/
theorem exists_word_or (t : Text) :
    (∀ c ∈ t.head?, isWordChar c = false) ∨
      (∃ (name : Word) (rest : Text), t = name.text ++ rest ∧ ∀ c ∈ rest.head?, isWordChar c = false ∧ c ≠ '=') ∨
      ∃ (name : Word) (after : Text), t = name.text ++ '=' :: after := by
  obtain ⟨whole, isWord, ends⟩ := Text.takeWhile_dropWhile isWordChar t
  by_cases none : t.takeWhile isWordChar = []
  · rw [none, List.nil_append] at whole
    exact .inl (whole ▸ ends)
  · refine .inr ?_
    generalize t.dropWhile isWordChar = rest at whole ends
    by_cases sign : rest.head? = some '='
    · obtain ⟨after, rfl⟩ := List.head?_eq_some_iff.1 sign
      exact .inr ⟨⟨_, none, isWord⟩, after, whole⟩
    · exact .inl ⟨⟨_, none, isWord⟩, rest, whole, fun c first => ⟨ends c first, fun same => sign (same ▸ first)⟩⟩

/-- Where no word stands nothing is read. -/
theorem readOne_of_noWord (noWord : ∀ c ∈ t.head?, isWordChar c = false) : readOne size t = .ok none := by
  obtain ⟨taken, -⟩ := Text.takeWhile_dropWhile_iff.2 ⟨t.nil_append.symm, by simp, noWord⟩
  rw [readOne, if_pos taken]

/-- A name alone is read with an empty value. -/
theorem readOne_alone (size : Nat) (name : Word) (ends : ∀ c ∈ rest.head?, isWordChar c = false ∧ c ≠ '=') :
    readOne size (name.text ++ rest) = .ok (some (⟨name.text, []⟩, rest.dropWhile Text.isGap)) := by
  obtain ⟨taken, left⟩ := Text.takeWhile_dropWhile_iff.2 ⟨rfl, name.isWordChar_of_mem, fun c first => (ends c first).1⟩
  rw [readOne, taken, if_neg name.ne_nil]
  simp only [left]
  split
  · next after _ => exact absurd rfl (ends '=' rfl).2
  · rfl

/-- An attribute is read exactly if one is written, and the gaps after it are passed over. -/
theorem readOne_eq_some_iff :
    readOne size t = .ok (some (a, rest)) ↔
      ∃ written gaps, t = written ++ (gaps ++ rest) ∧ IsWritten a written (gaps ++ rest) ∧
        (∀ c ∈ gaps, Text.isGap c = true) ∧ ∀ c ∈ rest.head?, Text.isGap c = false := by
  constructor
  · intro read
    rcases exists_word_or t with noWord | ⟨name, left, rfl, ends⟩ | ⟨name, after, rfl⟩
    · rw [readOne_of_noWord noWord] at read
      cases read
    · rw [readOne_alone size name ends] at read
      cases read
      obtain ⟨whole, areGaps, noGap⟩ := Text.takeWhile_dropWhile Text.isGap left
      exact ⟨name.text, _, congrArg _ whole, .alone name (whole ▸ ends), areGaps, noGap⟩
    · rw [readOne_assigned] at read
      split at read
      · cases read
      · next value left found =>
        cases read
        obtain ⟨written, rfl, isValue⟩ := readValue?_eq_some_iff.1 found
        obtain ⟨whole, areGaps, noGap⟩ := Text.takeWhile_dropWhile Text.isGap left
        exact ⟨name.text ++ '=' :: written, _, by simp [← whole], .assigned name (whole ▸ isValue), areGaps, noGap⟩
  · rintro ⟨written, gaps, rfl, isWritten, areGaps, noGap⟩
    obtain ⟨-, left⟩ := Text.takeWhile_dropWhile_iff.2 ⟨rfl, areGaps, noGap⟩
    cases isWritten with
    | alone name ends => rw [readOne_alone size name ends, left]
    | @assigned name value written _ isValue =>
      have found := readValue?_eq_some_iff.2 ⟨written, rfl, isValue⟩
      rw [List.append_assoc, List.cons_append, readOne_assigned, found]
      simp only [left]

/-- Nothing is read exactly where no word stands. -/
theorem readOne_eq_none_iff : readOne size t = .ok none ↔ ∀ c ∈ t.head?, isWordChar c = false := by
  refine ⟨fun read => ?_, readOne_of_noWord⟩
  rcases exists_word_or t with noWord | ⟨name, left, rfl, ends⟩ | ⟨name, after, rfl⟩
  · exact noWord
  · rw [readOne_alone size name ends] at read
    cases read
  · rw [readOne_assigned] at read
    split at read <;> cases read

/-- An attribute is refused exactly if an equals sign stands after its name and no value after the sign. -/
theorem readOne_eq_error_iff {fault : AbbreviationFault} :
    readOne size t = .error fault ↔
      ∃ (name : Word) (after : Text), t = name.text ++ '=' :: after ∧
        (∀ value written rest, after = written ++ rest → ¬ IsValue value written rest) ∧
        fault = .badValue name.text (size - after.length) := by
  constructor
  · intro refused
    rcases exists_word_or t with noWord | ⟨name, left, rfl, ends⟩ | ⟨name, after, rfl⟩
    · rw [readOne_of_noWord noWord] at refused
      cases refused
    · rw [readOne_alone size name ends] at refused
      cases refused
    · rw [readOne_assigned] at refused
      split at refused
      · next none =>
        cases refused
        refine ⟨name, after, rfl, fun value written rest whole isValue => ?_, rfl⟩
        rw [readValue?_eq_some_iff.2 ⟨written, whole, isValue⟩] at none
        cases none
      · cases refused
  · rintro ⟨name, after, rfl, noValue, rfl⟩
    rw [readOne_assigned]
    split
    · rfl
    · next value left found =>
      obtain ⟨written, whole, isValue⟩ := readValue?_eq_some_iff.1 found
      exact absurd isValue (noValue value written left whole)

/-! ## All attributes -/

/-- Attributes as they are written before the given text, with gaps between them and after the last one. -/
inductive AreWritten : List Attribute → Text → Text → Prop
  | nil {after} (noGap : ∀ c ∈ after.head?, Text.isGap c = false) : AreWritten [] [] after
  | cons {a attributes written gaps t after} (first : IsWritten a written (gaps ++ (t ++ after)))
    (areGaps : ∀ c ∈ gaps, Text.isGap c = true) (others : AreWritten attributes t after) :
    AreWritten (a :: attributes) (written ++ (gaps ++ t)) after

/-- An attribute begins with a word character. -/
theorem IsWritten.isWordChar_of_head? {after : Text} (isWritten : IsWritten a written after) {c : Char}
    (first : c ∈ (written ++ rest).head?) : isWordChar c = true := by
  cases isWritten with
  | alone name ends => exact name.isWordChar_of_head? first
  | assigned name isValue =>
    rw [List.append_assoc] at first
    exact name.isWordChar_of_head? first

/-- No gap stands before the attributes, or where there are none. -/
theorem AreWritten.isGap_of_head? (areWritten : AreWritten attributes t rest) :
    ∀ c ∈ (t ++ rest).head?, Text.isGap c = false := by
  cases areWritten with
  | nil noGap => exact noGap
  | cons first areGaps others =>
    intro c begins
    rw [List.append_assoc] at begins
    exact Text.isGap_of_isBlank_eq_false (isBlank_of_isWordChar (first.isWordChar_of_head? begins))

/-- No gap stands after the attributes. -/
theorem AreWritten.isGap_of_head?_after (areWritten : AreWritten attributes t rest) :
    ∀ c ∈ rest.head?, Text.isGap c = false := by
  induction areWritten with
  | nil noGap => exact noGap
  | cons first areGaps others ih => exact ih

/-- An attribute that is written first is read first. -/
theorem readAll_of_isWritten {gaps : Text} (first : IsWritten a written (gaps ++ rest))
    (areGaps : ∀ c ∈ gaps, Text.isGap c = true) (noGap : ∀ c ∈ rest.head?, Text.isGap c = false) :
    readAll size (written ++ (gaps ++ rest)) = (readAll size rest).map (a :: ·) :=
  readAll_of_readOne (readOne_eq_some_iff.2 ⟨written, gaps, rfl, first, areGaps, noGap⟩)

/-- The attributes that are read are those that are written, up to where no word stands. -/
theorem readAll_eq_ok_iff :
    readAll size t = .ok attributes ∧ (∀ c ∈ t.head?, Text.isGap c = false) ↔
      ∃ before rest, t = before ++ rest ∧ AreWritten attributes before rest ∧
        ∀ c ∈ rest.head?, isWordChar c = false := by
  constructor
  · rintro ⟨read, noGap⟩
    fun_induction readAll size t generalizing attributes with
    | case1 => cases read
    | case2 t stops =>
      cases read
      exact ⟨[], t, rfl, .nil noGap, readOne_eq_none_iff.1 stops⟩
    | case3 t a rest found ih =>
      obtain ⟨others, later, rfl⟩ := exists_of_map_eq_ok read
      obtain ⟨written, gaps, rfl, isWritten, areGaps, noGap'⟩ := readOne_eq_some_iff.1 found
      obtain ⟨before, after, rfl, areWritten, noWord⟩ := ih later noGap'
      exact ⟨written ++ (gaps ++ before), after, by simp, .cons isWritten areGaps areWritten, noWord⟩
  · rintro ⟨before, rest, rfl, areWritten, noWord⟩
    refine ⟨?_, areWritten.isGap_of_head?⟩
    induction areWritten with
    | nil => exact readAll_of_readOne_none (readOne_of_noWord noWord)
    | cons first areGaps others ih =>
      rw [List.append_assoc, List.append_assoc, readAll_of_isWritten first areGaps others.isGap_of_head?, ih noWord]
      rfl

/-- What is read first where attributes are written. -/
theorem AreWritten.readOne {gaps after : Text} (others : AreWritten attributes rest after) (size : Nat)
    (first : IsWritten a written (gaps ++ (rest ++ after))) (areGaps : ∀ c ∈ gaps, Text.isGap c = true)
    (whole : t = written ++ (gaps ++ rest) ++ after) : readOne size t = .ok (some (a, rest ++ after)) :=
  readOne_eq_some_iff.2 ⟨written, gaps, by simp [whole], first, areGaps, others.isGap_of_head?⟩

/-- Attributes that go on until no word stands are written in one way. -/
theorem AreWritten.unique {attributes' : List Attribute} {t' rest' : Text} (first : AreWritten attributes t rest)
    (second : AreWritten attributes' t' rest') (same : t ++ rest = t' ++ rest')
    (stops : ∀ c ∈ rest.head?, isWordChar c = false) (stops' : ∀ c ∈ rest'.head?, isWordChar c = false) :
    attributes = attributes' ∧ rest = rest' := by
  -- reading is a function, so that both begin with the same attribute or with none
  induction first generalizing attributes' t' with
  | nil =>
    cases second with
    | nil => exact ⟨rfl, same⟩
    | cons first' areGaps' others' =>
      have read := others'.readOne 0 first' areGaps' same
      cases (readOne_of_noWord stops).symm.trans read
  | cons first areGaps others ih =>
    have read := others.readOne 0 first areGaps rfl
    cases second with
    | nil => cases (readOne_of_noWord stops').symm.trans (same ▸ read)
    | cons first' areGaps' others' =>
      have read' := others'.readOne 0 first' areGaps' same
      obtain ⟨rfl, left⟩ := Prod.mk.inj (Option.some.inj (Except.ok.inj (read.symm.trans read')))
      obtain ⟨rfl, later⟩ := ih others' left stops
      exact ⟨rfl, later⟩

/-- The attributes are refused exactly if behind some of them stands one whose value is missing. -/
theorem readAll_eq_error_iff {fault : AbbreviationFault} :
    readAll size t = .error fault ∧ (∀ c ∈ t.head?, Text.isGap c = false) ↔
      ∃ attributes before name after, t = before ++ (Word.text name ++ '=' :: after) ∧
        AreWritten attributes before (name.text ++ '=' :: after) ∧
        (∀ value written rest, after = written ++ rest → ¬ IsValue value written rest) ∧
        fault = .badValue name.text (size - after.length) := by
  constructor
  · rintro ⟨refused, noGap⟩
    fun_induction readAll size t with
    | case1 t fault' found =>
      cases refused
      obtain ⟨name, after, rfl, noValue, rfl⟩ := readOne_eq_error_iff.1 found
      exact ⟨[], [], name, after, rfl, .nil noGap, noValue, rfl⟩
    | case2 => cases refused
    | case3 t a rest found ih =>
      obtain ⟨written, gaps, rfl, isWritten, areGaps, noGap'⟩ := readOne_eq_some_iff.1 found
      obtain ⟨attributes, before, name, after, rfl, areWritten, noValue, rfl⟩ := ih (eq_error_of_map refused) noGap'
      exact ⟨a :: attributes, written ++ (gaps ++ before), name, after, by simp, .cons isWritten areGaps areWritten,
        noValue, rfl⟩
  · rintro ⟨attributes, before, name, after, rfl, areWritten, noValue, rfl⟩
    refine ⟨?_, areWritten.isGap_of_head?⟩
    generalize left : name.text ++ '=' :: after = rest at areWritten
    induction areWritten with
    | nil => exact readAll_of_readOne_error (readOne_eq_error_iff.2 ⟨name, after, left.symm, noValue, rfl⟩)
    | cons first areGaps others ih =>
      rw [List.append_assoc, List.append_assoc, readAll_of_isWritten first areGaps others.isGap_of_head?, ih left]
      rfl

end Attribute

open Attribute in
/-- The inside of a set is read as the attributes that are written at the beginning of what is left when it is trimmed, up
to a character that is neither a word character nor a gap, and what stands from there on is passed over; so nothing is
passed over exactly if all of it is a sequence of attributes. It is refused exactly if behind some attributes a name and an
equals sign stand without a value, and then the fault has the name and the place of the missing value. -/
theorem readSet_iff (inside : Text) :
    (∀ attributes, readSet inside = .ok attributes ↔
      ∃ before rest, inside.trim = before ++ rest ∧ AreWritten attributes before rest ∧
        (∀ c ∈ rest.head?, isWordChar c = false ∧ Text.isGap c = false) ∧
        (rest = [] ↔ ∃ all, AreWritten all inside.trim [])) ∧
    ∀ fault, readSet inside = .error fault ↔
      ∃ attributes before name after, inside.trim = before ++ (Word.text name ++ '=' :: after) ∧
        AreWritten attributes before (name.text ++ '=' :: after) ∧
        (∀ value written rest, after = written ++ rest → ¬ IsValue value written rest) ∧
        fault = .badValue name.text (before ++ (name.text ++ ['='])).length := by
  have noGap : ∀ c ∈ inside.trim.head?, Text.isGap c = false := fun c first =>
    Text.isGap_of_isBlank_eq_false (Text.isBlank_of_head?_trim inside c first)
  have same : inside.trim.dropWhile Text.isGap = inside.trim := Text.dropWhile_eq_self_of_head? noGap
  rw [readSet, same]
  refine ⟨fun attributes => ?_, fun fault => ?_⟩
  · rw [← and_iff_left (a := readAll inside.trim.length inside.trim = .ok attributes) noGap, readAll_eq_ok_iff]
    refine exists_congr fun before => exists_congr fun rest => and_congr_right fun whole =>
      and_congr_right fun areWritten => ?_
    constructor
    · intro noWord
      refine ⟨fun c first => ⟨noWord c first, areWritten.isGap_of_head?_after c first⟩, fun none => ?_, ?_⟩
      · subst none
        exact ⟨attributes, by rwa [whole, List.append_nil]⟩
      · rintro ⟨all, complete⟩
        exact (areWritten.unique complete (by rw [← whole, List.append_nil]) noWord (by simp)).2
    · exact fun stops c first => (stops.1 c first).1
  · rw [← and_iff_left (a := readAll inside.trim.length inside.trim = .error fault) noGap, readAll_eq_error_iff]
    refine exists_congr fun attributes => exists_congr fun before => exists_congr fun name => exists_congr fun after =>
      and_congr_right fun whole => and_congr_right fun _ => and_congr_right fun _ => ?_
    have place : inside.trim.length - after.length = (before ++ (name.text ++ ['='])).length := by
      rw [whole]
      simp only [List.length_append, List.length_cons, List.length_nil]
      omega
    rw [place]

/-- A slash ends a bare value, and what stands from it on is passed over, other attributes included. -/
example : Attribute.readSet "href=/about/us rel=me".toList = .ok [⟨"href".toList, "/about".toList⟩] := by cbv

end Shorthand
