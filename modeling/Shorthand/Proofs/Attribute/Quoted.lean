import Mathlib.Data.List.TakeWhile
import Shorthand.Attribute.Set
import Shorthand.Proofs.Reading.Compose

/-! # Quoted values

A value between double quotes that holds neither a quote nor a backslash is read as it is written, whatever other
characters it holds. Where its closing quote is missing the set is refused.

* **`Word`** — a text of word characters, one at least.
* **`Text.IsVerbatim`** — a value that is read as it is written.
* `Word.readSet_assign` — an attribute with such a value is read from a set.
* `Word.readSet_open` — a set in which the value has no end is refused. -/

namespace Shorthand

/-- A text of word characters. -/
structure Word where
  /-- The characters. -/
  text : Text
  /-- There is one at least. -/
  ne_nil : text ≠ []
  /-- All of them are word characters. -/
  isWordChar_of_mem : ∀ c ∈ text, isWordChar c = true

/-- The value holds neither a double quote nor a backslash. -/
def Text.IsVerbatim (value : Text) : Prop := ∀ c ∈ value, c ≠ '"' ∧ c ≠ '\\'

instance (value : Text) : Decidable value.IsVerbatim :=
  inferInstanceAs (Decidable (∀ c ∈ value, c ≠ '"' ∧ c ≠ '\\'))

/-- A word character is no white space. -/
theorem isBlank_of_isWordChar {c : Char} (isWord : isWordChar c = true) : Text.isBlank c = false :=
  isBlank_of_isTokenChar (isTokenChar_of_isNameChar (isNameChar_of_isWordChar isWord))

/-! ## Quotes -/

section Quotes

variable {quote c : Char}

/-- A quote ends what is quoted. -/
theorem quotedBody?_quote (quote : Char) (rest : Text) :
    quotedBody? (· == quote) (quote :: rest) = some ([], rest) := by
  cases rest <;> simp [quotedBody?]

/-- A character that is neither a quote nor a backslash is quoted. -/
theorem quotedBody?_cons (noQuote : c ≠ quote) (noBackslash : c ≠ '\\') (t : Text) :
    quotedBody? (· == quote) (c :: t) =
      (quotedBody? (· == quote) t).map fun found => (c :: found.1, found.2) := by
  cases t <;> simp [quotedBody?, noQuote, noBackslash]

/-- A character that is no backslash stands for itself. -/
theorem unescapeQuote_cons (noBackslash : c ≠ '\\') (t : Text) :
    unescapeQuote quote (c :: t) = c :: unescapeQuote quote t := by
  cases t <;> simp [unescapeQuote, noBackslash]

end Quotes

namespace Attribute

variable {size : Nat} {t rest : Text} {a : Attribute} {fault : AbbreviationFault}

@[simp] theorem readAll_nil : readAll size [] = .ok [] := by
  rw [readAll]
  rfl

/-- The attributes of a text are the first one and those after it. -/
theorem readAll_eq (size : Nat) (t : Text) :
    readAll size t = (readOne size t).bind fun found =>
      found.elim (.ok []) fun first => (readAll size first.2).map (first.1 :: ·) := by
  rw [readAll]
  split
  · next found => rw [found]; rfl
  · next found => rw [found]; rfl
  · next found => rw [found]; rfl

/-- An attribute that is read comes before those after it. -/
theorem readAll_of_readOne (read : readOne size t = .ok (some (a, rest))) :
    readAll size t = (readAll size rest).map (a :: ·) := by
  rw [readAll_eq, read]
  rfl

/-- Where no word stands there are no more attributes. -/
theorem readAll_of_readOne_none (stops : readOne size t = .ok none) : readAll size t = .ok [] := by
  rw [readAll_eq, stops]
  rfl

/-- An attribute that is refused refuses the set. -/
theorem readAll_of_readOne_error (refused : readOne size t = .error fault) : readAll size t = .error fault := by
  rw [readAll_eq, refused]
  rfl

/-- A name before an equals sign is read with the value after the sign. -/
theorem readOne_assigned (size : Nat) (name : Word) (after : Text) :
    readOne size (name.text ++ '=' :: after) =
      match readValue? after with
      | none => .error (.badValue name.text (size - after.length))
      | some (value, rest) => .ok (some (⟨name.text, value⟩, rest.dropWhile Text.isGap)) := by
  have ends : ∀ c ∈ ('=' :: after).head?, isWordChar c = false := by
    rintro c ⟨⟩
    decide
  obtain ⟨taken, left⟩ := Text.takeWhile_dropWhile_iff.2 ⟨rfl, name.isWordChar_of_mem, ends⟩
  rw [readOne, taken, if_neg name.ne_nil]
  cases found : readValue? after <;> simp only [left, found]

end Attribute

namespace Text

variable {value : Text}

/-- A part of such a value is such a value. -/
theorem IsVerbatim.of_subset {part : Text} (verbatim : value.IsVerbatim) (subset : part ⊆ value) :
    part.IsVerbatim := fun c inside => verbatim c (subset inside)

/-- Such a value reaches to the closing quote. -/
theorem IsVerbatim.quotedBody? (verbatim : value.IsVerbatim) (rest : Text) :
    Shorthand.quotedBody? (· == '"') (value ++ '"' :: rest) = some (value, rest) := by
  induction value with
  | nil => exact quotedBody?_quote '"' rest
  | cons c value ih =>
    obtain ⟨noQuote, noBackslash⟩ := verbatim c List.mem_cons_self
    rw [List.cons_append, quotedBody?_cons noQuote noBackslash, ih (verbatim.of_subset (List.subset_cons_self c value))]
    rfl

/-- Without a closing quote it has no end. -/
theorem IsVerbatim.quotedBody?_eq_none (verbatim : value.IsVerbatim) :
    Shorthand.quotedBody? (· == '"') value = none := by
  induction value with
  | nil => rfl
  | cons c value ih =>
    obtain ⟨noQuote, noBackslash⟩ := verbatim c List.mem_cons_self
    rw [quotedBody?_cons noQuote noBackslash, ih (verbatim.of_subset (List.subset_cons_self c value))]
    rfl

/-- Nothing is escaped in such a value. -/
theorem IsVerbatim.unescapeQuote (verbatim : value.IsVerbatim) : Shorthand.unescapeQuote '"' value = value := by
  induction value with
  | nil => rfl
  | cons c value ih =>
    rw [unescapeQuote_cons (verbatim c List.mem_cons_self).2, ih (verbatim.of_subset (List.subset_cons_self c value))]

end Text

namespace Word

variable (w : Word) {value : Text}

/-- The characters of a word are none of those that have a meaning of their own. -/
theorem ne_of_mem {c : Char} (inside : c ∈ w.text) {special : Char} (other : isWordChar special = false) :
    c ≠ special := by
  rintro rfl
  rw [w.isWordChar_of_mem c inside] at other
  cases other

/-- A text that begins with a word begins with a word character. -/
theorem isWordChar_of_head? {c : Char} {rest : Text} (first : c ∈ (w.text ++ rest).head?) : isWordChar c = true := by
  rw [List.head?_append_of_ne_nil _ w.ne_nil] at first
  exact w.isWordChar_of_mem c (List.mem_of_mem_head? first)

/-- The beginning of an attribute with a quoted value, up to the opening quote. -/
def opening : Text := w.text ++ ['=', '"']

/-- The characters of the beginning are word characters, an equals sign and a quote. -/
theorem ne_of_mem_opening {c : Char} (inside : c ∈ w.opening) {special : Char}
    (other : isWordChar special = false ∧ special ≠ '=' ∧ special ≠ '"') : c ≠ special := by
  rcases List.mem_append.1 inside with word | sign
  · exact w.ne_of_mem word other.1
  · rintro rfl
    simp [other.2] at sign

/-- An attribute does not begin with white space. -/
theorem isBlank_of_head? {c : Char} {rest : Text} (first : c ∈ (w.opening ++ rest).head?) :
    Text.isBlank c = false := by
  rw [opening, List.append_assoc] at first
  exact isBlank_of_isWordChar (w.isWordChar_of_head? first)

/-- The name of an attribute ends at the equals sign, and its value begins with the quote. -/
theorem readOne_opening (size : Nat) (rest : Text) :
    Attribute.readOne size (w.opening ++ rest) =
      match quotedBody? (· == '"') rest with
      | none => .error (.badValue w.text (size - (rest.length + 1)))
      | some found => .ok (some (⟨w.text, unescapeQuote '"' found.1⟩, found.2.dropWhile Text.isGap)) := by
  have parts : w.opening ++ rest = w.text ++ '=' :: '"' :: rest := by simp [opening]
  rw [parts, Attribute.readOne_assigned, Attribute.readValue?, if_pos (by decide)]
  cases quotedBody? (· == '"') rest <;> rfl

/-- No gaps stand before an attribute. -/
theorem dropWhile_isGap (rest : Text) : (w.opening ++ rest).dropWhile Text.isGap = w.opening ++ rest := by
  exact Text.dropWhile_eq_self_of_head? fun c first => Text.isGap_of_isBlank_eq_false (w.isBlank_of_head? first)

/-- Trimming a set that begins with an attribute leaves all but the white space at the end of what is quoted. -/
theorem trim_opening_append (rest : Text) :
    (w.opening ++ rest).trim = w.opening ++ Text.trimEnd Text.isBlank rest := by
  have first : ∀ c ∈ (w.opening ++ rest).head?, Text.isBlank c = false := fun _ => w.isBlank_of_head?
  have parts : ∀ t, w.opening ++ t = w.text ++ ['='] ++ '"' :: t := fun t => by simp [opening]
  rw [parts] at first ⊢
  rw [Text.trim_append_cons (by decide) first, ← parts]

/-- An attribute with such a value is read from a set. -/
theorem readSet_assign (verbatim : value.IsVerbatim) :
    Attribute.readSet (w.opening ++ (value ++ ['"'])) = .ok [⟨w.text, value⟩] := by
  have trimmed : Text.trimEnd Text.isBlank (value ++ ['"']) = value ++ ['"'] :=
    Text.trimEnd_append_cons (by decide) value []
  have first := w.readOne_opening (w.opening ++ (value ++ ['"'])).length (value ++ ['"'])
  simp only [verbatim.quotedBody?, verbatim.unescapeQuote] at first
  rw [Attribute.readSet, w.trim_opening_append, trimmed, w.dropWhile_isGap, Attribute.readAll_of_readOne first,
    List.dropWhile_nil, Attribute.readAll_nil]
  rfl

/-- A set is refused in which a value has no end. -/
theorem readSet_open (verbatim : value.IsVerbatim) :
    ∃ fault, Attribute.readSet (w.opening ++ value) = .error fault := by
  have shorter : (Text.trimEnd Text.isBlank value).IsVerbatim :=
    fun c inside => verbatim c ((Text.trimEnd_isPrefix Text.isBlank value).subset inside)
  rw [Attribute.readSet, w.trim_opening_append, w.dropWhile_isGap]
  generalize Text.trimEnd Text.isBlank value = rest at shorter
  have first := w.readOne_opening (w.opening ++ rest).length rest
  rw [shorter.quotedBody?_eq_none] at first
  exact ⟨_, Attribute.readAll_of_readOne_error first⟩

end Word

end Shorthand
