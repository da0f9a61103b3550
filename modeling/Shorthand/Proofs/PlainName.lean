import Shorthand.Node.Basic
import Shorthand.Proofs.Multiplier
import Shorthand.Proofs.Reading.Compose
import Shorthand.Proofs.Token

/-! # Plain names

A plain name consists of name characters alone. As a token it says nothing but itself: it has no multiplier, no text and
no markers.

* **`PlainName`** — a text of name characters, one at least.
* `PlainName.read` — what a plain name says as a token.
* `PlainName.read_times` — what it says with a multiplier after it. -/

namespace Shorthand

/-- A text of name characters. -/
structure PlainName where
  /-- The characters. -/
  text : Text
  /-- There is one at least. -/
  ne_nil : text ≠ []
  /-- All of them are name characters. -/
  isNameChar_of_mem : ∀ c ∈ text, isNameChar c = true
  deriving DecidableEq

namespace PlainName

/-- A text whose characters are found to be name characters. -/
def ofAll (t : Text) (nonempty : t ≠ []) (all : t.all isNameChar = true) : PlainName :=
  ⟨t, nonempty, List.all_eq_true.1 all⟩

variable (x : PlainName)

/-- What a plain name says as a token. -/
def token : Token := { abbreviation := some x.text, name := some x.text }

/-- The content of a node that is named and repeated so often. -/
def content (count : Int) : Content :=
  { abbreviation := x.text, elementName := some x.text, repeatCount := count }

/-- A node with a plain name is no group. -/
theorem isGroup_content (count : Int) : (x.content count).isGroup = false := by
  simp [Content.isGroup, content, x.ne_nil]

/-- The characters of a plain name are none of those that have a meaning of their own. -/
theorem ne_of_mem {c : Char} (inside : c ∈ x.text) {special : Char}
    (other : isNameChar special = false) : c ≠ special := by
  rintro rfl
  rw [x.isNameChar_of_mem c inside] at other
  cases other

/-- The characters of a plain name are token characters. -/
theorem isTokenChar_of_mem {c : Char} (inside : c ∈ x.text) : isTokenChar c = true :=
  isTokenChar_of_isNameChar (x.isNameChar_of_mem c inside)

/-- A text that begins with a plain name does not begin with white space. -/
theorem isBlank_of_head? {rest : Text} : ∀ c ∈ (x.text ++ rest).head?, Text.isBlank c = false := by
  intro c first
  rw [List.head?_append_of_ne_nil _ x.ne_nil] at first
  exact isBlank_of_isTokenChar (x.isTokenChar_of_mem (List.mem_of_mem_head? first))

/-- The characters of a plain name have no meaning for the search of a text. -/
theorem splitText_plain : ∀ c ∈ x.text, c ≠ '[' ∧ c ≠ '(' ∧ c ≠ '\\' ∧ c ≠ '\x7b' := fun c inside =>
  (Token.plain_of_isNameChar (x.isNameChar_of_mem c inside)).2

/-- None of them is a marker. -/
theorem isMark_of_mem : ∀ c ∈ x.text, Token.isMark c = false := fun c inside =>
  (Token.plain_of_isNameChar (x.isNameChar_of_mem c inside)).1

/-- A plain name has no multiplier. -/
theorem cut : Multiplier.cut x.text = .ok (x.text, .absent) :=
  Multiplier.cut_eq_absent_iff.2 <| Multiplier.splitAtStar?_eq_none
    fun _ inside => x.ne_of_mem inside (by decide)

/-- A plain name is an element name. -/
theorem isElementName : Shorthand.isElementName x.text = true := by
  have all : x.text.takeWhile isNameChar = x.text :=
    List.takeWhile_eq_self_iff.2 x.isNameChar_of_mem
  have rest : x.text.dropWhile isNameChar = [] :=
    List.dropWhile_eq_nil_iff.2 x.isNameChar_of_mem
  rw [Shorthand.isElementName, all, rest]
  simp [x.ne_nil]

/-- A plain name says nothing but itself. -/
theorem read : Token.read x.text = (x.token, none) := Token.read_of_isElementName x.isElementName

/-- A plain name with a multiplier says the name and how often it is repeated. -/
theorem read_times {digits : Text} (areDigits : ∀ c ∈ digits, c.isDigit = true)
    (nonempty : digits ≠ []) (short : digits.length ≤ IntegerFault.digitLimit) :
    Token.read (x.text ++ '*' :: digits) =
      ({ x.token with multiplier := .ofInt (Text.numberOf digits) }, none) := by
  rw [Token.read_of_cut x.cut (Multiplier.cut_append x.cut areDigits nonempty short), x.read]

/-- A plain name is read as a token if no more of a token follows. -/
theorem readItems_append {groups steps size : Nat} {rest : Text}
    (ended : tokenRun size rest = .ok ([], rest)) :
    readItems groups (steps + 1) size (x.text ++ rest) =
      (readItems groups steps size rest).after
        (.token x.text (size - (x.text ++ rest).length) x.token) :=
  readItems_token_append (fun _ => x.isTokenChar_of_mem) x.ne_nil ended x.read

/-- A plain name at the end of a level is read as a token. -/
theorem readItems_text (groups steps size : Nat) :
    readItems groups (steps + 1) size x.text =
      ⟨[.token x.text (size - x.text.length) x.token], none⟩ := by
  have read : readItems groups (steps + 1) size (x.text ++ []) = _ := x.readItems_append tokenRun_nil
  rw [List.append_nil, readItems_nil] at read
  exact read

/-- A plain name alone is read as a token. -/
theorem readLevel_text (groups : Nat) :
    readLevel groups x.text = ⟨[.token x.text 0 x.token], none⟩ := by
  have trimmed := Text.trim_eq_self_of_forall fun _ inside =>
    isBlank_of_isTokenChar (x.isTokenChar_of_mem inside)
  rw [readLevel, trimmed]
  show readItems groups (998 + 1) _ _ = _
  rw [x.readItems_text, Nat.sub_self]

/-- The content that a plain name gives to a blank node. -/
theorem assign_token : ({} : Content).assign x.token = x.content 1 := by
  simp [Content.assign, token, content, x.ne_nil]

/-- The content that a plain name with a count gives to a blank node. -/
theorem assign_times {count : Nat} (positive : 1 ≤ count) :
    ({} : Content).assign { x.token with multiplier := .ofInt count } = x.content count := by
  have notZero : count ≠ 0 := by omega
  simp [Content.assign, token, content, x.ne_nil, Multiplier.ofInt, notZero]

end PlainName

end Shorthand
