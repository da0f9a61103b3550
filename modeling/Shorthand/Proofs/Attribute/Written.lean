import Shorthand.Proofs.Attribute.Grammar

/-! # Writing attribute sets

An attribute is written as its name, an equals sign and its value between two quotes, with a backslash before each quote
in the value, and a space stands between two attributes. What is written so is a sequence of these attributes if no
backslash of a value protects what follows it: a backslash may stand only before a character that is neither a backslash
nor the quote.

* **`IsQuotable`** — a value that is read back when it is written between quotes.
* **`QuotedAttribute.writeAll`** — the attributes of a set as they are written.
* `QuotedAttribute.areWritten_writeAll` — a written set is a sequence of its attributes.
* `QuotedAttribute.isBalanced_writeAll` — it closes the delimiters that it opens if each value does. -/

namespace Shorthand

/-! ## Values -/

/-- A value as it is written between two quotes. -/
def escapeQuote (quote : Char) (value : Text) : Text :=
  value.flatMap fun c => if c = quote then ['\\', c] else [c]

/-- Each backslash of the value stands before a character that is neither a backslash nor the quote. -/
inductive IsQuotable (quote : Char) : Text → Prop
  | nil : IsQuotable quote []
  | char {c t} (noBackslash : c ≠ '\\') (later : IsQuotable quote t) : IsQuotable quote (c :: t)
  | backslash {c t} (noQuote : c ≠ quote) (noBackslash : c ≠ '\\') (later : IsQuotable quote t) :
    IsQuotable quote ('\\' :: c :: t)

section Quotes

variable {quote c : Char} {value : Text}

theorem escapeQuote_quote (t : Text) :
    escapeQuote quote (quote :: t) = '\\' :: quote :: escapeQuote quote t := by
  simp [escapeQuote]

theorem escapeQuote_cons (noQuote : c ≠ quote) (t : Text) : escapeQuote quote (c :: t) = c :: escapeQuote quote t := by
  simp [escapeQuote, noQuote]

/-- A value without backslashes is quotable. -/
theorem isQuotable_of_not_mem (noBackslash : '\\' ∉ value) : IsQuotable quote value := by
  induction value with
  | nil => exact .nil
  | cons c value ih =>
    rw [List.mem_cons, not_or] at noBackslash
    exact .char (Ne.symm noBackslash.1) (ih noBackslash.2)

/-- A quotable value as it is written may stand between two quotes. -/
theorem IsQuotable.isQuotedBody (quotable : IsQuotable quote value) (differ : quote ≠ '\\') :
    IsQuotedBody quote (escapeQuote quote value) := by
  induction quotable with
  | nil => exact .nil
  | @char c t noBackslash later ih =>
    by_cases same : c = quote
    · subst same
      rw [escapeQuote_quote]
      exact .guarded c ih
    · rw [escapeQuote_cons same]
      exact .char same noBackslash ih
  | backslash noQuote noBackslash later ih =>
    rw [escapeQuote_cons differ.symm, escapeQuote_cons noQuote]
    exact .guarded _ ih

/-- A quotable value is read back. -/
theorem IsQuotable.unescapeQuote_escapeQuote (quotable : IsQuotable quote value) (differ : quote ≠ '\\') :
    unescapeQuote quote (escapeQuote quote value) = value := by
  induction quotable with
  | nil => rfl
  | @char c t noBackslash later ih =>
    by_cases same : c = quote
    · subst same
      rw [escapeQuote_quote, unescapeQuote, if_pos (by simp), ih]
    · rw [escapeQuote_cons same, unescapeQuote_cons noBackslash, ih]
  | backslash noQuote noBackslash later ih =>
    rw [escapeQuote_cons differ.symm, escapeQuote_cons noQuote, unescapeQuote, if_neg (by simp [noQuote]),
      unescapeQuote_cons noBackslash, ih]

/-- Of characters that are neither quotes nor backslashes a written value has those of the value. -/
theorem filter_escapeQuote {keeps : Char → Bool} (noQuote : keeps quote = false) (noBackslash : keeps '\\' = false)
    (value : Text) : (escapeQuote quote value).filter keeps = value.filter keeps := by
  induction value with
  | nil => rfl
  | cons c value ih =>
    by_cases same : c = quote
    · subst same
      rw [escapeQuote_quote, List.filter_cons_of_neg (by simp [noBackslash]), List.filter_cons_of_neg (by simp [noQuote]),
        List.filter_cons_of_neg (by simp [noQuote]), ih]
    · rw [escapeQuote_cons same, List.filter_cons, List.filter_cons, ih]

end Quotes

/-! ## Attributes -/

/-- A word and a value that is given to it. -/
structure QuotedAttribute where
  /-- The word. -/
  name : Word
  /-- The value. -/
  value : Text

namespace QuotedAttribute

variable {quote : Char} {d : Delimiter} {attributes : List QuotedAttribute}

/-- The attribute with this name and this value. -/
def toAttribute (a : QuotedAttribute) : Attribute := ⟨a.name.text, a.value⟩

/-- An attribute as it is written. -/
def written (quote : Char) (a : QuotedAttribute) : Text :=
  a.name.text ++ '=' :: quote :: (escapeQuote quote a.value ++ [quote])

/-- The attributes of a set as they are written. -/
def writeAll (quote : Char) (attributes : List QuotedAttribute) : Text :=
  Text.joined [' '] (attributes.map (written quote))

theorem writeAll_cons_cons (a b : QuotedAttribute) (rest : List QuotedAttribute) :
    writeAll quote (a :: b :: rest) = a.written quote ++ ([' '] ++ writeAll quote (b :: rest)) := by
  simp [writeAll, Text.joined]

/-- An attribute with a quotable value is written. -/
theorem isWritten (isQuote : quote = '"' ∨ quote = '\'') {a : QuotedAttribute} (quotable : IsQuotable quote a.value)
    (after : Text) : Attribute.IsWritten a.toAttribute (a.written quote) after := by
  have differ := ne_backslash_of_isQuote isQuote
  have isValue : Attribute.IsValue _ (quote :: (escapeQuote quote a.value ++ [quote])) after :=
    .quoted isQuote (quotable.isQuotedBody differ)
  rw [quotable.unescapeQuote_escapeQuote differ] at isValue
  exact .assigned a.name isValue

/-- Attributes with quotable values are written one after the other. -/
theorem areWritten_writeAll (isQuote : quote = '"' ∨ quote = '\'')
    (quotable : ∀ a ∈ attributes, IsQuotable quote a.value) :
    Attribute.AreWritten (attributes.map toAttribute) (writeAll quote attributes) [] := by
  induction attributes with
  | nil => exact .nil (by simp)
  | cons a rest ih =>
    obtain ⟨first, others⟩ := List.forall_mem_cons.1 quotable
    cases rest with
    | nil =>
      have noGap : ∀ c ∈ ([] : Text), Text.isGap c = true := by simp
      have alone := Attribute.AreWritten.cons (isWritten isQuote first _) noGap (ih others)
      simpa [writeAll, Text.joined] using alone
    | cons b rest =>
      have isSpace : ∀ c ∈ [' '], Text.isGap c = true := List.forall_mem_singleton.2 rfl
      rw [writeAll_cons_cons]
      exact .cons (isWritten isQuote first _) isSpace (ih others)

/-- A written set ends with a quote. -/
theorem exists_writeAll_eq_concat (quote : Char) (nonempty : attributes ≠ []) :
    ∃ before, writeAll quote attributes = before ++ [quote] := by
  induction attributes with
  | nil => exact absurd rfl nonempty
  | cons a rest ih =>
    cases rest with
    | nil => exact ⟨a.name.text ++ '=' :: quote :: escapeQuote quote a.value, by simp [writeAll, Text.joined, written]⟩
    | cons b rest =>
      obtain ⟨before, ends⟩ := ih (List.cons_ne_nil b rest)
      exact ⟨a.written quote ++ ([' '] ++ before), by rw [writeAll_cons_cons, ends]; simp⟩

/-- A written set begins with a word. -/
theorem exists_writeAll_eq_append (quote : Char) (a : QuotedAttribute) (rest : List QuotedAttribute) :
    ∃ after, writeAll quote (a :: rest) = a.name.text ++ after := by
  cases rest with
  | nil => exact ⟨_, rfl⟩
  | cons b rest => exact ⟨_, by rw [writeAll_cons_cons, written, List.append_assoc]⟩

/-- There is no white space around a written set. -/
theorem trim_writeAll (isQuote : quote = '"' ∨ quote = '\'') (attributes : List QuotedAttribute) :
    (writeAll quote attributes).trim = writeAll quote attributes := by
  cases attributes with
  | nil => rfl
  | cons a rest =>
    refine Text.trim_eq_self (fun c first => ?_) fun c last => ?_
    · obtain ⟨after, begins⟩ := exists_writeAll_eq_append quote a rest
      rw [begins] at first
      exact isBlank_of_isWordChar (a.name.isWordChar_of_head? first)
    · obtain ⟨before, ends⟩ := exists_writeAll_eq_concat quote (List.cons_ne_nil a rest)
      rw [ends, List.getLast?_concat] at last
      cases last
      rcases isQuote with rfl | rfl <;> decide

/-- An attribute as it is written closes the delimiters that it opens if the value does. -/
theorem isBalanced_written (isQuote : quote = '"' ∨ quote = '\'') (a : QuotedAttribute) :
    d.IsBalanced (a.written quote) ↔ d.IsBalanced a.value := by
  refine Delimiter.isBalanced_congr ?_
  have name : a.name.text.filter d.isOwn = [] := Delimiter.filter_isOwn_eq_nil fun c inside =>
    ⟨a.name.ne_of_mem inside (by cases d <;> decide), a.name.ne_of_mem inside (by cases d <;> decide)⟩
  have noQuote : d.isOwn quote = false := by rcases isQuote with rfl | rfl <;> cases d <;> decide
  have noBackslash : d.isOwn '\\' = false := by cases d <;> decide
  have noSign : d.isOwn '=' = false := by cases d <;> decide
  simp [written, name, noQuote, noSign, filter_escapeQuote noQuote noBackslash]

/-- A written set closes the delimiters that it opens if each value does. -/
theorem isBalanced_writeAll (isQuote : quote = '"' ∨ quote = '\'')
    (values : ∀ a ∈ attributes, d.IsBalanced a.value) : d.IsBalanced (writeAll quote attributes) := by
  induction attributes with
  | nil => rfl
  | cons a rest ih =>
    obtain ⟨first, others⟩ := List.forall_mem_cons.1 values
    have own := (isBalanced_written isQuote a).2 first
    cases rest with
    | nil => exact own
    | cons b rest =>
      have space : d.IsBalanced [' '] := by cases d <;> decide
      rw [writeAll_cons_cons]
      exact own.append (space.append (ih others))

end QuotedAttribute

end Shorthand
