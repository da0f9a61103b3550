import Shorthand.Proofs.Attribute.Written
import Shorthand.Proofs.Literal

/-! # Written elements

An element is written as its name, its attributes in square brackets with their values between double quotes, its text in
braces, and how often it is repeated. The scan of the token, the multiplier at its end, the search for the text, the search
for the markers, and the reading of the set and of its values all cut it at the same places, whatever characters the values
and the text hold: a value must close the square brackets that it opens and a text its braces, and that is all.

* `Attribute.readSet_of_areWritten` — a set that is a sequence of attributes is read as these.
* `PlainName.read_writeAll` — what a written element says as a token.
* `PlainName.parseRaw_writeAll` — a written element is parsed as one node. -/

namespace Shorthand

/-- A set without white space around it that is a sequence of attributes is read as these attributes. -/
theorem Attribute.readSet_of_areWritten {attributes : List Attribute} {t : Text} (trimmed : t.trim = t)
    (areWritten : AreWritten attributes t []) : readSet t = .ok attributes := by
  obtain ⟨read, noGap⟩ : readAll t.length t = .ok attributes ∧ _ :=
    readAll_eq_ok_iff.2 ⟨t, [], (List.append_nil t).symm, areWritten, by simp⟩
  rw [readSet, trimmed, Text.dropWhile_eq_self_of_head? noGap, read]

namespace PlainName

variable (x : PlainName) {attributes : List QuotedAttribute} {text : Text}

/-- What a written element says as a token. -/
theorem read_writeAll (nonempty : attributes ≠ [])
    (values : ∀ a ∈ attributes, '\\' ∉ a.value ∧ Delimiter.square.IsBalanced a.value)
    (braces : Delimiter.curly.IsBalanced text) :
    Token.read (x.element (QuotedAttribute.writeAll '"' attributes) text) =
      ({ abbreviation := some (x.element (QuotedAttribute.writeAll '"' attributes) text), text := some text,
         attributes := some (Attribute.merge (attributes.map QuotedAttribute.toAttribute)),
         name := some x.text }, none) := by
  have squares : Delimiter.square.IsBalanced (QuotedAttribute.writeAll '"' attributes) :=
    QuotedAttribute.isBalanced_writeAll (.inl rfl) fun a inside => (values a inside).2
  have areWritten : Attribute.AreWritten _ (QuotedAttribute.writeAll '"' attributes) [] :=
    QuotedAttribute.areWritten_writeAll (.inl rfl) fun a inside => isQuotable_of_not_mem (values a inside).1
  have read := Attribute.readSet_of_areWritten (QuotedAttribute.trim_writeAll (.inl rfl) attributes) areWritten
  cases attributes with
  | nil => exact absurd rfl nonempty
  | cons a rest => exact x.read_element squares braces read

/-- A written element is parsed as one node with this name, this text, these attributes, merged, and this number of
repetitions, for all values without a backslash that close the square brackets that they open, and all texts that close
the braces that they open. -/
theorem parseRaw_writeAll (nonempty : attributes ≠ [])
    (values : ∀ a ∈ attributes, '\\' ∉ a.value ∧ Delimiter.square.IsBalanced a.value)
    (braces : Delimiter.curly.IsBalanced text) {count : Nat} (positive : 1 ≤ count)
    (short : (Text.ofNat count).length ≤ IntegerFault.digitLimit) :
    parseRaw (x.element (QuotedAttribute.writeAll '"' attributes) text ++ '*' :: Text.ofNat count) =
      .ok (.mk {} [.mk
        { abbreviation := x.element (QuotedAttribute.writeAll '"' attributes) text, elementName := some x.text, text,
          attributes := Attribute.merge (attributes.map QuotedAttribute.toAttribute), repeatCount := count,
          implicitRepeat := false } []]) := by
  have squares : Delimiter.square.IsBalanced (QuotedAttribute.writeAll '"' attributes) :=
    QuotedAttribute.isBalanced_writeAll (.inl rfl) fun a inside => (values a inside).2
  have isToken := (x.isToken_element squares braces).append_star (Text.isDigit_of_mem_ofNat (n := count))
  have plain := x.cut_element (QuotedAttribute.writeAll '"' attributes) text
  have cut := Multiplier.cut_append plain Text.isDigit_of_mem_ofNat (Text.ofNat_ne_nil count) short
  have read := Token.read_of_cut plain cut
  rw [x.read_writeAll nonempty values braces, Text.numberOf_ofNat] at read
  have notZero : count ≠ 0 := by omega
  rw [parseRaw_eq_ok_iff, isToken.readAbbreviation, read]
  refine ⟨rfl, ?_⟩
  rw [Reading.tree, Item.build_token]
  simp [Content.assign, Multiplier.ofInt, notZero, x.ne_nil]

/-- Quotes, brackets, markers, a multiplier and a line feed in a value and in a text. -/
theorem parseRaw_writeAll_menu :
    '\\' ∉ "\"a\" [b](*2 #c.\x7b".toList ∧ Delimiter.square.IsBalanced "\"a\" [b](*2 #c.\x7b".toList ∧
      Delimiter.curly.IsBalanced "\x7b)\x7d]\n*3".toList ∧
      parseRaw "li[class=\"x\" title=\"\\\"a\\\" [b](*2 #c.\x7b\" class=\"y\"]\x7b\x7b)\x7d]\n*3\x7d*12".toList =
        .ok (.mk {} [.mk
          { abbreviation := "li[class=\"x\" title=\"\\\"a\\\" [b](*2 #c.\x7b\" class=\"y\"]\x7b\x7b)\x7d]\n*3\x7d".toList,
            elementName := some "li".toList, text := "\x7b)\x7d]\n*3".toList,
            attributes := [⟨"class".toList, "x y".toList⟩, ⟨"title".toList, "\"a\" [b](*2 #c.\x7b".toList⟩],
            repeatCount := 12 } []]) := by
  let name : PlainName := .ofAll "li".toList (by decide) (by decide)
  let cls : Word := ⟨"class".toList, by decide, List.all_eq_true.1 (by decide)⟩
  let title : Word := ⟨"title".toList, by decide, List.all_eq_true.1 (by decide)⟩
  have values : ∀ a ∈ [QuotedAttribute.mk cls "x".toList, ⟨title, "\"a\" [b](*2 #c.\x7b".toList⟩, ⟨cls, "y".toList⟩],
      '\\' ∉ a.value ∧ Delimiter.square.IsBalanced a.value := by
    simp only [List.forall_mem_cons]
    exact ⟨⟨by decide, by cbv⟩, ⟨by decide, by cbv⟩, ⟨by decide, by cbv⟩, by simp⟩
  have braces : Delimiter.curly.IsBalanced "\x7b)\x7d]\n*3".toList := by cbv
  have parsed := name.parseRaw_writeAll (List.cons_ne_nil _ _) values braces (by decide : 1 ≤ 12) (by decide)
  have merged : Attribute.merge (List.map QuotedAttribute.toAttribute [QuotedAttribute.mk cls "x".toList,
      ⟨title, "\"a\" [b](*2 #c.\x7b".toList⟩, ⟨cls, "y".toList⟩]) =
        [⟨"class".toList, "x y".toList⟩, ⟨"title".toList, "\"a\" [b](*2 #c.\x7b".toList⟩] := by cbv
  rw [merged] at parsed
  exact ⟨by decide, by cbv, braces, parsed⟩

end PlainName

end Shorthand
