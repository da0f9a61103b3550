import Shorthand.Proofs.Element

/-! # Written sets are read back

The closing quote of a value is found in one pass over the set, where a backslash protects whatever follows it, and the
escapes are taken out in another, where a backslash counts only before the quote. The passes agree on a written value
if each of its backslashes stands before a character that is neither a backslash nor the quote; all other characters,
the other quote, blanks and brackets among them, may stand anywhere.

* `isQuotable_iff` — the condition, said of each backslash of the value.
* `readSet_writeAll` — a written set is read back as the attributes that were written. -/

namespace Shorthand

variable {quote : Char}

/-- What follows a backslash of the value begins with a character that is neither a backslash nor the quote. -/
def GuardsBackslashes (quote : Char) (value : Text) : Prop :=
  ∀ before after, value = before ++ '\\' :: after → ∃ c ∈ after.head?, c ≠ '\\' ∧ c ≠ quote

/-- The condition on the backslashes of a value holds of what stands at the end of the value. -/
theorem GuardsBackslashes.of_append (before : Text) {value : Text}
    (guarded : GuardsBackslashes quote (before ++ value)) : GuardsBackslashes quote value := by
  intro front after parts
  exact guarded (before ++ front) after (by rw [parts, List.append_assoc])

/-- A value can be written between quotes if what follows each of its backslashes is neither a backslash nor the quote.
-/
theorem isQuotable_iff {value : Text} : IsQuotable quote value ↔ GuardsBackslashes quote value := by
  constructor
  · intro quotable
    induction quotable with
    | nil =>
      intro before after parts
      exact absurd parts (by simp)
    | @char c t noBackslash later ih =>
      intro before after parts
      rcases List.cons_eq_append_iff.1 parts with ⟨-, first⟩ | ⟨front, -, rest⟩
      · exact absurd (List.cons.inj first).1.symm noBackslash
      · exact ih front after rest
    | @backslash c t noQuote noBackslash later ih =>
      intro before after parts
      rcases List.cons_eq_append_iff.1 parts with ⟨-, first⟩ | ⟨front, -, rest⟩
      · obtain ⟨-, rfl⟩ := List.cons.inj first
        exact ⟨c, rfl, noBackslash, noQuote⟩
      rcases List.cons_eq_append_iff.1 rest with ⟨-, second⟩ | ⟨front, -, rest⟩
      · exact absurd (List.cons.inj second).1.symm noBackslash
      · exact ih front after rest
  · intro guarded
    -- two characters are taken at once where the first is a backslash
    induction value using List.twoStepInduction with
    | nil => exact .nil
    | singleton c =>
      refine .char ?_ .nil
      rintro rfl
      obtain ⟨d, none, -⟩ := guarded [] [] rfl
      exact absurd none (by simp)
    | cons_cons c d t skip next =>
      by_cases backslash : c = '\\'
      · subst backslash
        obtain ⟨_, ⟨⟩, noBackslash, noQuote⟩ := guarded [] (d :: t) rfl
        exact .backslash noQuote noBackslash (skip (guarded.of_append ['\\', d]))
      · exact .char backslash (next d (guarded.of_append [c]))

/-- Attributes that are written with a space between two of them, each with its value between two quotes and a
backslash before each such quote in the value, are read back, if each backslash of a value stands before a character
that is neither a backslash nor the quote. -/
theorem readSet_writeAll {attributes : List QuotedAttribute} (isQuote : quote = '"' ∨ quote = '\'')
    (guarded : ∀ a ∈ attributes, GuardsBackslashes quote a.value) :
    Attribute.readSet (QuotedAttribute.writeAll quote attributes) =
      .ok (attributes.map QuotedAttribute.toAttribute) := by
  have quotable : ∀ a ∈ attributes, IsQuotable quote a.value := fun a inside => isQuotable_iff.2 (guarded a inside)
  exact Attribute.readSet_of_areWritten (QuotedAttribute.trim_writeAll isQuote attributes)
    (QuotedAttribute.areWritten_writeAll isQuote quotable)

/-- A backslash before another character, both quotes, a bracket, an equals sign and blanks in a value. -/
theorem readSet_writeAll_titles :
    ('\'' = '"' ∨ '\'' = '\'') ∧ GuardsBackslashes '\'' "\\n it's \"a\" ] b=".toList ∧ GuardsBackslashes '\'' [] ∧
      Attribute.readSet "title='\\n it\\'s \"a\" ] b=' data-x:1=''".toList =
        .ok [⟨"title".toList, "\\n it's \"a\" ] b=".toList⟩, ⟨"data-x:1".toList, []⟩] := by
  let title : Word := ⟨"title".toList, by decide, List.all_eq_true.1 (by decide)⟩
  let data : Word := ⟨"data-x:1".toList, by decide, List.all_eq_true.1 (by decide)⟩
  have first : GuardsBackslashes '\'' "\\n it's \"a\" ] b=".toList :=
    isQuotable_iff.1 (.backslash (by decide) (by decide) (isQuotable_of_not_mem (by decide)))
  have second : GuardsBackslashes '\'' [] := isQuotable_iff.1 .nil
  have guarded : ∀ a ∈ [QuotedAttribute.mk title "\\n it's \"a\" ] b=".toList, ⟨data, []⟩],
      GuardsBackslashes '\'' a.value := by
    simpa using ⟨first, second⟩
  exact ⟨.inr rfl, first, second, readSet_writeAll (.inr rfl) guarded⟩

end Shorthand
