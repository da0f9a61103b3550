import Shorthand.Node.Content
import Shorthand.Proofs.Reading.Faults
import Shorthand.Proofs.Text.Trim
import Shorthand.Proofs.Token.Spans

/-! # The names that tokens give

What stands before the markers and the text of a token has to be an element name, or there is none. The check passes over
one line feed at the end. The scan takes no line feed into a token outside of its spans, so that parsed nodes have valid
names; a token that is assigned to a node need not be one that the scan would take, and the node may then get a name with
a line feed behind it.

* **`IsName`** — a valid element name.
* `isElementName_iff` — what the check accepts.
* `Token.HasParts.lineFeed_not_mem` — the name of a token that the scan has found.
* `Content.elementName_of_read` — the name of a node to which a token is assigned. -/

namespace Shorthand

/-- A valid element name: name characters, at least one, and then at most one plus sign. -/
def IsName (t : Text) : Prop :=
  ∃ core, core ≠ [] ∧ (∀ c ∈ core, isNameChar c = true) ∧ (t = core ∨ t = core ++ ['+'])

/-- There is no line feed in a valid name. -/
theorem IsName.lineFeed_not_mem {t : Text} (isName : IsName t) : '\n' ∉ t := by
  obtain ⟨core, -, chars, rfl | rfl⟩ := isName
  · exact fun inside => absurd (chars _ inside) (by decide)
  · intro inside
    rcases List.mem_append.1 inside with inCore | plus
    · exact absurd (chars _ inCore) (by decide)
    · exact absurd (List.mem_singleton.1 plus) (by decide)

/-- A text is accepted as an element name exactly if it is a valid one, or a valid one with a line feed behind it. -/
theorem isElementName_iff {t : Text} :
    isElementName t = true ↔ ∃ name, IsName name ∧ (t = name ∨ t = name ++ ['\n']) := by
  have check : isElementName t = true ↔ t.takeWhile isNameChar ≠ [] ∧
      t.dropWhile isNameChar ∈ [[], ['+'], ['\n'], ['+', '\n']] := by
    simp [isElementName, or_assoc]
  rw [check]
  constructor
  · rintro ⟨nonempty, tail⟩
    obtain ⟨whole, chars, -⟩ := Text.takeWhile_dropWhile isNameChar t
    have core : IsName (t.takeWhile isNameChar) := ⟨_, nonempty, chars, .inl rfl⟩
    have marked : IsName (t.takeWhile isNameChar ++ ['+']) := ⟨_, nonempty, chars, .inr rfl⟩
    simp only [List.mem_cons, List.not_mem_nil, or_false] at tail
    rcases tail with nothing | plus | feed | both
    · exact ⟨_, core, .inl (by rwa [nothing, List.append_nil] at whole)⟩
    · exact ⟨_, marked, .inl (by rwa [plus] at whole)⟩
    · exact ⟨_, core, .inr (by rwa [feed] at whole)⟩
    · exact ⟨_, marked, .inr (by rw [both] at whole; rwa [List.append_assoc])⟩
  · rintro ⟨name, ⟨core, nonempty, chars, written⟩, same⟩
    -- behind the name characters stands what is no name character
    obtain ⟨tail, rfl, known⟩ : ∃ tail, t = core ++ tail ∧ tail ∈ [[], ['+'], ['\n'], ['+', '\n']] := by
      rcases written with rfl | rfl <;> rcases same with rfl | rfl
      · exact ⟨[], by simp, by simp⟩
      · exact ⟨['\n'], rfl, by simp⟩
      · exact ⟨['+'], rfl, by simp⟩
      · exact ⟨['+', '\n'], by simp, by simp⟩
    have ends : ∀ c ∈ tail.head?, isNameChar c = false := by
      simp only [List.mem_cons, List.not_mem_nil, or_false] at known
      rcases known with rfl | rfl | rfl | rfl <;> simp <;> decide
    obtain ⟨taken, left⟩ := Text.takeWhile_dropWhile_iff.2 ⟨rfl, chars, ends⟩
    rw [taken, left]
    exact ⟨nonempty, known⟩

namespace Token

variable {size : Nat} {t before text : Text}

/-- What stands before the text is the beginning of the text that is searched. -/
theorem splitText_isPrefix (found : splitText size t = .ok (some (before, text))) : before <+: t := by
  induction length : t.length using Nat.strong_induction_on generalizing t before with
  | _ n ih =>
    rcases splitText_cases t with ⟨u, passed, -, rfl, nonempty, eq⟩ | ⟨-, -, eq⟩ | ⟨-, -, eq⟩
    · rw [eq] at found
      obtain ⟨further, found', same⟩ := exists_of_map_eq_ok found
      obtain ⟨⟨before', text'⟩, rfl, same⟩ := Option.map_eq_some_iff.1 same
      cases same
      have shorter : u.length < n := by
        have some := List.length_pos_iff.2 nonempty
        rw [List.length_append] at length
        omega
      exact List.prefix_append_right_inj passed |>.2 (ih u.length shorter found' rfl)
    · cases (eq size).symm.trans found
    · rw [eq] at found
      split at found
      · cases found
        exact List.nil_prefix
      · cases found

/-- The name stands at the beginning of what is searched for markers. -/
theorem HasParts.isPrefix {split : Option (Text × Text)} {marked : Option (Text × List Attribute)} {name : Text}
    (parts : HasParts t split marked name) : name <+: element t split := by
  obtain ⟨attributes, -, same⟩ := exists_of_map_eq_ok parts.marked_eq
  rw [parts.name_eq, ← same]
  split
  · exact List.prefix_rfl
  · exact List.takeWhile_prefix _

/-- It stands at the beginning of the token. -/
theorem HasParts.isPrefix_source {source : Text} {multiplier : Multiplier} {split : Option (Text × Text)}
    {marked : Option (Text × List Attribute)} {name : Text} (cut : Multiplier.cut source = .ok (t, multiplier))
    (parts : HasParts t split marked name) : name <+: source := by
  have inElement : element t split <+: t := by
    cases split with
    | none => exact List.prefix_rfl
    | some found => exact splitText_isPrefix parts.split_eq
  have inSource : t <+: source := by
    rcases Multiplier.cut_cases cut with ⟨-, rfl, -⟩ | ⟨digits, found, -⟩
    · exact List.prefix_rfl
    · exact (List.prefix_append ..).trans (Multiplier.splitAtStar?_isPrefix found).1
  exact (parts.isPrefix.trans inElement).trans inSource

end Token

/-- At the beginning of what stands before the text of a token, characters that open no set are token characters or plus
signs. -/
theorem Text.IsFront.isChar_of_isPrefix {t name : Text} (front : t.IsFront) (begins : name <+: t)
    (plain : ∀ c ∈ name, c ≠ '[') : ∀ c ∈ name, isTokenChar c = true ∨ c = '+' := by
  induction front generalizing name with
  | nil =>
    rw [List.prefix_nil.1 begins]
    exact fun c inside => absurd inside List.not_mem_nil
  | @char c rest isChar later ih =>
    cases name with
    | nil => exact fun c inside => absurd inside List.not_mem_nil
    | cons e name =>
      obtain ⟨rfl, further⟩ := List.cons_prefix_cons.1 begins
      exact List.forall_mem_cons.2 ⟨isChar, ih further fun c inside => plain c (List.mem_cons_of_mem e inside)⟩
  | set balanced later ih =>
    cases name with
    | nil => exact fun c inside => absurd inside List.not_mem_nil
    | cons e name =>
      obtain ⟨rfl, -⟩ := List.cons_prefix_cons.1 begins
      exact absurd rfl (plain '[' List.mem_cons_self)

/-- There is no line feed in the name of a token that the scan has found. -/
theorem Token.HasParts.lineFeed_not_mem {t : Text} {split : Option (Text × Text)}
    {marked : Option (Text × List Attribute)} {name : Text} (scanned : t.IsScanned)
    (parts : HasParts t split marked name) : '\n' ∉ name := by
  intro inside
  have front := scanned.isFront_element parts.split_eq
  have plain := fun c inside => (plain_of_mem_name parts.named c inside).2.1
  exact absurd (front.isChar_of_isPrefix parts.isPrefix plain _ inside) (by decide)

/-- A node to which a token is assigned that can be read has no name, or a valid one, or a valid one with a line feed
behind it; in the last case the line feed is one of the token, and the scan does not take such tokens. A valid name, with
or without a line feed behind it, is a token that gives just itself as the name. -/
theorem Content.elementName_of_read (c : Content) :
    (∀ source said, Token.read source = (said, none) →
      (c.assign said).elementName = none ∨ ∃ name, IsName name ∧
        ((c.assign said).elementName = some name ∨
          (c.assign said).elementName = some (name ++ ['\n']) ∧ '\n' ∈ source ∧
            ∀ size t after, tokenRun size t ≠ .ok (source, after))) ∧
      ∀ name, IsName name → ∀ t ∈ [name, name ++ ['\n']],
        ∃ said, Token.read t = (said, none) ∧ (c.assign said).elementName = some t := by
  constructor
  · intro source said read
    obtain ⟨t, multiplier, split, marked, name, cut, parts, rfl⟩ := Token.read_eq_iff.1 read
    simp only [assign]
    rcases parts.named with rfl | named
    · exact .inl rfl
    · obtain ⟨valid, isName, same⟩ := isElementName_iff.1 named
      have nonempty : name ≠ [] := by
        rintro rfl
        cases named
      rw [if_neg nonempty]
      refine .inr ⟨valid, isName, ?_⟩
      rcases same with rfl | rfl
      · exact .inl rfl
      · have feed : '\n' ∈ valid ++ ['\n'] := by simp
        refine .inr ⟨rfl, (parts.isPrefix_source cut).subset feed, fun size text after run => ?_⟩
        exact parts.lineFeed_not_mem ((tokenRun_isScanned run).cut cut) feed
  · intro name isName t among
    have named : isElementName t = true := by
      simp only [List.mem_cons, List.not_mem_nil, or_false] at among
      exact isElementName_iff.2 ⟨name, isName, among⟩
    refine ⟨_, Token.read_of_isElementName named, ?_⟩
    have nonempty : t ≠ [] := by
      rintro rfl
      cases named
    simp [assign, nonempty]

/-- A name with a line feed behind it is accepted, although the scan would not take it into a token. -/
theorem Content.elementName_of_read_lineFeed :
    IsName ['a'] ∧
      (∃ said, Token.read ['a', '\n'] = (said, none) ∧ (({} : Content).assign said).elementName = some ['a', '\n']) ∧
      ∀ size t after, tokenRun size t ≠ .ok (['a', '\n'], after) := by
  obtain ⟨names, accepted⟩ := Content.elementName_of_read {}
  have isName : IsName ['a'] := ⟨['a'], List.cons_ne_nil _ _, List.all_eq_true.1 (by decide), .inl rfl⟩
  have feed : ∃ said, Token.read ['a', '\n'] = (said, none) ∧
      (({} : Content).assign said).elementName = some ['a', '\n'] :=
    accepted ['a'] isName ['a', '\n'] (by simp)
  refine ⟨isName, feed, ?_⟩
  obtain ⟨said, read, named⟩ := feed
  rcases names _ said read with none | ⟨name, valid, same | ⟨-, -, notTaken⟩⟩
  · cases named.symm.trans none
  · cases named.symm.trans same
    exact absurd valid.lineFeed_not_mem (by simp)
  · exact notTaken

end Shorthand
