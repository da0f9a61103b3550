import Shorthand.Text.Integer

/-! # Multipliers

A star repeats an element or a group. Digits after it say how often; without digits the number is left to
whoever renders the tree. At the end of a token a multiplier is cut off, after a group it is read on. -/

namespace Shorthand

/-- What stands where a multiplier may stand. -/
inductive Multiplier where
  /-- No multiplier. -/
  | absent
  /-- A star without a number. -/
  | bare
  /-- A star with a number of repetitions. -/
  | times (count : Int)
  deriving DecidableEq, Repr

namespace Multiplier

/-- The multiplier of a number, where zero stands for once. -/
def ofInt (n : Int) : Multiplier := .times (if n = 0 then 1 else n)

/-- The multiplier of a star that the given digits follow. -/
def ofDigits (digits : Text) : Except IntegerFault Multiplier :=
  if digits = [] then .ok .bare else (Text.readDigits digits).map fun n => ofInt n

/-- The multiplier of a count that is written as an integer literal; no literal stands for a bare star. -/
def ofLiteral (literal : Text) : Except IntegerFault Multiplier :=
  if literal = [] then .ok .bare else (Text.readInteger literal).map ofInt

/-- The multiplier of a number that a caller gives; zero stands for a bare star. -/
def ofCount (n : Int) : Multiplier := if n = 0 then .bare else .times n

/-- Whether a text is nothing but digits, apart from one line feed that may follow them. -/
def isDigitTail (t : Text) : Bool :=
  let rest := t.dropWhile Text.isDigit
  rest == [] || rest == ['\n']

/-- The text before the star of a trailing multiplier, and the digits after the star. -/
def splitAtStar? : Text → Option (Text × Text)
  | [] => none
  | c :: rest =>
    if c = '*' && isDigitTail rest then some ([], rest.takeWhile Text.isDigit)
    else (splitAtStar? rest).map fun found => (c :: found.1, found.2)

/-- Cut a trailing multiplier off a text. A line feed after it goes with it. -/
def cut (t : Text) : Except IntegerFault (Text × Multiplier) :=
  match splitAtStar? t with
  | none => .ok (t, .absent)
  | some (rest, digits) => (ofDigits digits).map fun multiplier => (rest, multiplier)

/-- Read the multiplier at the beginning of a text, and give what follows it. -/
def read : Text → Except IntegerFault (Multiplier × Text)
  | '*' :: rest =>
    (ofDigits (rest.takeWhile Text.isDigit)).map fun multiplier =>
      (multiplier, rest.dropWhile Text.isDigit)
  | t => .ok (.absent, t)

/-- Nothing is cut off, or a star and the digits after it. -/
theorem cut_cases {t rest : Text} {m : Multiplier} (h : cut t = .ok (rest, m)) :
    (splitAtStar? t = none ∧ rest = t ∧ m = .absent) ∨
      ∃ digits, splitAtStar? t = some (rest, digits) ∧ ofDigits digits = .ok m := by
  unfold cut at h
  split at h
  · next found =>
    cases h
    exact .inl ⟨found, rfl, rfl⟩
  · next before digits found =>
    cases value : ofDigits digits with
    | error fault => simp [value, Except.map] at h
    | ok multiplier =>
      simp only [value, Except.map, Except.ok.injEq, Prod.mk.injEq] at h
      obtain ⟨rfl, rfl⟩ := h
      exact .inr ⟨digits, found, value⟩

/-- Nothing is read, or a star and the digits after it. -/
theorem read_cases {t rest : Text} {m : Multiplier} (h : read t = .ok (m, rest)) :
    (rest = t ∧ m = .absent) ∨
      ∃ after, t = '*' :: after ∧ ofDigits (after.takeWhile Text.isDigit) = .ok m ∧
        rest = after.dropWhile Text.isDigit := by
  unfold read at h
  split at h
  · next after =>
    cases value : ofDigits (after.takeWhile Text.isDigit) with
    | error fault => simp [value, Except.map] at h
    | ok multiplier =>
      simp only [value, Except.map, Except.ok.injEq, Prod.mk.injEq] at h
      obtain ⟨rfl, rfl⟩ := h
      exact .inr ⟨after, rfl, value, rfl⟩
  · cases h
    exact .inl ⟨rfl, rfl⟩

/-- What follows a multiplier that is read stands at the end of the text. -/
theorem read_isSuffix {t rest : Text} {m : Multiplier} (h : read t = .ok (m, rest)) : rest <:+ t := by
  rcases read_cases h with ⟨rfl, -⟩ | ⟨after, rfl, -, rfl⟩
  · exact List.suffix_rfl
  · exact (List.dropWhile_suffix _).trans (List.suffix_cons '*' after)

/-- A multiplier that is read uses up no more than the text. -/
theorem read_length_le {t rest : Text} {m : Multiplier} (h : read t = .ok (m, rest)) :
    rest.length ≤ t.length := (read_isSuffix h).length_le

end Multiplier

end Shorthand
