import Shorthand.Text.CaseTable

/-! # Lower and upper case

Texts are compared without regard to case through their lower-case form, and the names of log levels are
brought to upper case. Both forms may be longer than the text, and the lower-case form of a capital sigma
depends on its neighbours: at the end of a word it is the final sigma. -/

namespace Shorthand.Text

/-- The letter's other case by a table of stretches, if the table has it. -/
def shifted? (runs : List CaseRun) (c : Char) : Option Char :=
  let n := c.toNat
  (runs.find? fun r => r.first ≤ n && n ≤ r.last && (n - r.first) % r.step == 0).map
    fun r => Char.ofNat ((n : Int) + r.shift).toNat

/-- The lower-case form of one character, wherever it stands. Only the dotted capital I has a form of two
characters, the small i and a combining dot. -/
def lowerForm (c : Char) : Text :=
  if c = '\u0130' then ['i', '\u0307'] else [(shifted? lowerRuns c).getD c]

/-- The upper-case form of one character. -/
def upperForm (c : Char) : Text :=
  match upperForms.lookup c.toNat with
  | some form => form.map Char.ofNat
  | none => [(shifted? upperRuns c).getD c]

/-- Whether the first character that is not passed over is a letter that has a case. -/
def facesCased (t : Text) : Bool :=
  match t.dropWhile (inRuns caseIgnorableRuns) with
  | [] => false
  | c :: _ => inRuns casedRuns c

/-- Lower case of a text whose preceding characters, the nearest first, are `before`. A capital sigma
becomes the final sigma if a cased letter precedes it and none follows. -/
def lowerAfter (before : Text) : Text → Text
  | [] => []
  | c :: rest =>
    (if c = 'Σ' then [if facesCased before && !facesCased rest then 'ς' else 'σ']
      else lowerForm c) ++ lowerAfter (c :: before) rest

/-- The lower-case form of a text. -/
def lower (t : Text) : Text := lowerAfter [] t

/-- The upper-case form of a text. -/
def upper (t : Text) : Text := t.flatMap upperForm

@[simp] theorem lower_nil : lower [] = [] := rfl

@[simp] theorem upper_nil : upper [] = [] := rfl

/-- The upper-case form is taken character by character. -/
@[simp] theorem upper_append (t u : Text) : upper (t ++ u) = upper t ++ upper u := by
  simp [upper]

end Shorthand.Text
