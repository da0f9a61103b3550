import Shorthand.Text.Basic

/-! # Sets of characters as run lengths

A set of characters that falls into stretches is written as the lengths of its stretches, in the order of
the code points: first how many characters are outside, then how many inside, and so on in turn. -/

namespace Shorthand.Text

/-- Walk along the stretches: `inside` says on which side of the set the first of them lies, and what
follows the last one lies outside. -/
def runsContain (inside : Bool) : List Nat → Nat → Bool
  | [], _ => false
  | n :: rest, k => if k < n then inside else runsContain (!inside) rest (k - n)

/-- Whether a character belongs to the set with the given stretches. -/
def inRuns (runs : List Nat) (c : Char) : Bool := runsContain false runs c.toNat

@[simp] theorem runsContain_nil (inside : Bool) (k : Nat) : runsContain inside [] k = false := rfl

/-- A character before the end of the first stretch lies on the side of that stretch. -/
theorem runsContain_of_lt {inside : Bool} {n k : Nat} {rest : List Nat} (h : k < n) :
    runsContain inside (n :: rest) k = inside := by simp [runsContain, h]

end Shorthand.Text
