import Shorthand.Text.Digit

/-! # Binary floating-point numbers

Numbers with a significand of 53 bits, kept as exact values so that reading and writing them is exact
arithmetic on natural numbers.

* **`Binary64.ofDecimal`** — the number nearest to a decimal number; a tie goes to the even significand.
* **`Binary64.shortest`** — the fewest decimal digits that read back as the number, and of those the nearest.
* **`Binary64.truncate?`** — the integer part. -/

namespace Shorthand

/-- A binary floating-point number of 64 bits. -/
inductive Binary64 where
  /-- No number. -/
  | nan
  /-- An infinity. -/
  | infinite (negative : Bool)
  /-- The number `significand * 2 ^ exponent` with a sign; zero has a sign, too. -/
  | finite (negative : Bool) (significand : Nat) (exponent : Int)
  deriving DecidableEq, Repr

namespace Binary64

/-- The least exponent of a significand. -/
def minExponent : Int := -1074

/-- The greatest exponent of a significand. -/
def maxExponent : Int := 971

/-- One more than the greatest significand. -/
def significandEnd : Nat := 9007199254740992

/-- The least significand of the numbers that use all bits. -/
def leastFull : Nat := 4503599627370496

/-- The numbers that use all bits are those from the least one up to its double. -/
theorem two_mul_leastFull : 2 * leastFull = significandEnd := rfl

/-- The quotient rounded to the nearest integer, a tie to the even one. -/
def roundedQuotient (num den : Nat) : Nat :=
  let q := num / den
  let r := num % den
  if 2 * r < den then q else if den < 2 * r then q + 1 else q + q % 2

/-- The numerator and the denominator of `num * base ^ exponent / den`. -/
def scaled (base num den : Nat) (exponent : Int) : Nat × Nat :=
  if 0 ≤ exponent then (num * Nat.pow base exponent.toNat, den)
  else (num, den * Nat.pow base (-exponent).toNat)

/-- The number nearest to a positive fraction. -/
def ofFraction (negative : Bool) (num den : Nat) : Binary64 :=
  let guess : Int := (num.log2 : Int) - den.log2 - 52
  let fits (q : Int) : Bool := let f := scaled 2 num den (-q); f.1 / f.2 < significandEnd
  let least := if fits (guess - 1) then guess - 1 else if fits guess then guess else guess + 1
  let q := max least minExponent
  let f := scaled 2 num den (-q)
  let m := roundedQuotient f.1 f.2
  let (m, q) := if m = significandEnd then (leastFull, q + 1) else (m, q)
  if maxExponent < q then .infinite negative else .finite negative m q

/-- The number nearest to `digits * 10 ^ exponent`. Decimal numbers far beyond the range are decided by their
length alone. -/
def ofDecimal (negative : Bool) (digits : Nat) (exponent : Int) : Binary64 :=
  let length : Int := (Nat.toDigits 10 digits).length
  if digits = 0 || length + exponent < -400 then .finite negative 0 minExponent
  else if 400 < length + exponent then .infinite negative
  else let f := scaled 10 digits 1 exponent; ofFraction negative f.1 f.2

/-- Whether a decimal number reads back as the given positive number: it lies between the middles to the
two neighbours, the middles included if the significand is even. -/
def readsBack (m : Nat) (q : Int) (digits : Nat) (exponent : Int) : Bool :=
  let below := if m = leastFull && minExponent < q then 1 else 2
  let d := scaled 10 digits 1 exponent
  let low := scaled 2 (4 * m - below) 1 (q - 2)
  let high := scaled 2 (4 * m + 2) 1 (q - 2)
  if m % 2 = 0 then low.1 * d.2 ≤ d.1 * low.2 && d.1 * high.2 ≤ high.1 * d.2
  else low.1 * d.2 < d.1 * low.2 && d.1 * high.2 < high.1 * d.2

/-- The number of the place before the decimal point at which a positive fraction begins: the greatest `e`
with `10 ^ e` no greater than the fraction. -/
def leadingPlace (num den : Nat) : Int :=
  let length (n : Nat) : Int := (Nat.toDigits 10 n).length
  let guess := length num - length den
  let f := scaled 10 1 1 guess
  if f.1 * den ≤ num * f.2 then guess else guess - 1

/-- The best decimal number with the given exponent that reads back as the given number, if there is one:
of the two around the number the nearer, of two equally near the even one. -/
def onGrid? (m : Nat) (q exponent : Int) : Option (Nat × Int) :=
  let v := scaled 2 m 1 q
  let f := scaled 10 v.1 v.2 (-exponent)
  let d := f.1 / f.2
  let nearer := roundedQuotient f.1 f.2
  let other := if nearer = d then d + 1 else d
  if readsBack m q nearer exponent then some (nearer, exponent)
  else if readsBack m q other exponent then some (other, exponent)
  else none

/-- The shortest decimal number that reads back as the given positive number, as digits and exponent. -/
def shortest (m : Nat) (q : Int) : Nat × Int :=
  let v := scaled 2 m 1 q
  let place := leadingPlace v.1 v.2
  ((List.range 17).findSome? fun (more : Nat) => onGrid? m q (place - more)).getD (m, q)

/-- The integer part of a number; nothing for an infinity and for what is no number. -/
def truncate? : Binary64 → Option Int
  | .finite negative m q =>
    let f := scaled 2 m 1 q
    let n : Int := (f.1 / f.2 : Nat)
    some (if negative then -n else n)
  | _ => none

/-- A number in scientific writing has its point after the first digit and an exponent of two digits at
least. -/
def scientific (digits : Text) (place : Int) : Text :=
  let mantissa := match digits with
    | [] => []
    | [d] => [d]
    | d :: rest => d :: '.' :: rest
  let size := Text.ofNat place.natAbs
  let padded := if size.length < 2 then '0' :: size else size
  mantissa ++ 'e' :: (if place < 0 then '-' else '+') :: padded

/-- A number in positional writing has at least one digit on each side of the point. -/
def positional (digits : Text) (place : Int) : Text :=
  if place < 0 then '0' :: '.' :: (List.replicate (-place - 1).toNat '0' ++ digits)
  else
    let whole := digits.take (place.toNat + 1)
    let part := digits.drop (place.toNat + 1)
    whole ++ List.replicate (place.toNat + 1 - whole.length) '0' ++
      '.' :: (if part = [] then ['0'] else part)

/-- The text of a positive number: the shortest digits, positional from `10 ^ -4` up to `10 ^ 16`, and
scientific outside of that. -/
def digitsText (m : Nat) (q : Int) : Text :=
  let (n, exponent) := shortest m q
  let written := Text.ofNat n
  let digits := (written.reverse.dropWhile (· == '0')).reverse
  let place := exponent + written.length - 1
  if place < -4 || 16 ≤ place then scientific digits place else positional digits place

/-- The text of a number. -/
def text : Binary64 → Text
  | .nan => ['n', 'a', 'n']
  | .infinite negative => (if negative then ['-'] else []) ++ ['i', 'n', 'f']
  | .finite negative m q =>
    (if negative then ['-'] else []) ++ (if m = 0 then ['0', '.', '0'] else digitsText m q)

end Binary64

end Shorthand
