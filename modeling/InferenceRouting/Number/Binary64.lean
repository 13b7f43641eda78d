import InferenceRouting.Text.Decimal

/-!
# Double precision numbers

A finite double is a sign, a mantissa below 2^53 and a power of two.  Every operation computes the
exact rational result and rounds it once, to the nearest double and to the even mantissa on a tie;
`none` stands for a result beyond the largest double.

`sixPlaces` writes a double with exactly six decimals, rounded from its exact value.
-/

namespace InferenceRouting

/-- `num / den` rounded to the nearest integer, a tie to the even one. -/
def roundHalfEven (num den : Nat) : Nat :=
  let q := num / den
  let r := num % den
  if 2 * r < den then q else if den < 2 * r then q + 1 else q + q % 2

/-- A finite double: `mantissa * 2 ^ exponent` with a sign.  Values made by `ofRatio` are
normalised: the mantissa has 53 bits, or the exponent is the least one. -/
structure Binary64 where
  negative : Bool
  mantissa : Nat
  exponent : Int
  deriving DecidableEq, Repr, Inhabited

namespace Binary64

/-- The least exponent, that of the subnormal numbers. -/
def minExponent : Int := -1074

/-- The exponent of the largest doubles. -/
def maxExponent : Int := 971

/-- Zero with a sign. -/
def zero (negative : Bool) : Binary64 := ⟨negative, 0, minExponent⟩

/-- `num / (den * 2 ^ e)` as a fraction of natural numbers. -/
def scale (num den : Nat) (e : Int) : Nat × Nat :=
  if 0 ≤ e then (num, den * Nat.pow 2 e.toNat) else (num * Nat.pow 2 (-e).toNat, den)

/-- The exponent with which `num / den` has a mantissa of 53 bits, but at least the least one. -/
def pickExponent (num den : Nat) : Int :=
  let guess : Int := (Nat.log2 num : Int) - Nat.log2 den - 53
  let (n, d) := scale num den guess
  -- The quotient by 2 ^ guess lies between 2 ^ 52 and 2 ^ 54.
  let e := if n / d < Nat.pow 2 53 then guess else guess + 1
  if e < minExponent then minExponent else e

/-- The double nearest to `num / den`; `none` when that lies beyond the largest double. -/
def ofRatio (negative : Bool) (num den : Nat) : Option Binary64 :=
  if num = 0 then some (zero negative)
  else
    let e := pickExponent num den
    let (n, d) := scale num den e
    let m := roundHalfEven n d
    let (m, e) := if m = Nat.pow 2 53 then (Nat.pow 2 52, e + 1) else (m, e)
    if maxExponent < e then none else some ⟨negative, m, e⟩

/-- The magnitude as an exact fraction. -/
def ratio (x : Binary64) : Nat × Nat :=
  if 0 ≤ x.exponent then (x.mantissa * Nat.pow 2 x.exponent.toNat, 1)
  else (x.mantissa, Nat.pow 2 (-x.exponent).toNat)

/-- The double nearest to a natural number. -/
def ofNat? (n : Nat) : Option Binary64 :=
  ofRatio false n 1

/-- The double nearest to an integer; zero when it is out of range, which no 64-bit integer is. -/
def ofInt (n : Int) : Binary64 :=
  (ofRatio (n < 0) n.natAbs 1).getD (zero false)

/-- Product, rounded once. -/
def mul (x y : Binary64) : Option Binary64 :=
  let (a, b) := x.ratio
  let (c, d) := y.ratio
  ofRatio (x.negative != y.negative) (a * c) (b * d)

/-- Quotient by a number other than zero, rounded once. -/
def div (x y : Binary64) : Option Binary64 :=
  let (a, b) := x.ratio
  let (c, d) := y.ratio
  ofRatio (x.negative != y.negative) (a * d) (b * c)

/-- Sum of two numbers that are not negative, rounded once. -/
def addMagnitudes (x y : Binary64) : Option Binary64 :=
  let (a, b) := x.ratio
  let (c, d) := y.ratio
  ofRatio false (a * d + c * b) (b * d)

/-- The number with its sign turned. -/
def neg (x : Binary64) : Binary64 :=
  { x with negative := !x.negative }

/-- Exactly six decimals, rounded from the exact value, a tie to the even last digit. -/
def sixPlaces (x : Binary64) : String :=
  let (a, b) := x.ratio
  let scaled := roundHalfEven (a * 1000000) b
  (if x.negative then "-" else "") ++ Decimal.text (scaled / 1000000) ++ "."
    ++ Decimal.padded 6 (scaled % 1000000)

end Binary64

end InferenceRouting
