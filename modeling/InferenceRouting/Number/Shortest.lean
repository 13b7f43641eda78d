import InferenceRouting.Number.Binary64

/-!
# The shortest decimal that reads back

`decimal` finds, for a double other than zero, the fewest digits `d` and a power of ten `k` with
`d * 10 ^ k` in the interval of reals that round to it; of several such the nearest.  `text`
lays the digits out: positionally while the decimal point stands at most sixteen places to the
right and four zeros to the left of the first digit, else with an exponent.
-/

namespace InferenceRouting.Shortest

/-- Whether `d * 10 ^ k` rounds to `x`, which is not zero. -/
def readsBack (x : Binary64) (d : Nat) (k : Int) : Bool :=
  let (num, den) := if 0 ≤ k then (d * Nat.pow 10 k.toNat, 1) else (d, Nat.pow 10 (-k).toNat)
  Binary64.ofRatio x.negative num den == some x

/-- The power of ten of the first digit of `num / den`: the `p` with `10^p ≤ num/den < 10^(p+1)`.
The first guess, from the number of bits, is off by at most one. -/
def leadingPower (num den : Nat) : Int :=
  let bits : Int := (Nat.log2 num : Int) - Nat.log2 den
  let guess : Int := (bits - 1) * 30103 / 100000 - 1
  let atMost (p : Int) : Bool :=
    if 0 ≤ p then Nat.pow 10 p.toNat * den ≤ num else den ≤ num * Nat.pow 10 (-p).toNat
  [guess + 3, guess + 2, guess + 1].find? atMost |>.getD guess

/-- The candidates with the last digit at `10 ^ k`: the neighbours of the value on that grid,
the nearer one first (a tie takes the even one first). -/
def candidates (num den : Nat) (k : Int) : List Nat :=
  let (n, d) := if 0 ≤ k then (num, den * Nat.pow 10 k.toNat) else (num * Nat.pow 10 (-k).toNat, den)
  let near := roundHalfEven n d
  let low := n / d
  [near, if near = low then low + 1 else low]

/-- Digits and power of ten of the shortest decimal that reads back as `x`. -/
def decimal (x : Binary64) : Nat × Int :=
  let (num, den) := x.ratio
  let lead := leadingPower num den
  let attempt (count : Nat) : Option (Nat × Int) :=
    let k := lead - (count : Int) + 1
    (candidates num den k).find? (readsBack x · k) |>.map (·, k)
  ((List.range 17).map (· + 1)).findSome? attempt |>.getD (0, 0)

/-- Drops zeros at the end of the digits, raising the power of ten. -/
def trim (digits : List Char) (k : Int) : List Char × Int :=
  let body := digits.reverse.dropWhile (· = '0')
  (body.reverse, k + (digits.length - body.length : Nat))

/-- The text of a double: `1.5`, `100.0`, `0.001`, `1e16`, `1.25e-7`. -/
def text (x : Binary64) : String :=
  let sign := if x.negative then "-" else ""
  if x.mantissa = 0 then sign ++ "0.0"
  else
    let (d, k) := decimal x
    let (ds, k) := trim (Decimal.digits d) k
    let point : Int := ds.length + k
    let body : List Char :=
      if 0 ≤ k && point ≤ 16 then ds ++ List.replicate k.toNat '0' ++ ['.', '0']
      else if 0 < point && point ≤ 16 then ds.take point.toNat ++ '.' :: ds.drop point.toNat
      else if -5 < point && point ≤ 0 then '0' :: '.' :: List.replicate (-point).toNat '0' ++ ds
      else
        let power := 'e' :: (Decimal.signed (point - 1)).toList
        match ds with
        | [c] => c :: power
        | c :: r => c :: '.' :: r ++ power
        | [] => power
    sign ++ String.ofList body

end InferenceRouting.Shortest
