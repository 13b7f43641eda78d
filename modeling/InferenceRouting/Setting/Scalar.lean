import InferenceRouting.Json.Tree

/-!
# Numerals in settings

The notation of decimal and hexadecimal numbers that the formats of settings share.
-/

namespace InferenceRouting.Scalar

/-- A text without its sign, if it has one. -/
def unsigned : List Char → List Char
  | '+' :: r => r
  | '-' :: r => r
  | cs => cs

/-- Whether a text is empty or an exponent: a letter `e`, a sign, and at least one digit. -/
def isExponent : List Char → Bool
  | [] => true
  | c :: r => (c = 'e' || c = 'E') && !(unsigned r).isEmpty && (unsigned r).all Char.isDigit

/-- Whether a text is a decimal number: a sign, digits with at most one point among them, and an
exponent.  At least one digit is needed before the exponent; sign, point and exponent may be
missing. -/
def isDecimal (cs : List Char) : Bool :=
  let body := unsigned cs
  let whole := body.takeWhile Char.isDigit
  match body.dropWhile Char.isDigit with
  | '.' :: rest =>
    let part := rest.takeWhile Char.isDigit
    !(whole.isEmpty && part.isEmpty) && isExponent (rest.dropWhile Char.isDigit)
  | rest => !whole.isEmpty && isExponent rest

/-- A number with a minus sign that fits 64 bits. -/
def negative? : List Char → Option Int
  | '-' :: r =>
    if r.isEmpty || !r.all Char.isDigit then none
    else if Json.minInt64 ≤ -(Decimal.value r : Int) then some (-(Decimal.value r : Int)) else none
  | _ => none

/-- The value of digits in a base. -/
def valueIn (base : Nat) (cs : List Char) : Nat :=
  cs.foldl (fun acc c => acc * base + (if c.isDigit then c.toNat - 48
    else if 'a' ≤ c ∧ c ≤ 'f' then c.toNat - 87 else c.toNat - 55)) 0

/-- Whether a character is a digit in base two, eight, ten or sixteen. -/
def isDigitIn (base : Nat) (c : Char) : Bool :=
  if base = 16 then c.isDigit || ('a' ≤ c && c ≤ 'f') || ('A' ≤ c && c ≤ 'F')
  else c.isDigit && c.toNat - 48 < base

/-- The character with a number of hexadecimal digits. -/
def hexChar? (count : Nat) (cs : List Char) : Option (Char × List Char) := do
  let digits := cs.take count
  if digits.length < count then none
  else
    let values ← digits.mapM Json.Tree.hexValue
    let code := values.foldl (fun acc d => acc * 16 + d) 0
    if code.isValidChar then some (Char.ofNat code, cs.drop count) else none

/-- A hexadecimal digit in upper case. -/
def upperHex (d : Nat) : Char :=
  if d < 10 then Char.ofNat (48 + d) else Char.ofNat (55 + d)

end InferenceRouting.Scalar
