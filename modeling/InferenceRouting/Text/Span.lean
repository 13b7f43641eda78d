import InferenceRouting.Text.Decimal

/-!
# Lengths of time as text

A length of time is shown in the largest of the units s, ms, µs and ns that is at most the length,
as a decimal fraction without trailing zeros: `1.5s`, `10ms`, `1.001µs`, `0ns`.
-/

namespace InferenceRouting.Span

/-- `whole` and a fraction of `places` digits, trailing zeros dropped. -/
def fraction (whole part places : Nat) (unit : String) : String :=
  let digits := (Decimal.padded places part).toList.reverse.dropWhile (· = '0')
  let tail := if digits.isEmpty then "" else "." ++ String.ofList digits.reverse
  Decimal.text whole ++ tail ++ unit

/-- The text of a length of time given in nanoseconds. -/
def text (nanos : Nat) : String :=
  if 1000000000 ≤ nanos then fraction (nanos / 1000000000) (nanos % 1000000000) 9 "s"
  else if 1000000 ≤ nanos then fraction (nanos / 1000000) (nanos % 1000000) 6 "ms"
  else if 1000 ≤ nanos then fraction (nanos / 1000) (nanos % 1000) 3 "µs"
  else Decimal.text nanos ++ "ns"

/-- The text of a length of time given in milliseconds. -/
def ofMillis (ms : Nat) : String :=
  text (ms * 1000000)

end InferenceRouting.Span
