import InferenceRouting.Text.Decimal

/-!
# Time

Every operation of the library is told the time: a natural number, the count of milliseconds on a
monotonic clock that starts at zero.  The wall clock is the same count from a fixed epoch.  An
instant of the wall clock is written as an RFC 3339 date-time in UTC, with a fraction of three
digits when the milliseconds are not zero.

What is told in seconds is worked out for a clock of any resolution: `perSecond` is the number of
its ticks in a second, and `ticksPerSecond` that of the library's own clock.
-/

namespace InferenceRouting

namespace Clock

/-- The number of milliseconds in a second. -/
def ticksPerSecond : Nat := 1000

/-- A span as whole seconds, a fraction of a second counted as one. -/
def secondsUp (perSecond span : Nat) : Nat :=
  span / perSecond + if span % perSecond = 0 then 0 else 1

/-- The whole milliseconds in a span. -/
def millis (perSecond span : Nat) : Nat :=
  span * 1000 / perSecond

/-- A span of milliseconds as it is published: in a word of 64 bits, which keeps of a longer one the
lower bits alone. -/
def published (span : Nat) : Nat :=
  span % UInt64.size

/-- The wall clock at monotonic time zero, in milliseconds since 1970-01-01. -/
def epochMillis : Nat := 1700000000000

/-- The wall clock at time `t`, in milliseconds since 1970-01-01. -/
def wallMillis (t : Nat) : Nat :=
  epochMillis + t

/-- The date `days` after 1970-01-01 as year, month and day.  Years are counted from March, so that
the leap day is the last day of a year and every month but the last has a fixed place. -/
def civil (days : Nat) : Nat × Nat × Nat :=
  let z := days + 719468
  let era := z / 146097
  let doe := z % 146097
  let yoe := (doe - doe / 1460 + doe / 36524 - doe / 146096) / 365
  let doy := doe - (365 * yoe + yoe / 4 - yoe / 100)
  let mp := (5 * doy + 2) / 153
  let day := doy - (153 * mp + 2) / 5 + 1
  let month := if mp < 10 then mp + 3 else mp - 9
  let year := yoe + era * 400 + (if month ≤ 2 then 1 else 0)
  (year, month, day)

/-- RFC 3339 text of an instant given in milliseconds since 1970-01-01. -/
def dateTimeText (millis : Nat) : String :=
  let ms := millis % 1000
  let secs := millis / 1000
  let (year, month, day) := civil (secs / 86400)
  let s := secs % 86400
  let date := Decimal.padded 4 year ++ "-" ++ Decimal.padded 2 month ++ "-" ++ Decimal.padded 2 day
  let time := Decimal.padded 2 (s / 3600) ++ ":" ++ Decimal.padded 2 (s / 60 % 60) ++ ":"
    ++ Decimal.padded 2 (s % 60)
  let fraction := if ms = 0 then "" else "." ++ Decimal.padded 3 ms
  date ++ "T" ++ time ++ fraction ++ "Z"

/-- RFC 3339 text of the wall clock at time `t`. -/
def wallText (t : Nat) : String :=
  dateTimeText (wallMillis t)

end Clock

end InferenceRouting
