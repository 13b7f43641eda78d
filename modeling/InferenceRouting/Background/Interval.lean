import InferenceRouting.Clock

/-!
# Regular intervals

A periodic task is due at fixed points a period apart.  A tick that comes late by at most
`Interval.slack` leaves the points where they are; after a later one they start anew, a full period
after the tick.
-/

namespace InferenceRouting.Interval

/-- How late a tick may be without moving the later ones, in milliseconds. -/
def slack : Nat := 5

/-- The next point after the one at `due`, whose tick came at `now`. -/
def next (period : Nat) (due now : Nat) : Nat :=
  if due + slack < now then now + period else due + period

/-- A tick on time leaves the points a period apart. -/
theorem next_self (period : Nat) (due : Nat) : next period due due = due + period := by
  simp [next]

/-- The point after a tick that is not early is at most a period away. -/
theorem next_le {period due now : Nat} (h : due ≤ now) : next period due now ≤ now + period := by
  unfold next; split <;> omega

end InferenceRouting.Interval
