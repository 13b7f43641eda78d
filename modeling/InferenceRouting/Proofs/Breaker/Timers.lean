import InferenceRouting.Proofs.Breaker.Lateness

/-!
# The timers of a breaker

Each opening of a circuit starts a timer, and a circuit may open often: it is tripped while it is
open, it reopens in a period of probing, it is reset and opens again.  `timersBegun` follows a run
from outside and lists the timers of all its openings, also of those that are long over.

The timers do not pile up.  What carries the proof is `Holds`: while the circuit is open the last
timer of the list is the only one that has neither rung nor been cancelled, and otherwise there is
none.  An opening cancels the timer before it and begins a generation (`step_of_opens`); whatever
else happens to an open circuit leaves its timer alone or ends the cool-down (`generation_of_open`).

A timer that has rung or been cancelled does nothing any more, even if the cancellation came too late
for it (`ring_of_gone`).
-/

namespace InferenceRouting

namespace Breaker

variable {b : Breaker} {now : Nat}

/-! ### Open circuits -/

theorem generation_judge (b : Breaker) (now : Nat) : (b.judge now).1.generation = b.generation := by
  unfold judge
  split
  · rfl
  · rfl
  · split <;> rfl

/-- A look leaves an open circuit in its generation, or ends the cool-down. -/
theorem generation_refresh (h : (b.refresh now).state = .open) :
    (b.refresh now).generation = b.generation := by
  by_cases hover : b.Overdue now
  · rw [refresh_of_overdue hover, state_toHalfOpen] at h
    cases h
  · rw [refresh_of_not_overdue hover]

theorem generation_enter (h : (b.enter now).1.state = .open) :
    (b.enter now).1.generation = b.generation := by
  rw [enter_eq] at h ⊢
  have hstate := (Prod.mk.inj (clock_judge (b.countRequest.refresh now) now)).1
  rw [generation_judge, generation_refresh (hstate.symm.trans h)]
  rfl

/-- The end of a call leaves an open circuit in its generation. -/
theorem generation_settle (h : b.state = .open) (now : Nat) (a : Admission) (v : Verdict) :
    (b.settle now a v).generation = b.generation := by
  cases v with
  | success =>
      have hopen : (b.noteSuccess now).state = .open := h
      simp only [settle, releaseProbe_of_open h, recordSuccess_eq, credit_of_open hopen]
      rfl
  | failure =>
      rw [settle_failure_of_open h]
      rfl
  | neutral => simp only [settle, releaseProbe_of_open h]

theorem generation_fireTimer {generation : Nat} (h : (b.fireTimer generation).state = .open) :
    (b.fireTimer generation).generation = b.generation := by
  unfold fireTimer at h ⊢
  dsimp only at h ⊢
  split at h
  · rw [state_toHalfOpen] at h
    cases h
  · rename_i hother
    rw [if_neg hother]

theorem timersEnabled_fireTimer (b : Breaker) (generation : Nat) :
    (b.fireTimer generation).timersEnabled = b.timersEnabled := by
  unfold fireTimer
  dsimp only
  split
  · rw [toHalfOpen_eq]
  · rfl

/-- The timer that ends the cool-down that began at `opened`. -/
def timerFrom (b : Breaker) (opened : Nat) : ResetTimer :=
  ⟨b.generation, opened + b.config.resetTimeout⟩

/-- While timers can be started, an open circuit has one. -/
theorem Armed.timers_of_open (h : b.Armed) (henabled : b.timersEnabled = true)
    (hopen : b.state = .open) :
    ∃ opened, b.openedAt = some opened ∧ b.timers = [b.timerFrom opened] := by
  obtain ⟨-, opened, hopened, htimers⟩ := h.opened hopen
  rw [henabled, if_pos rfl] at htimers
  exact ⟨opened, hopened, htimers⟩

/-- A circuit has a timer only while it is open. -/
theorem Armed.open_of_mem {t : ResetTimer} (h : b.Armed) (ht : t ∈ b.timers) :
    b.state = .open := by
  by_cases hopen : b.state = .open
  · exact hopen
  · rw [(h.idle hopen).2] at ht
    cases ht

theorem Armed.timers_ne_nil_iff (h : b.Armed) (henabled : b.timersEnabled = true) :
    b.timers ≠ [] ↔ b.state = .open := by
  constructor
  · intro hsome
    obtain ⟨t, ht⟩ := List.exists_mem_of_ne_nil _ hsome
    exact h.open_of_mem ht
  · intro hopen
    obtain ⟨opened, -, htimers⟩ := h.timers_of_open henabled hopen
    rw [htimers]
    exact List.cons_ne_nil _ _

theorem Armed.length_timers_le (h : b.Armed) : b.timers.length ≤ 1 := by
  by_cases hopen : b.state = .open
  · obtain ⟨-, opened, -, htimers⟩ := h.opened hopen
    rw [htimers]
    split
    · exact Nat.le_refl 1
    · exact Nat.zero_le 1
  · rw [(h.idle hopen).2]
    exact Nat.zero_le 1

/-- A timer that was started, and is not there any more, does nothing when it rings. -/
theorem Dated.fireTimer_of_gone {started : List ResetTimer} {t : ResetTimer}
    (h : b.Dated started) (henabled : b.timersEnabled = true) (ht : t ∈ started)
    (hgone : t ∉ b.timers) : b.fireTimer t.generation = b := by
  by_cases hopen : b.state = .open
  · obtain ⟨opened, hopened, htimers⟩ := h.armed.timers_of_open henabled hopen
    -- in the generation of the opening there is no timer but that one
    have hother : b.generation ≠ t.generation := by
      intro hsame
      obtain ⟨opened', hopened', hdue⟩ := h.due t ht hopen hsame.symm
      obtain rfl := Option.some.inj (hopened.symm.trans hopened')
      refine hgone ?_
      rw [htimers, List.mem_singleton, timerFrom, hsame, ← hdue]
    have hkept : b.timers.filter (·.generation ≠ t.generation) = b.timers := by
      simp [htimers, timerFrom, hother]
    unfold fireTimer
    dsimp only
    rw [hkept, if_neg fun hrings => hother hrings.2]
  · have hnone := (h.armed.idle hopen).2
    rw [fireTimer, hnone, List.filter_nil, ← hnone]
    exact if_neg fun hrings => hopen hrings.1

end Breaker

namespace BreakerRun

variable {α : Type} {r : BreakerRun} {now : Nat} {e : BreakerEvent α} {begun : List ResetTimer}

/-- Whether an event opens the circuit: it is tripped, or is open without having been so. -/
def opens (r : BreakerRun) (now : Nat) : BreakerEvent α → Bool
  | .trip => true
  | e => r.breaker.state != .open && (r.step now e).1.breaker.state == .open

/-- The timers of all openings after one more event. -/
def noteTimer (r : BreakerRun) (begun : List ResetTimer) (now : Nat) (e : BreakerEvent α) :
    List ResetTimer :=
  if r.opens now e then begun ++ [(r.step now e).1.breaker.timerFrom now] else begun

/-- The timers of all openings after some events, each due when the cool-down is over that begins
then. -/
def timersBegun (r : BreakerRun) (begun : List ResetTimer) :
    List (Nat × BreakerEvent α) → List ResetTimer
  | [] => begun
  | e :: rest => (r.step e.1 e.2).1.timersBegun (r.noteTimer begun e.1 e.2) rest

/-- What a run holds of its timers: no more than the last one, and only while the circuit is
open. -/
structure Holds (r : BreakerRun) (begun : List ResetTimer) : Prop where
  dated : r.Dated
  enabled : r.breaker.timersEnabled = true
  started : ∀ t, t ∈ r.started ↔ t ∈ begun
  order : begun.Pairwise fun t u => t.generation < u.generation
  last : r.breaker.state = .open → r.breaker.timers = begun.getLast?.toList

theorem holds_new (name : String) (config : BreakerConfig) : (new name config true).Holds [] :=
  ⟨dated_new name config true, rfl, fun _ => Iff.rfl, .nil, fun hopen => by cases hopen⟩

/-- Timers can be started until they are stopped. -/
theorem timersEnabled_of_running (hrunning : e ≠ .stopTimers) (r : BreakerRun) (now : Nat) :
    (r.step now e).1.breaker.timersEnabled = r.breaker.timersEnabled := by
  cases e with
  | stopTimers => exact absurd rfl hrunning
  | ring timer =>
      simp only [step, ring]
      split
      · exact Breaker.timersEnabled_fireTimer r.breaker timer.generation
      · rfl
  | _ => exact timersEnabled_step rfl r now

/-- Unless it is tripped, a circuit that was open and is still open has the same generation. -/
theorem generation_of_open (htrip : e ≠ .trip) (hopen : r.breaker.state = .open)
    (hopen' : (r.step now e).1.breaker.state = .open) :
    (r.step now e).1.breaker.generation = r.breaker.generation := by
  cases e with
  | start =>
      rw [breaker_start] at hopen' ⊢
      exact Breaker.generation_enter hopen'
  | finish call result =>
      simp only [step, finish]
      split
      · exact Breaker.generation_settle hopen now _ _
      · rfl
  | abandon call =>
      simp only [step, abandon]
      split
      · exact Breaker.generation_settle hopen now _ .neutral
      · rfl
  | trip => exact absurd rfl htrip
  | reset => simp [step, become, Breaker.reset_eq] at hopen'
  | state => exact Breaker.generation_refresh hopen'
  | available => exact Breaker.generation_refresh hopen'
  | failureCount => rfl
  | report => exact Breaker.generation_refresh hopen'
  | ring timer =>
      simp only [step, ring] at hopen' ⊢
      split at hopen'
      · rename_i hrings
        rw [if_pos hrings]
        exact Breaker.generation_fireTimer hopen'
      · rename_i hearly
        rw [if_neg hearly]
  | stopTimers => rfl

/-- An event that is no trip opens the circuit if it is open afterwards and was not before. -/
theorem opens_of_ne_trip (htrip : e ≠ .trip) : r.opens now e = true ↔
    r.breaker.state ≠ .open ∧ (r.step now e).1.breaker.state = .open := by
  cases e with
  | trip => exact absurd rfl htrip
  | _ => simp [opens]

/-- **Step theorem.**  An opening begins a cool-down and a generation. -/
theorem step_of_opens (h : r.Dated) (hopens : r.opens now e = true) :
    (r.step now e).1.breaker.state = .open ∧ (r.step now e).1.breaker.openedAt = some now ∧
      r.breaker.generation < (r.step now e).1.breaker.generation := by
  by_cases htrip : e = .trip
  · subst htrip
    simp [step, become, Breaker.trip, Breaker.toOpen_eq]
  · obtain ⟨hne, hopen⟩ := (opens_of_ne_trip htrip).mp hopens
    have hreset : e ≠ .reset := by
      rintro rfl
      simp [step, become, Breaker.reset_eq] at hopen
    have hadvances := (step_turns r now e).advances
    have hgeneration : r.breaker.generation < (r.step now e).1.breaker.generation :=
      Nat.lt_of_le_of_ne hadvances.generation fun heq =>
        hne (hadvances.opened heq.symm hopen).1
    cases step_cools h now htrip hreset with
    | begins _ _ hnow => exact ⟨hopen, hnow, hgeneration⟩
    | goesOn hopen' => exact absurd hopen' hne
    | ends hover => exact absurd hover.1 hne
    | idle _ hne' => exact absurd hopen hne'

/-- **Step theorem.**  Without an opening no timer is started. -/
theorem timers_of_not_opens (h : r.Dated) (henabled : r.breaker.timersEnabled = true)
    (hrunning : e ≠ .stopTimers) (hopens : r.opens now e = false) :
    (r.step now e).1.breaker.state = .open →
      r.breaker.state = .open ∧ (r.step now e).1.breaker.timers = r.breaker.timers := by
  intro hopen'
  have htrip : e ≠ .trip := by
    rintro rfl
    cases hopens
  have hopen : r.breaker.state = .open := by
    by_cases hopen : r.breaker.state = .open
    · exact hopen
    · rw [(opens_of_ne_trip htrip).mpr ⟨hopen, hopen'⟩] at hopens
      cases hopens
  have hadvances := (step_turns r now e).advances
  have hgeneration := generation_of_open htrip hopen hopen'
  have henabled' := (timersEnabled_of_running hrunning r now).trans henabled
  obtain ⟨since, hsince, htimers⟩ := h.armed.timers_of_open henabled hopen
  obtain ⟨since', hsince', htimers'⟩ :=
    (step_dated h now e).armed.timers_of_open henabled' hopen'
  have hsame : some since' = some since :=
    hsince'.symm.trans ((hadvances.opened hgeneration hopen').2.trans hsince)
  cases hsame
  refine ⟨hopen, ?_⟩
  rw [htimers', htimers, Breaker.timerFrom, Breaker.timerFrom, hgeneration, hadvances.config]

/-- **Step theorem.**  A run goes on holding no timer but the last one. -/
theorem Holds.step (h : r.Holds begun) (hrunning : e ≠ .stopTimers) (now : Nat) :
    (r.step now e).1.Holds (r.noteTimer begun now e) := by
  have hdated' := step_dated h.dated now e
  have henabled' := (timersEnabled_of_running hrunning r now).trans h.enabled
  unfold noteTimer
  cases hopens : r.opens now e with
  | true =>
      obtain ⟨hopen, hsince, hlt⟩ := step_of_opens h.dated hopens
      obtain ⟨since, hsince', htimers⟩ := hdated'.armed.timers_of_open henabled' hopen
      obtain rfl := Option.some.inj (hsince.symm.trans hsince')
      have hnew : (r.step now e).1.started =
          r.started ++ [(r.step now e).1.breaker.timerFrom now] := by
        rcases step_started r now e with hstarted | hsame
        · rw [hstarted, htimers]
        · rw [hsame] at hlt
          exact absurd hlt (Nat.lt_irrefl _)
      rw [if_pos rfl]
      refine ⟨hdated', henabled', fun t => ?_, ?_, fun _ => ?_⟩
      · rw [hnew, List.mem_append, List.mem_append, h.started]
      · refine List.pairwise_append.mpr ⟨h.order, List.pairwise_singleton _ _, ?_⟩
        intro t ht u hu
        rw [List.mem_singleton.mp hu]
        exact Nat.lt_of_le_of_lt (h.dated.past t ((h.started t).mpr ht)) hlt
      · rw [htimers, List.getLast?_concat]
        rfl
  | false =>
      have hkept := timers_of_not_opens h.dated h.enabled hrunning hopens
      -- the timers noted now were noted before
      have hold : ∀ t ∈ (r.step now e).1.breaker.timers, t ∈ begun := by
        intro t ht
        by_cases hopen : (r.step now e).1.breaker.state = .open
        · obtain ⟨hopen', hsame⟩ := hkept hopen
          rw [hsame, h.last hopen', Option.mem_toList] at ht
          exact List.mem_of_getLast? ht
        · rw [(hdated'.armed.idle hopen).2] at ht
          cases ht
      rw [if_neg Bool.false_ne_true]
      refine ⟨hdated', henabled', fun t => ?_, h.order, fun hopen => ?_⟩
      · rcases step_started r now e with hstarted | hsame
        · rw [hstarted, List.mem_append, h.started]
          exact or_iff_left_of_imp (hold t)
        · rw [hsame, h.started]
      · obtain ⟨hopen', hsame⟩ := hkept hopen
        rw [hsame, h.last hopen']

theorem Holds.run (h : r.Holds begun) (events : List (Nat × BreakerEvent α))
    (hrunning : ∀ e ∈ events, e.2 ≠ .stopTimers) :
    (r.run events).Holds (r.timersBegun begun events) := by
  induction events generalizing r begun with
  | nil => exact h
  | cons e rest ih =>
      obtain ⟨he, hrest⟩ := List.forall_mem_cons.mp hrunning
      exact ih (h.step he e.1) hrest

/-- A timer that has rung or been cancelled does nothing when it rings again or too late. -/
theorem Holds.ring_of_gone (h : r.Holds begun) {t : ResetTimer} (ht : t ∈ begun)
    (hgone : t ∉ r.breaker.timers) (now : Nat) :
    (r.step now (.ring t : BreakerEvent α)).1.breaker = r.breaker := by
  simp only [BreakerRun.step, ring]
  split
  · exact Breaker.Dated.fireTimer_of_gone h.dated h.enabled ((h.started t).mpr ht) hgone
  · rfl

/-- **One timer.**  However often the circuit opens, closes, is tripped, reset and looked at, and
however late its timers ring, at most one timer has neither rung nor been cancelled.  There is one
exactly while the circuit is open: that of the last opening, of the present generation and due when
the cool-down is over.  Each opening has started one timer of a generation of its own, nothing else
has started one, and those that are gone do nothing any more. -/
theorem run_keeps_one_timer (name : String) (config : BreakerConfig)
    (events : List (Nat × BreakerEvent α)) (hrunning : ∀ e ∈ events, e.2 ≠ .stopTimers) :
    let r := (new name config true).run events
    let begun := (new name config true).timersBegun [] events
    r.breaker.timers.length ≤ 1 ∧
    (r.breaker.timers ≠ [] ↔ r.breaker.state = .open) ∧
    (∀ t ∈ r.breaker.timers, begun.getLast? = some t ∧ t.generation = r.breaker.generation ∧
      ∃ opened, r.breaker.openedAt = some opened ∧ t.due = opened + config.resetTimeout) ∧
    (∀ t, t ∈ r.started ↔ t ∈ begun) ∧
    (begun.Pairwise fun t u => t.generation < u.generation) ∧
    ∀ t ∈ begun, t ∉ r.breaker.timers →
      ∀ now, (r.step now (.ring t : BreakerEvent α)).1.breaker = r.breaker := by
  intro r begun
  have hholds : r.Holds begun := (holds_new name config).run events hrunning
  have hconfig : r.breaker.config = config := (run_settings _ events).2
  refine ⟨hholds.dated.armed.length_timers_le,
    hholds.dated.armed.timers_ne_nil_iff hholds.enabled, fun t ht => ?_,
    hholds.started, hholds.order, fun t ht hgone => hholds.ring_of_gone ht hgone⟩
  have hopen : r.breaker.state = .open := hholds.dated.armed.open_of_mem ht
  have hlast : begun.getLast? = some t := by
    rw [hholds.last hopen, Option.mem_toList] at ht
    exact ht
  obtain ⟨opened, hopened, htimers⟩ := hholds.dated.armed.timers_of_open hholds.enabled hopen
  rw [htimers] at ht
  obtain rfl := List.mem_singleton.mp ht
  refine ⟨hlast, rfl, opened, hopened, ?_⟩
  rw [Breaker.timerFrom, hconfig]

/-- A circuit is tripped, tripped again while it is open, half-open after its cool-down, open after
the failure of a probe, reset, and tripped once more; the timer of its first opening rings late. -/
def flapping : List (Nat × BreakerEvent Unit) :=
  [(0, .trip), (5, .trip), (12, .ring ⟨1, 10⟩), (15, .start), (16, .finish 0 (.error boom)),
    (20, .reset), (21, .trip)]

/-- Four timers were started, and one is left: that of the last opening.  The second one changes
nothing when it rings at last. -/
theorem run_keeps_one_timer_flapping :
    let r := (new "a" { resetTimeout := 10 } true).run flapping
    let begun := (new "a" { resetTimeout := 10 } true).timersBegun [] flapping
    (∀ e ∈ flapping, e.2 ≠ .stopTimers) ∧
      begun = [⟨1, 10⟩, ⟨2, 15⟩, ⟨4, 26⟩, ⟨6, 31⟩] ∧ r.breaker.timers = [⟨6, 31⟩] ∧
      r.breaker.timers.length ≤ 1 ∧ begun.getLast? = some ⟨6, 31⟩ ∧
      (r.step 22 (.ring ⟨2, 15⟩ : BreakerEvent Unit)).1.breaker = r.breaker := by
  intro r begun
  have hrunning : ∀ e ∈ flapping, e.2 ≠ .stopTimers := by simp [flapping]
  have hbegun : begun = [⟨1, 10⟩, ⟨2, 15⟩, ⟨4, 26⟩, ⟨6, 31⟩] := by rfl
  have hone : r.breaker.timers = [⟨6, 31⟩] := by rfl
  obtain ⟨hlength, -, htimer, -, -, hgone⟩ :=
    run_keeps_one_timer "a" { resetTimeout := 10 } flapping hrunning
  refine ⟨hrunning, hbegun, hone, hlength, (htimer ⟨6, 31⟩ ?_).1, hgone ⟨2, 15⟩ ?_ ?_ 22⟩
  · rw [hone]
    exact List.mem_singleton_self _
  · change _ ∈ begun
    rw [hbegun]
    decide
  · change _ ∉ r.breaker.timers
    rw [hone]
    decide

end BreakerRun

end InferenceRouting
