import InferenceRouting.Proofs.Breaker.CoolDown
import InferenceRouting.Proofs.Breaker.Window

/-!
# Recovery

A half-open circuit is on probation.  `Probation` is what has happened since it turned half-open, as
seen from outside: which calls have been admitted since, which of these have succeeded, and how many
failures have been reported by any call.  A call is on the list because of when it was admitted,
whatever the breaker has written on its admission.

The counter of the breaker agrees with that history (`Recovers`), because an admission carries the
generation of the period exactly if the call is on the list.  `run_recovers` says for every run when
a half-open circuit closes, which successes count, and what a failure does.
-/

namespace InferenceRouting

namespace Breaker

variable {b : Breaker} {a : Admission} {now : Nat}

/-- What a half-open circuit needs to know in order to close. -/
def tally (b : Breaker) : CircuitState × Nat × Nat × BreakerConfig :=
  (b.state, b.generation, b.halfOpenSuccesses, b.config)

theorem tally_releaseProbe (b : Breaker) (a : Admission) : (b.releaseProbe a).tally = b.tally := by
  obtain ⟨n, hrelease⟩ := releaseProbe_eq b a
  rw [hrelease]
  rfl

/-- Asking for a call counts nothing, and what is admitted is a probe of the period. -/
theorem enter_of_halfOpen (h : b.state = .halfOpen) (now : Nat) :
    (b.enter now).1.tally = b.tally ∧
      ∀ a, (b.enter now).2 = .ok a → a.probe = some b.generation := by
  have hcount : b.countRequest.refresh now = b.countRequest :=
    refresh_of_ne_open fun hopen => absurd (h.symm.trans hopen) (by decide)
  have hhalf : b.countRequest.state = .halfOpen := h
  rw [enter_eq, hcount, judge_of_halfOpen hhalf]
  split
  · refine ⟨rfl, fun a ha => ?_⟩
    cases ha
  · refine ⟨rfl, fun a ha => ?_⟩
    cases ha
    rfl

/-- The success of a call from another time does not count. -/
theorem settle_success_of_other (h : b.state = .halfOpen) (hprobe : a.probe ≠ some b.generation)
    (now : Nat) : (b.settle now a .success).tally = b.tally := by
  have hrelease : b.releaseProbe a = b := releaseProbe_of_other fun _ => hprobe
  have hnoted : (b.noteSuccess now).credit a = b.noteSuccess now :=
    credit_of_other (b := b.noteSuccess now) h hprobe
  have hsettle : b.settle now a .success = ((b.releaseProbe a).noteSuccess now).credit a := rfl
  rw [hsettle, hrelease, hnoted]
  rfl

/-- The success of a probe counts, and closes the circuit when it is the last one needed. -/
theorem settle_success_of_probe (h : b.state = .halfOpen) (hprobe : a.probe = some b.generation)
    (now : Nat) :
    (b.config.halfOpenMaxAttempts ≤ b.halfOpenSuccesses + 1 →
      (b.settle now a .success).state = .closed ∧ (b.settle now a .success).failures = []) ∧
    (b.halfOpenSuccesses + 1 < b.config.halfOpenMaxAttempts →
      (b.settle now a .success).tally =
        (.halfOpen, b.generation, b.halfOpenSuccesses + 1, b.config)) := by
  have hsettle : b.settle now a .success = ((b.releaseProbe a).noteSuccess now).credit a := rfl
  obtain ⟨n, hrelease⟩ := releaseProbe_eq b a
  rw [hsettle, hrelease,
    credit_of_probe (b := ({ b with halfOpenInFlight := n } : Breaker).noteSuccess now) h hprobe]
  refine ⟨fun hlast => ?_, fun hmore => ?_⟩
  · rw [if_pos (by exact hlast), toClosed_eq]
    exact ⟨rfl, rfl⟩
  · rw [if_neg (by exact Nat.not_le_of_lt hmore)]
    simp only [tally, countSuccess, noteSuccess, h]

/-- A failure reopens a half-open circuit, whichever call reports it. -/
theorem settle_failure_of_halfOpen (h : b.state = .halfOpen) (now : Nat) (a : Admission) :
    (b.settle now a .failure).state = .open ∧ (b.settle now a .failure).openedAt = some now := by
  have hsettle : b.settle now a .failure = ((b.releaseProbe a).countFailure now).react now := rfl
  obtain ⟨n, hrelease⟩ := releaseProbe_eq b a
  have hhalf : ((b.releaseProbe a).countFailure now).state = .halfOpen := by
    rw [hrelease]
    exact h
  rw [hsettle, react_of_halfOpen hhalf, toOpen_eq]
  exact ⟨rfl, rfl⟩

/-- The end of a call begins no period of probing. -/
theorem halfOpen_of_settle {v : Verdict} (h : (b.settle now a v).state = .halfOpen) :
    b.state = .halfOpen := by
  have hstate : (b.releaseProbe a).state = b.state := congrArg Prod.fst (tally_releaseProbe b a)
  rw [← hstate]
  cases v with
  | neutral => exact h
  | success => exact (credit_of_staying h).1
  | failure => exact absurd h (react_ne_halfOpen _ now)

/-- A look that begins a period of probing finds nothing counted. -/
theorem refresh_begins (h : b.state ≠ .halfOpen) (hafter : (b.refresh now).state = .halfOpen) :
    b.refresh now = b.toHalfOpen := by
  by_cases hover : b.Overdue now
  · exact refresh_of_overdue hover
  · rw [refresh_of_not_overdue hover] at hafter
    exact absurd hafter h

theorem successes_toHalfOpen (b : Breaker) : b.toHalfOpen.halfOpenSuccesses = 0 := by
  rw [toHalfOpen_eq]

/-- A timer that rings while the circuit is not open does nothing but end. -/
theorem fireTimer_of_ne_open (h : b.state ≠ .open) (generation : Nat) :
    b.fireTimer generation =
      { b with timers := b.timers.filter (·.generation ≠ generation) } := by
  unfold fireTimer
  exact if_neg fun hrings => h hrings.1

theorem fireTimer_begins {generation : Nat} (h : b.state ≠ .halfOpen)
    (hafter : (b.fireTimer generation).state = .halfOpen) :
    (b.fireTimer generation).halfOpenSuccesses = 0 := by
  unfold fireTimer at hafter ⊢
  dsimp only at hafter ⊢
  split at hafter
  · rename_i hrings
    rw [if_pos hrings]
    exact successes_toHalfOpen _
  · exact absurd hafter h

/-- A call that begins a period of probing is its first probe. -/
theorem enter_begins (h : b.state ≠ .halfOpen) (hmax : 1 ≤ b.config.halfOpenMaxAttempts)
    (hafter : (b.enter now).1.state = .halfOpen) :
    (b.enter now).1.halfOpenSuccesses = 0 ∧
      (b.enter now).2 = .ok ⟨some (b.enter now).1.generation⟩ := by
  have hjudge (c : Breaker) : (c.judge now).1.state = c.state :=
    congrArg Prod.fst (clock_judge c now)
  have hbefore : b.countRequest.state ≠ .halfOpen := h
  rw [enter_eq] at hafter ⊢
  rw [hjudge] at hafter
  rw [refresh_begins hbefore hafter, judge_of_halfOpen (by rw [toHalfOpen_eq]), if_neg]
  · exact ⟨successes_toHalfOpen _, rfl⟩
  · rw [toHalfOpen_eq]
    exact Nat.not_le_of_lt hmax

end Breaker

namespace BreakerRun

/-- What has happened since the circuit turned half-open: the calls admitted, those of them that
have succeeded, and the number of failures of the endpoint reported by any call. -/
structure Probation where
  admitted : List Nat := []
  succeeded : List Nat := []
  failures : Nat := 0

variable {α : Type} {r : BreakerRun} {p : Probation} {now : Nat} {e : BreakerEvent α}

/-- The probation after a call has ended with a result. -/
def Probation.finished (p : Probation) (call : Nat) : Except RoutingError α → Probation
  | .ok _ => if call ∈ p.admitted then { p with succeeded := p.succeeded ++ [call] } else p
  | .error error =>
    if error.countsAsEndpointFailure then { p with failures := p.failures + 1 } else p

/-- The probation after one more event, if it was `p` before.  An event that finds the circuit in
another state begins anew. -/
def noteProbation (r : BreakerRun) (p : Probation) (now : Nat) (e : BreakerEvent α) : Probation :=
  let p := if r.breaker.state = .halfOpen then p else {}
  match e, (r.step now e).2 with
  | .start, .admitted => { p with admitted := p.admitted ++ [r.asked] }
  | .finish call _, .ended result => p.finished call result
  | _, _ => p

/-- The probation after some events. -/
def probation (r : BreakerRun) (p : Probation) : List (Nat × BreakerEvent α) → Probation
  | [] => p
  | e :: rest => (r.step e.1 e.2).1.probation (r.noteProbation p e.1 e.2) rest

/-- The breaker goes by the probation: it has counted the calls that have succeeded, which are too
few yet, nothing has failed, and of the calls under way those admitted since carry its
generation. -/
structure Recovers (r : BreakerRun) (p : Probation) : Prop where
  tally : r.breaker.halfOpenSuccesses = p.succeeded.length
  few : p.succeeded.length < r.breaker.config.halfOpenMaxAttempts
  clean : p.failures = 0
  probes : ∀ c ∈ r.calls, c.1 ∈ p.admitted ↔ c.2.probe = some r.breaker.generation

/-- A period begins, and no call under way is of it. -/
theorem recovers_begin {s : BreakerRun} (h : r.Accounted) (hbefore : r.breaker.state ≠ .halfOpen)
    (hturns : r.breaker.Turns s.breaker) (hafter : s.breaker.state = .halfOpen)
    (hmax : 1 ≤ r.breaker.config.halfOpenMaxAttempts) (hzero : s.breaker.halfOpenSuccesses = 0)
    (hcalls : s.calls = r.calls) : s.Recovers {} := by
  have hadvances := hturns.advances
  have hlt : r.breaker.generation < s.breaker.generation :=
    Nat.lt_of_le_of_ne hadvances.generation fun heq => hbefore (hadvances.halfOpen heq.symm hafter)
  refine ⟨hzero, hadvances.config ▸ hmax, rfl, fun c hc => ?_⟩
  have hother := h.books.probe_ne hlt (List.mem_map_of_mem (hcalls ▸ hc))
  exact iff_of_false (by simp) hother

/-- While the circuit stays half-open and nothing is noted, the breaker goes on by the probation. -/
theorem Recovers.keep {s : BreakerRun} (h : r.Recovers p)
    (htally : s.breaker.tally = r.breaker.tally) (hcalls : ∀ c ∈ s.calls, c ∈ r.calls) :
    s.Recovers p := by
  simp only [Breaker.tally, Prod.mk.injEq] at htally
  obtain ⟨-, hgeneration, hsuccesses, hconfig⟩ := htally
  refine ⟨hsuccesses.trans h.tally, hconfig ▸ h.few, h.clean, fun c hc => ?_⟩
  rw [hgeneration]
  exact h.probes c (hcalls c hc)

/-- A call under way is a probe of the period exactly if it was admitted since the period began. -/
theorem Recovers.admitted_iff (h : r.Recovers p) {call : Nat} {a : Admission}
    (ha : r.admission? call = some a) :
    call ∈ p.admitted ↔ a.probe = some r.breaker.generation :=
  h.probes (call, a) (Keyed.mem_of_lookup ha)

theorem calls_endCall (r : BreakerRun) (call : Nat) : ∀ c ∈ (r.endCall call).calls, c ∈ r.calls :=
  fun _ hc => (List.mem_filter.mp hc).1

/-- The next call joins the probation if it is admitted. -/
theorem recovers_start (hr : r.Accounted) (h : r.Recovers p) (hhalf : r.breaker.state = .halfOpen)
    (now : Nat) :
    (r.step now (.start : BreakerEvent α)).1.Recovers
      (r.noteProbation p now (.start : BreakerEvent α)) := by
  obtain ⟨htally, hprobe⟩ := Breaker.enter_of_halfOpen hhalf now
  simp only [noteProbation, step, start, if_pos hhalf]
  generalize r.breaker.enter now = entered at htally hprobe
  obtain ⟨b, outcome⟩ := entered
  cases outcome with
  | error error => exact h.keep htally fun c hc => hc
  | ok a =>
      have hkept : (r.become b).Recovers p := h.keep htally fun c hc => hc
      have hgeneration : b.generation = r.breaker.generation := by
        simp only [Breaker.tally, Prod.mk.injEq] at htally
        exact htally.2.1
      refine ⟨hkept.tally, hkept.few, hkept.clean, fun c hc => ?_⟩
      rcases List.mem_append.mp hc with hold | hnew
      · -- a call under way is not the one asked for now
        have hlt : c.1 < r.asked := hr.recent _ (List.mem_map_of_mem hold)
        have hne : c.1 ≠ r.asked := Nat.ne_of_lt hlt
        refine Iff.trans ?_ (hkept.probes c hold)
        simp [hne]
      · rw [List.mem_singleton.mp hnew]
        exact iff_of_true (by simp) ((hprobe a rfl).trans (congrArg some hgeneration.symm))

/-- A call ends, and the circuit is still half-open. -/
theorem recovers_finish (h : r.Recovers p) (hhalf : r.breaker.state = .halfOpen) {now call : Nat}
    {result : Except RoutingError α}
    (hafter : (r.step now (.finish call result)).1.breaker.state = .halfOpen) :
    (r.step now (.finish call result)).1.Recovers
      (r.noteProbation p now (.finish call result)) := by
  cases ha : r.admission? call with
  | none =>
      simp only [noteProbation, step_finish_of_none ha, if_pos hhalf]
      exact h
  | some a =>
      obtain ⟨hbreaker, hended⟩ := step_finish ha now result
      have hcalls : (r.step now (.finish call result)).1.calls = (r.endCall call).calls := by
        simp only [step, finish, ha]
        rfl
      have hunder : ∀ c ∈ (r.step now (.finish call result)).1.calls, c ∈ r.calls :=
        hcalls ▸ calls_endCall r call
      rw [hbreaker] at hafter
      simp only [noteProbation, hended, if_pos hhalf]
      cases result with
      | ok value =>
          by_cases hprobe : a.probe = some r.breaker.generation
          · obtain ⟨hlast, hmore⟩ := Breaker.settle_success_of_probe hhalf hprobe now
            have hfew : r.breaker.halfOpenSuccesses + 1 < r.breaker.config.halfOpenMaxAttempts := by
              refine Nat.lt_of_not_le fun hmany => ?_
              exact absurd (hafter.symm.trans (hlast hmany).1) (by decide)
            have htally := hmore hfew
            rw [show Verdict.success = .ofResult (.ok value : Except RoutingError α) from rfl,
              ← hbreaker] at htally
            simp only [Breaker.tally, Prod.mk.injEq] at htally
            obtain ⟨-, hgeneration, hsuccesses, hconfig⟩ := htally
            have hcounted := h.tally
            rw [Probation.finished, if_pos ((h.admitted_iff ha).mpr hprobe)]
            refine ⟨by simp [hsuccesses, hcounted], ?_, h.clean, fun c hc => ?_⟩
            · simp only [hconfig, List.length_append, List.length_singleton]
              omega
            · rw [hgeneration]
              exact h.probes c (hunder c hc)
          · have htally := Breaker.settle_success_of_other hhalf hprobe now
            rw [Probation.finished,
              if_neg fun hadmitted => hprobe ((h.admitted_iff ha).mp hadmitted)]
            exact h.keep (hbreaker ▸ htally) hunder
      | error error =>
          by_cases hcounts : error.countsAsEndpointFailure = true
          · simp only [Verdict.ofResult, if_pos hcounts] at hafter
            have hopen := (Breaker.settle_failure_of_halfOpen hhalf now a).1
            exact absurd (hafter.symm.trans hopen) (by decide)
          · have htally : (r.breaker.settle now a .neutral).tally = r.breaker.tally :=
              Breaker.tally_releaseProbe r.breaker a
            rw [Probation.finished, if_neg hcounts]
            simp only [Verdict.ofResult, if_neg hcounts] at hbreaker
            exact h.keep (hbreaker ▸ htally) hunder

/-- An event that is neither the beginning nor the end of a call is not noted. -/
theorem noteProbation_of_other (hstart : e ≠ .start)
    (hfinish : ∀ call result, e ≠ .finish call result)
    (p : Probation) (now : Nat) :
    r.noteProbation p now e = if r.breaker.state = .halfOpen then p else {} := by
  cases e with
  | start => exact absurd rfl hstart
  | finish call result => exact absurd rfl (hfinish call result)
  | _ => rfl

/-- The first call after the cool-down begins the period, and is admitted. -/
theorem recovers_first_start (hr : r.Accounted) (hhalf : r.breaker.state ≠ .halfOpen)
    (hmax : 1 ≤ r.breaker.config.halfOpenMaxAttempts)
    (hafter : (r.step now (.start : BreakerEvent α)).1.breaker.state = .halfOpen) :
    (r.step now (.start : BreakerEvent α)).1.Recovers
      (r.noteProbation p now (.start : BreakerEvent α)) := by
  have hturns := Breaker.Turns.enter r.breaker now
  rw [breaker_start] at hafter
  obtain ⟨hzero, hadmitted⟩ := Breaker.enter_begins hhalf hmax hafter
  simp only [noteProbation, step, start, if_neg hhalf]
  generalize r.breaker.enter now = entered at hturns hafter hzero hadmitted
  obtain ⟨b, outcome⟩ := entered
  dsimp only at hadmitted
  subst hadmitted
  have hbegun : (r.become b).Recovers {} :=
    recovers_begin hr hhalf hturns hafter hmax hzero rfl
  refine ⟨hbegun.tally, hbegun.few, hbegun.clean, fun c hc => ?_⟩
  rcases List.mem_append.mp hc with hold | hnew
  · have hlt : c.1 < r.asked := hr.recent _ (List.mem_map_of_mem hold)
    have hne : c.1 ≠ r.asked := Nat.ne_of_lt hlt
    refine Iff.trans ?_ (hbegun.probes c hold)
    simp [hne]
  · rw [List.mem_singleton.mp hnew]
    exact iff_of_true (by simp) rfl

/-- A half-open circuit that stays so goes by the probation. -/
theorem recovers_stay (hr : r.Accounted) (h : r.Recovers p) (hhalf : r.breaker.state = .halfOpen)
    (hafter : (r.step now e).1.breaker.state = .halfOpen) :
    (r.step now e).1.Recovers (r.noteProbation p now e) := by
  have hne : r.breaker.state ≠ .open := fun hopen => absurd (hhalf.symm.trans hopen) (by decide)
  have hread : r.breaker.refresh now = r.breaker := Breaker.refresh_of_ne_open hne
  have hlook (b : Breaker) (hb : b.tally = (r.breaker.refresh now).tally) :
      (r.become b).Recovers (if r.breaker.state = .halfOpen then p else {}) := by
    rw [if_pos hhalf]
    exact h.keep (hb.trans (by rw [hread])) fun c hc => hc
  cases e with
  | start => exact recovers_start hr h hhalf now
  | finish call result => exact recovers_finish h hhalf hafter
  | abandon call =>
      rw [noteProbation_of_other (by simp) (by simp), if_pos hhalf]
      simp only [step, abandon]
      split
      · exact h.keep (Breaker.tally_releaseProbe r.breaker _) (calls_endCall r call)
      · exact h
  | trip =>
      simp only [step, become, Breaker.trip, Breaker.toOpen_eq] at hafter
      cases hafter
  | reset =>
      simp only [step, become, Breaker.reset_eq] at hafter
      cases hafter
  | state => exact hlook _ rfl
  | available => exact hlook _ rfl
  | failureCount => exact hlook _ (by rw [hread]; rfl)
  | report => exact hlook _ rfl
  | ring timer =>
      rw [noteProbation_of_other (by simp) (by simp), if_pos hhalf]
      simp only [step, ring]
      split
      · rw [Breaker.fireTimer_of_ne_open hne]
        exact h.keep rfl fun c hc => hc
      · exact h
  | stopTimers => exact hlook _ (by rw [hread]; rfl)

/-- A circuit that turns half-open begins a probation. -/
theorem recovers_turn (hr : r.Accounted) (hhalf : r.breaker.state ≠ .halfOpen)
    (hmax : 1 ≤ r.breaker.config.halfOpenMaxAttempts)
    (hafter : (r.step now e).1.breaker.state = .halfOpen) :
    (r.step now e).1.Recovers (r.noteProbation p now e) := by
  have hturns := step_turns r now e
  have hlook (b : Breaker) (hb : r.breaker.Turns b) (hstate : b.state = .halfOpen)
      (hread : b.halfOpenSuccesses = (r.breaker.refresh now).halfOpenSuccesses)
      (hsame : (r.breaker.refresh now).state = b.state) :
      (r.become b).Recovers (if r.breaker.state = .halfOpen then p else {}) := by
    have hbegins := Breaker.refresh_begins hhalf (hsame.trans hstate)
    rw [if_neg hhalf]
    exact recovers_begin hr hhalf hb hstate hmax
      (hread.trans (by rw [hbegins, Breaker.successes_toHalfOpen])) rfl
  cases e with
  | start => exact recovers_first_start hr hhalf hmax hafter
  | finish call result =>
      cases ha : r.admission? call with
      | none =>
          rw [step_finish_of_none ha] at hafter
          exact absurd hafter hhalf
      | some a =>
          rw [(step_finish ha now result).1] at hafter
          exact absurd (Breaker.halfOpen_of_settle hafter) hhalf
  | abandon call =>
      simp only [step, abandon] at hafter
      split at hafter
      · rename_i a ha
        have hneutral : (r.breaker.settle now a .neutral).state = .halfOpen := hafter
        exact absurd (Breaker.halfOpen_of_settle hneutral) hhalf
      · exact absurd hafter hhalf
  | trip =>
      simp only [step, become, Breaker.trip, Breaker.toOpen_eq] at hafter
      cases hafter
  | reset =>
      simp only [step, become, Breaker.reset_eq] at hafter
      cases hafter
  | state => exact hlook _ hturns hafter rfl rfl
  | available => exact hlook _ hturns hafter rfl rfl
  | failureCount => exact absurd hafter hhalf
  | report => exact hlook _ hturns hafter rfl rfl
  | ring timer =>
      rw [noteProbation_of_other (by simp) (by simp), if_neg hhalf]
      simp only [step, ring] at hafter hturns ⊢
      split at hafter
      · rename_i hrings
        rw [if_pos hrings] at hturns ⊢
        exact recovers_begin hr hhalf hturns hafter hmax
          (Breaker.fireTimer_begins hhalf hafter) rfl
      · exact absurd hafter hhalf
  | stopTimers => exact absurd hafter hhalf

/-- **Step theorem.**  Whenever the circuit is half-open the breaker goes by the probation. -/
theorem step_recovers (hr : r.Accounted) (hmax : 1 ≤ r.breaker.config.halfOpenMaxAttempts)
    (h : r.breaker.state = .halfOpen → r.Recovers p) (now : Nat) (e : BreakerEvent α)
    (hafter : (r.step now e).1.breaker.state = .halfOpen) :
    (r.step now e).1.Recovers (r.noteProbation p now e) := by
  by_cases hhalf : r.breaker.state = .halfOpen
  · exact recovers_stay hr (h hhalf) hhalf hafter
  · exact recovers_turn hr hhalf hmax hafter

theorem run_goes_by_probation (hr : r.Accounted)
    (hmax : 1 ≤ r.breaker.config.halfOpenMaxAttempts)
    (h : r.breaker.state = .halfOpen → r.Recovers p) (events : List (Nat × BreakerEvent α)) :
    (r.run events).breaker.state = .halfOpen → (r.run events).Recovers (r.probation p events) := by
  induction events generalizing r p with
  | nil => exact h
  | cons e rest ih =>
      have hconfig := (step_turns r e.1 e.2).advances.config
      exact ih (step_accounted hr e.1 e.2) (hconfig ▸ hmax) (step_recovers hr hmax h e.1 e.2)

/-- What closes a half-open circuit. -/
theorem closes_iff (h : r.Recovers p) (hhalf : r.breaker.state = .halfOpen) (now : Nat)
    (e : BreakerEvent α) :
    (r.step now e).1.breaker.state = .closed ↔
      e = .reset ∨ ∃ call value, e = .finish call (.ok value) ∧ (r.admission? call).isSome ∧
        call ∈ p.admitted ∧ p.succeeded.length + 1 = r.breaker.config.halfOpenMaxAttempts := by
  by_cases he : e.decides = false
  · have hstays : (r.step now e).1.breaker.state ≠ .closed := fun hclosed =>
      absurd (hhalf.symm.trans ((closed_step r now he).mp hclosed)) (by decide)
    refine iff_of_false hstays ?_
    rintro (rfl | ⟨call, value, rfl, -⟩) <;> cases he
  cases e with
  | trip =>
      have hopened : (r.step now (.trip : BreakerEvent α)).1.breaker = r.breaker.toOpen now := rfl
      rw [hopened, Breaker.toOpen_eq]
      simp
  | reset =>
      have hreset : (r.step now (.reset : BreakerEvent α)).1.breaker = r.breaker.reset := rfl
      rw [hreset, Breaker.reset_eq]
      exact iff_of_true rfl (.inl rfl)
  | finish call result =>
      cases ha : r.admission? call with
      | none =>
          rw [step_finish_of_none ha]
          refine iff_of_false (fun hclosed => absurd (hhalf.symm.trans hclosed) (by decide)) ?_
          rintro (hreset | ⟨call', value, hevent, hunder, -⟩)
          · cases hreset
          · cases hevent
            rw [ha] at hunder
            cases hunder
      | some a =>
          rw [(step_finish ha now result).1]
          cases result with
          | ok value =>
              have hadmitted := h.admitted_iff ha
              have hcounted := h.tally
              have hfew := h.few
              by_cases hprobe : a.probe = some r.breaker.generation
              · obtain ⟨hlast, hmore⟩ := Breaker.settle_success_of_probe hhalf hprobe now
                constructor
                · intro hclosed
                  have hmany : r.breaker.config.halfOpenMaxAttempts ≤
                      r.breaker.halfOpenSuccesses + 1 := by
                    refine Nat.le_of_not_lt fun hfewer => ?_
                    have hstays : (r.breaker.settle now a .success).state = .halfOpen :=
                      congrArg Prod.fst (hmore hfewer)
                    exact absurd (hstays.symm.trans hclosed) (by decide)
                  exact .inr ⟨call, value, rfl, by rw [ha]; rfl, hadmitted.mpr hprobe, by omega⟩
                · rintro (hreset | ⟨call', value', hevent, -, -, hfull⟩)
                  · cases hreset
                  · exact (hlast (by omega)).1
              · have hstays := congrArg Prod.fst (Breaker.settle_success_of_other hhalf hprobe now)
                have hopen : (r.breaker.settle now a .success).state = .halfOpen :=
                  hstays.trans hhalf
                refine iff_of_false (fun hclosed => ?_) ?_
                · exact absurd (hopen.symm.trans hclosed) (by decide)
                rintro (hreset | ⟨call', value', hevent, -, hin, -⟩)
                · cases hreset
                · cases hevent
                  exact hprobe (hadmitted.mp hin)
          | error error =>
              refine iff_of_false (fun hclosed => ?_) (by simp)
              by_cases hcounts : error.countsAsEndpointFailure = true
              · simp only [Verdict.ofResult, if_pos hcounts] at hclosed
                have hopen := (Breaker.settle_failure_of_halfOpen hhalf now a).1
                exact absurd (hopen.symm.trans hclosed) (by decide)
              · have hstays := congrArg Prod.fst (Breaker.tally_releaseProbe r.breaker a)
                simp only [Verdict.ofResult, if_neg hcounts] at hclosed
                exact absurd (hhalf.symm.trans (hstays.symm.trans hclosed)) (by decide)
  | _ => exact absurd rfl he

/-- **The recovery law.**  A half-open circuit closes by hand, and else exactly when a call admitted
since it turned half-open succeeds as the last one needed; no failure has been reported since then,
and its window is empty afterwards.  The success of a call admitted before changes nothing that
counts.  A failure reported by any call reopens the circuit, and the cool-down begins anew at that
instant: until it is over every call is rejected and told so. -/
theorem run_recovers (name : String) (config : BreakerConfig) (timersEnabled : Bool)
    (hmax : 1 ≤ config.halfOpenMaxAttempts) (events : List (Nat × BreakerEvent α)) :
    let r := (new name config timersEnabled).run events
    let p := (new name config timersEnabled).probation {} events
    r.breaker.state = .halfOpen →
      p.failures = 0 ∧ p.succeeded.length < config.halfOpenMaxAttempts ∧
      r.breaker.halfOpenSuccesses = p.succeeded.length ∧
      ∀ now,
        (∀ e : BreakerEvent α, (r.step now e).1.breaker.state = .closed ↔
          e = .reset ∨ ∃ call value, e = .finish call (.ok value) ∧ (r.admission? call).isSome ∧
            call ∈ p.admitted ∧ p.succeeded.length + 1 = config.halfOpenMaxAttempts) ∧
        (∀ e : BreakerEvent α, (r.step now e).1.breaker.state = .closed →
          (r.step now e).1.breaker.failures = []) ∧
        (∀ call value, call ∉ p.admitted →
          let b := (r.step now (.finish call (.ok value : Except RoutingError α))).1.breaker
          b.state = .halfOpen ∧ b.generation = r.breaker.generation ∧
            b.halfOpenSuccesses = r.breaker.halfOpenSuccesses) ∧
        ∀ call error, (r.admission? call).isSome → error.countsAsEndpointFailure = true →
          let s := (r.step now (.finish call (.error error : Except RoutingError α))).1
          s.breaker.state = .open ∧ s.breaker.openedAt = some now ∧
            ∀ later, later < now + config.resetTimeout →
              (s.step later (.start : BreakerEvent α)).2 =
                .rejected (.circuitOpen name (now + config.resetTimeout)) := by
  intro r p hhalf
  have haccounted : r.Accounted := run_accounted (accounted_new name config timersEnabled) events
  have hname : r.breaker.name = name := (run_settings _ events).1
  have hconfig : r.breaker.config = config := (run_settings _ events).2
  have h : r.Recovers p := run_goes_by_probation (accounted_new name config timersEnabled) hmax
    (fun hnew => by cases hnew) events hhalf
  refine ⟨h.clean, hconfig ▸ h.few, h.tally, fun now => ⟨fun e => ?_, fun e hclosed => ?_, ?_, ?_⟩⟩
  · rw [closes_iff h hhalf now e, hconfig]
  · rcases (closes_iff h hhalf now e).mp hclosed with rfl | ⟨call, value, rfl, hunder, hin, hfull⟩
    · simp only [step, become, Breaker.reset_eq]
    · obtain ⟨a, ha⟩ := Option.isSome_iff_exists.mp hunder
      have hmany : r.breaker.config.halfOpenMaxAttempts ≤ r.breaker.halfOpenSuccesses + 1 := by
        rw [h.tally]
        exact Nat.le_of_eq hfull.symm
      rw [(step_finish ha now _).1]
      exact ((Breaker.settle_success_of_probe hhalf ((h.admitted_iff ha).mp hin) now).1 hmany).2
  · intro call value hout
    cases ha : r.admission? call with
    | none =>
        rw [step_finish_of_none ha]
        exact ⟨hhalf, rfl, rfl⟩
    | some a =>
        have hprobe : a.probe ≠ some r.breaker.generation := fun hprobe =>
          hout ((h.admitted_iff ha).mpr hprobe)
        have htally := Breaker.settle_success_of_other hhalf hprobe now
        simp only [Breaker.tally, Prod.mk.injEq] at htally
        rw [(step_finish ha now _).1]
        exact ⟨htally.1.trans hhalf, htally.2.1, htally.2.2.1⟩
  · intro call error hunder hcounts
    obtain ⟨a, ha⟩ := Option.isSome_iff_exists.mp hunder
    intro s
    have hsettle : s.breaker = r.breaker.settle now a .failure := by
      rw [(step_finish ha now _).1, Verdict.ofResult, if_pos hcounts]
    obtain ⟨hopen, hsince⟩ := Breaker.settle_failure_of_halfOpen hhalf now a
    rw [← hsettle] at hopen hsince
    have hadvances :=
      (step_turns r now (.finish call (.error error : Except RoutingError α))).advances
    have hname' : s.breaker.name = name := hadvances.name.trans hname
    have hconfig' : s.breaker.config = config := hadvances.config.trans hconfig
    refine ⟨hopen, hsince, fun later hearly => ?_⟩
    rw [← hconfig'] at hearly ⊢
    rw [← hname']
    exact (start_of_cooling hopen hsince hearly).1

/-- A call admitted while the circuit was closed succeeds during the probation, and so does one of
two probes. -/
def lateSuccess : List (Nat × BreakerEvent Unit) :=
  [(0, .start), (0, .trip), (10, .start), (10, .start), (11, .finish 0 (.ok ())),
   (12, .finish 1 (.ok ()))]

/-- The circuit is still half-open then, and closes with the second probe. -/
theorem run_recovers_late_success :
    let r := (new "a" { resetTimeout := 10, halfOpenMaxAttempts := 2 } true).run lateSuccess
    1 ≤ 2 ∧ r.breaker.state = .halfOpen ∧ r.breaker.halfOpenSuccesses = 1 ∧
      (r.step 13 (.finish 2 (.ok ()) : BreakerEvent Unit)).1.breaker.state = .closed := by
  have hhalf : ((new "a" { resetTimeout := 10, halfOpenMaxAttempts := 2 } true).run
      lateSuccess).breaker.state = .halfOpen := by decide +kernel
  obtain ⟨-, -, hcount, hlaw⟩ := run_recovers "a" { resetTimeout := 10, halfOpenMaxAttempts := 2 }
    true (by decide) lateSuccess hhalf
  have hone : ((new "a" { resetTimeout := 10, halfOpenMaxAttempts := 2 } true).probation {}
      lateSuccess).succeeded.length = 1 := by decide +kernel
  have hin : 2 ∈ ((new "a" { resetTimeout := 10, halfOpenMaxAttempts := 2 } true).probation {}
      lateSuccess).admitted := by decide +kernel
  have hunder : (((new "a" { resetTimeout := 10, halfOpenMaxAttempts := 2 } true).run
      lateSuccess).admission? 2).isSome := by decide +kernel
  refine ⟨by decide, hhalf, hcount.trans hone, ?_⟩
  exact ((hlaw 13).1 _).mpr (.inr ⟨2, (), rfl, hunder, hin, congrArg (· + 1) hone⟩)

end BreakerRun

end InferenceRouting
