import InferenceRouting.Proofs.Breaker.CoolDown
import InferenceRouting.Proofs.Credential.Cooling

/-!
# Honest retry hints

A call refused by an open circuit, or because all credentials are cooling, carries the instant from
which a retry makes sense, and the reply that reports it says how many seconds that is.  The instant
is exact: with nothing else happening, whoever comes before it is refused with the same instant, and
whoever comes at it or later passes (`BreakerRun.start_of_waiting`,
`Credential.Rotation.CoolsUntil.ensureAvailable_eq`).  Seconds are rounded up, so they never lead to
before the instant, and one second less always does (`exists_retryAfter`).

`retry_hints_are_honest` puts this together, for clocks of any resolution and for replies that are
made at any time, however long after the refusal.
-/

namespace InferenceRouting

/-! ## Whole seconds -/

namespace Clock

variable {perSecond : Nat}

/-- Whole seconds cover the span. -/
theorem le_secondsUp_mul (hsecond : 0 < perSecond) (span : Nat) :
    span ≤ secondsUp perSecond span * perSecond := by
  have hsplit : perSecond * (span / perSecond) + span % perSecond = span :=
    Nat.div_add_mod span perSecond
  have hrest : span % perSecond < perSecond := Nat.mod_lt span hsecond
  unfold secondsUp
  rw [Nat.mul_comm, Nat.mul_add]
  by_cases hzero : span % perSecond = 0
  · rw [if_pos hzero]
    omega
  · rw [if_neg hzero]
    omega

/-- One second less falls short of the span. -/
theorem secondsUp_pred_mul_lt (hsecond : 0 < perSecond) {span : Nat}
    (hone : 1 ≤ secondsUp perSecond span) :
    (secondsUp perSecond span - 1) * perSecond < span := by
  have hsplit : perSecond * (span / perSecond) + span % perSecond = span :=
    Nat.div_add_mod span perSecond
  unfold secondsUp at hone ⊢
  by_cases hzero : span % perSecond = 0
  · rw [if_pos hzero, Nat.add_zero] at hone ⊢
    have hless : perSecond * (span / perSecond - 1) + perSecond * 1 =
        perSecond * (span / perSecond) := by
      rw [← Nat.mul_add, Nat.sub_add_cancel hone]
    rw [Nat.mul_comm]
    omega
  · rw [if_neg hzero, Nat.add_sub_cancel, Nat.mul_comm]
    omega

end Clock

/-- The seconds that a reply tells lead to the retry instant or past it, and one less to before
it. -/
theorem RoutingError.exists_retryAfter {perSecond : Nat} (hsecond : 0 < perSecond)
    {e : RoutingError} {retryAt : Nat} (he : e.retryAt? = some retryAt) (t : Nat) :
    ∃ s, (e.replyOn perSecond t).retryAfter = some s ∧ retryAt ≤ t + s * perSecond ∧
      (1 ≤ s → t + (s - 1) * perSecond < retryAt) := by
  have hcovers := Clock.le_secondsUp_mul hsecond (retryAt - t)
  refine ⟨Clock.secondsUp perSecond (retryAt - t), ?_, by omega, fun hone => ?_⟩
  · simp only [replyOn, retryAfterSeconds?, he, Option.map_some]
  · have hshort := Clock.secondsUp_pred_mul_lt hsecond hone
    omega

/-! ## Waiting for a breaker -/

/-- The circuit is open, and its cool-down is over at `retryAt`. -/
def Breaker.OpenUntil (b : Breaker) (retryAt : Nat) : Prop :=
  b.state = .open ∧ ∃ opened, b.openedAt = some opened ∧ opened + b.config.resetTimeout = retryAt

/-- The circuit is half-open, and no probe is under way. -/
def Breaker.Unprobed (b : Breaker) : Prop :=
  b.state = .halfOpen ∧ b.halfOpenInFlight = 0

namespace BreakerRun

variable {α : Type} {r : BreakerRun} {retryAt now : Nat}

/-- An open circuit is open until its cool-down is over. -/
theorem openUntil_of_open (h : r.Dated) (hopen : r.breaker.state = .open) :
    ∃ retryAt, r.breaker.OpenUntil retryAt := by
  obtain ⟨-, opened, hopened, -⟩ := h.armed.opened hopen
  exact ⟨opened + r.breaker.config.resetTimeout, hopen, opened, hopened, rfl⟩

/-- Who is refused by an open circuit is told when its cool-down is over. -/
theorem rejected_by_open {raised : Nat} {e : RoutingError}
    (he : (r.step raised (.start : BreakerEvent α)).2 = .rejected e)
    (hopen : (r.step raised (.start : BreakerEvent α)).1.breaker.OpenUntil retryAt) :
    e = .circuitOpen r.breaker.name retryAt := by
  rw [breaker_start, Breaker.enter_eq] at hopen
  have hname : (r.breaker.countRequest.refresh raised).name = r.breaker.name :=
    (Breaker.Turns.refresh r.breaker.countRequest raised).advances.name
  simp only [step, start, Breaker.enter_eq] at he
  generalize r.breaker.countRequest.refresh raised = c at he hopen hname
  obtain ⟨hstate, opened, hopened, hdue⟩ := hopen
  have hclock := Breaker.clock_judge c raised
  simp only [Breaker.clock, Prod.mk.injEq] at hclock
  obtain ⟨hstate', hopened', hconfig'⟩ := hclock
  rw [Breaker.judge_of_open (hstate'.symm.trans hstate)] at he
  cases he
  rw [hname, ← hopened', hopened, ← hdue, hconfig', Option.getD_some]

/-- Waiting for the cool-down to end leaves the circuit open, or half-open without probes once it is
over. -/
def Waiting (r : BreakerRun) (retryAt now : Nat) : Prop :=
  r.breaker.OpenUntil retryAt ∨ retryAt ≤ now ∧ r.breaker.Unprobed

/-- **Step theorem.**  Only a timer of the opening ends the cool-down, and not before its time. -/
theorem step_waiting (hdated : r.Dated) (h : r.Waiting retryAt now) {e : BreakerEvent α} {at' : Nat}
    (htimers : e.isTimers = true) (hat : at' ≤ now) : (r.step at' e).1.Waiting retryAt now := by
  cases e with
  | ring timer =>
      simp only [step, ring]
      split
      · rename_i hrings
        by_cases hends : r.breaker.state = .open ∧ r.breaker.generation = timer.generation
        · obtain ⟨opened, hopened, hdue⟩ := hdated.due timer hrings.1 hends.1 hends.2.symm
          rcases h with ⟨-, since, hsince, hretry⟩ | ⟨-, hhalf, -⟩
          · obtain rfl : opened = since := Option.some.inj (hopened.symm.trans hsince)
            refine .inr ⟨by omega, ?_⟩
            simp only [become, Breaker.fireTimer, if_pos hends, Breaker.toHalfOpen_eq]
            exact ⟨rfl, rfl⟩
          · rw [hends.1] at hhalf
            cases hhalf
        · have hquiet : r.breaker.fireTimer timer.generation =
              { r.breaker with
                timers := r.breaker.timers.filter (·.generation ≠ timer.generation) } :=
            if_neg hends
          simp only [become, hquiet]
          exact h
      · exact h
  | stopTimers => exact h
  | _ => cases htimers

theorem run_waiting (hdated : r.Dated) (h : r.Waiting retryAt now)
    {events : List (Nat × BreakerEvent α)}
    (htimers : ∀ e ∈ events, e.2.isTimers = true ∧ e.1 ≤ now) :
    (r.run events).Waiting retryAt now := by
  induction events generalizing r with
  | nil => exact h
  | cons e rest ih =>
      obtain ⟨htimer, hat⟩ := htimers e List.mem_cons_self
      exact ih (step_dated hdated e.1 e.2) (step_waiting hdated h htimer hat)
        fun later hlater => htimers later (List.mem_cons_of_mem _ hlater)

/-- **When a call passes.**  Before the end of the cool-down it is refused with that instant, and
from then on it is admitted. -/
theorem start_of_waiting (h : r.Waiting retryAt now)
    (hmax : 1 ≤ r.breaker.config.halfOpenMaxAttempts) :
    (r.step now (.start : BreakerEvent α)).2 =
      if now < retryAt then .rejected (.circuitOpen r.breaker.name retryAt) else .admitted := by
  rcases h with ⟨hopen, opened, hopened, rfl⟩ | ⟨hover, hhalf, hnone⟩
  · split
    · rename_i hearly
      exact (start_of_cooling hopen hopened hearly).1
    · rename_i hlate
      exact start_of_overdue ⟨hopen, opened, hopened, Nat.le_of_not_lt hlate⟩ hmax
  · rw [if_neg (Nat.not_lt_of_le hover)]
    have hsame : r.breaker.countRequest.refresh now = r.breaker.countRequest := by
      refine Breaker.refresh_of_ne_open ?_
      simp [Breaker.countRequest, hhalf]
    have hplace : ¬r.breaker.countRequest.config.halfOpenMaxAttempts ≤
        r.breaker.countRequest.halfOpenInFlight := by
      simp only [Breaker.countRequest, hnone]
      omega
    have hjudge := Breaker.judge_of_halfOpen (b := r.breaker.countRequest) hhalf now
    simp only [step, start, Breaker.enter_eq, hsame, hjudge, if_neg hplace]

/-- A call that was refused while the circuit was open is told the instant that decides what becomes
of a retry. -/
theorem exists_retryAt (hdated : r.Dated) (hmax : 1 ≤ r.breaker.config.halfOpenMaxAttempts)
    {raised : Nat} {e : RoutingError}
    (he : (r.step raised (.start : BreakerEvent α)).2 = .rejected e)
    (hopen : (r.step raised (.start : BreakerEvent α)).1.breaker.state = .open) :
    ∃ retryAt, e.retryAt? = some retryAt ∧
      ∀ (retry : Nat) (meanwhile : List (Nat × BreakerEvent α)),
        (∀ event ∈ meanwhile, event.2.isTimers = true ∧ event.1 ≤ retry) →
        let later := (r.step raised (.start : BreakerEvent α)).1.run meanwhile
        (later.step retry (.start : BreakerEvent α)).2 =
          if retry < retryAt then .rejected e else .admitted := by
  have hdated' := step_dated hdated raised (.start : BreakerEvent α)
  obtain ⟨retryAt, huntil⟩ := openUntil_of_open hdated' hopen
  obtain rfl := rejected_by_open he huntil
  refine ⟨retryAt, rfl, fun retry meanwhile htimers => ?_⟩
  intro later
  have hfirst := (step_turns r raised (.start : BreakerEvent α)).advances
  obtain ⟨hname, hconfig⟩ := run_settings (r.step raised (.start : BreakerEvent α)).1 meanwhile
  have hwaits : later.Waiting retryAt retry := run_waiting hdated' (.inl huntil) htimers
  have hmax' : 1 ≤ later.breaker.config.halfOpenMaxAttempts := by
    rw [hconfig, hfirst.config]
    exact hmax
  rw [start_of_waiting hwaits hmax', hname, hfirst.name]

end BreakerRun

/-! ## Hints -/

/-- **Honest hints.**  Let a call be refused by an open circuit, or because all credentials are
cooling, and let the refusal be reported at time `t` with a number `s` of seconds.  If nothing but
timers happens meanwhile, who retries after `s` seconds or later passes, and who retries after
`s - 1` seconds or earlier is refused with the same instant. -/
theorem retry_hints_are_honest {perSecond : Nat} (hsecond : 0 < perSecond) (t : Nat) :
    (∀ {α : Type} (name : String) (config : BreakerConfig) (timersEnabled : Bool)
        (events : List (Nat × BreakerEvent α)) (raised : Nat) (e : RoutingError),
      let refused := ((BreakerRun.new name config timersEnabled).run events).step raised
        (.start : BreakerEvent α)
      1 ≤ config.halfOpenMaxAttempts → refused.2 = .rejected e →
      refused.1.breaker.state = .open →
        ∃ s, (e.replyOn perSecond t).retryAfter = some s ∧
          ∀ (retry : Nat) (meanwhile : List (Nat × BreakerEvent α)),
            (∀ event ∈ meanwhile, event.2.isTimers = true ∧ event.1 ≤ retry) →
              let r := refused.1.run meanwhile
              (t + s * perSecond ≤ retry →
                (r.step retry (.start : BreakerEvent α)).2 = .admitted) ∧
              (1 ≤ s → retry ≤ t + (s - 1) * perSecond →
                (r.step retry (.start : BreakerEvent α)).2 = .rejected e)) ∧
    ∀ (r : Credential.Rotation) (raised : Nat) (e : RoutingError),
      r.ensureAvailable raised = .error e →
        ∃ s, (e.replyOn perSecond t).retryAfter = some s ∧ ∀ retry,
          (t + s * perSecond ≤ retry → r.ensureAvailable retry = .ok ()) ∧
          (1 ≤ s → retry ≤ t + (s - 1) * perSecond → r.ensureAvailable retry = .error e) := by
  refine ⟨?_, ?_⟩
  · intro α name config timersEnabled events raised e refused hmax he hopen
    let asked := (BreakerRun.new name config timersEnabled).run events
    have hdated : asked.Dated := BreakerRun.run_dated (BreakerRun.dated_new ..) events
    have hconfig : asked.breaker.config = config := (BreakerRun.run_settings _ events).2
    obtain ⟨retryAt, hcarried, hstart⟩ :=
      BreakerRun.exists_retryAt hdated (hconfig ▸ hmax) he hopen
    obtain ⟨s, hs, hlate, hearly⟩ := RoutingError.exists_retryAfter hsecond hcarried t
    refine ⟨s, hs, fun retry meanwhile htimers => ⟨fun hretry => ?_, fun hone hretry => ?_⟩⟩
    · exact (hstart retry meanwhile htimers).trans
        (if_neg (Nat.not_lt_of_le (Nat.le_trans hlate hretry)))
    · exact (hstart retry meanwhile htimers).trans
        (if_pos (Nat.lt_of_le_of_lt hretry (hearly hone)))
  · intro r raised e he
    obtain ⟨reset, rfl, hcools⟩ := Credential.Rotation.exists_coolsUntil he
    obtain ⟨s, hs, hlate, hearly⟩ := RoutingError.exists_retryAfter hsecond
      (e := .allCredentialsCooling reset) rfl t
    refine ⟨s, hs, fun retry => ⟨fun hretry => ?_, fun hone hretry => ?_⟩⟩
    · rw [hcools.ensureAvailable_eq, if_neg (Nat.not_lt_of_le (Nat.le_trans hlate hretry))]
    · rw [hcools.ensureAvailable_eq, if_pos (Nat.lt_of_le_of_lt hretry (hearly hone))]

/-- A circuit that opens at the first failure, for two and a half seconds of a clock of nanoseconds.
-/
def hasty : BreakerConfig where
  failureThreshold := 1
  resetTimeout := 2500000000
  halfOpenMaxAttempts := 1

/-- A call fails at 7 and opens the circuit. -/
def failedCall : List (Nat × BreakerEvent Unit) :=
  [(0, .start), (7, .finish 0 (.error (.callFailed none "connection refused")))]

/-- The next call, at 8. -/
def refusedCall : BreakerRun × BreakerOutcome Unit :=
  ((BreakerRun.new "a" hasty true).run failedCall).step 8 .start

/-- The timer of the opening rings when it is due. -/
def rung : List (Nat × BreakerEvent Unit) :=
  [(2500000007, .ring ⟨1, 2500000007⟩)]

/-- The only slot fails at 3 and cools for a second and a half. -/
def coolingSlot : Credential.Rotation :=
  ((Credential.Rotation.new [⟨⟨"sk"⟩, none, .config, 1⟩]
    { cooldown := 1500000000 }).reportFailure 3 ⟨some 429, "slow down"⟩).1

/-- Half a second after the refusal by the circuit one nanosecond less than two seconds is left, so
the reply says two: one second later a retry is refused, and two seconds later, when the timer has
rung, it is admitted.  The refusal of the slot that cools is reported with two seconds, too, and a
retry fares likewise. -/
theorem retry_hints_are_honest_nanoseconds :
    let e : RoutingError := .circuitOpen "a" 2500000007
    let e' : RoutingError := .allCredentialsCooling 1500000003
    (0 < 1000000000 ∧ 1 ≤ hasty.halfOpenMaxAttempts ∧ refusedCall.2 = .rejected e ∧
        refusedCall.1.breaker.state = .open ∧ coolingSlot.ensureAvailable 10 = .error e') ∧
      (e.replyOn 1000000000 500000008).retryAfter = some 2 ∧
      (refusedCall.1.step 1500000008 (.start : BreakerEvent Unit)).2 = .rejected e ∧
      ((refusedCall.1.run rung).step 2500000008 (.start : BreakerEvent Unit)).2 = .admitted ∧
      (e'.replyOn 1000000000 10).retryAfter = some 2 ∧
      coolingSlot.ensureAvailable 1000000010 = .error e' ∧
      coolingSlot.ensureAvailable 2000000010 = .ok () := by
  intro e e'
  have hsecond : 0 < 1000000000 := by decide
  have hmax : 1 ≤ hasty.halfOpenMaxAttempts := by decide
  have hrefused : refusedCall.2 = .rejected (.circuitOpen "a" 2500000007) := rfl
  have hopen : refusedCall.1.breaker.state = .open := by decide
  have hcooling : coolingSlot.ensureAvailable 10 = .error (.allCredentialsCooling 1500000003) := rfl
  obtain ⟨hbreaker, -⟩ := retry_hints_are_honest hsecond 500000008
  obtain ⟨-, hrotation⟩ := retry_hints_are_honest hsecond 10
  obtain ⟨s, hs, hretry⟩ := hbreaker "a" hasty true failedCall 8 _ hmax hrefused hopen
  obtain ⟨s', hs', hretry'⟩ := hrotation coolingSlot 10 _ hcooling
  obtain rfl : 2 = s := Option.some.inj hs
  obtain rfl : 2 = s' := Option.some.inj hs'
  refine ⟨⟨hsecond, hmax, hrefused, hopen, hcooling⟩, hs, ?_, ?_, hs', ?_, ?_⟩
  · exact (hretry 1500000008 [] (by simp)).2 (by decide) (by decide)
  · exact (hretry 2500000008 rung (by decide)).1 (by decide)
  · exact (hretry' 1000000010).2 (by decide) (by decide)
  · exact (hretry' 2000000010).1 (by decide)

end InferenceRouting
