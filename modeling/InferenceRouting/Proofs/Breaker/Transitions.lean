import InferenceRouting.Breaker.Run

/-!
# How a circuit changes

Whatever is done with a breaker, its circuit changes by a few moves: it opens, turns half-open after
having been open, closes after having been half-open, is reset, loses a timer, or loses them all
(`Turns`).  Everything else touches only counters, the window of failures and what is published.

Two facts follow for every step of a run.

* A period of being open or half-open has a generation of its own (`Turns.advances`).
* While the circuit is open the breaker holds one timer, due when the cool-down is over, and at
  other times none (`Armed`).
-/

namespace InferenceRouting.Breaker

variable {b c d : Breaker}

/-- What a move changes: all of a breaker but its counters, its window and what it publishes. -/
def circuit (b : Breaker) : (String × BreakerConfig) × CircuitState × Option Nat × Nat ×
    (Bool × Option Nat × List ResetTimer) :=
  ((b.name, b.config), b.state, b.openedAt, b.generation, (b.timersEnabled, b.handle, b.timers))

/-- The timers left when the one the breaker holds is cancelled. -/
def otherTimers (b : Breaker) : List ResetTimer :=
  b.timers.filter fun t => b.handle ≠ some t.generation

/-- Cancelling leaves the timers that the breaker does not hold. -/
theorem cancelTimer_eq (b : Breaker) :
    b.cancelTimer = { b with handle := none, timers := b.otherTimers } := by
  unfold cancelTimer otherTimers
  split
  · rename_i g hg
    simp only [hg, ne_eq, Option.some.injEq, eq_comm]
  · rename_i hnone
    have hall : b.timers.filter (fun t => b.handle ≠ some t.generation) = b.timers :=
      List.filter_eq_self.mpr fun t _ => by simp [hnone]
    rw [hall, ← hnone]

/-- Opening, field by field. -/
theorem toOpen_eq (b : Breaker) (now : Nat) :
    b.toOpen now = { b with
      state := .open
      openedAt := some now
      halfOpenSuccesses := 0
      halfOpenInFlight := 0
      generation := b.generation + 1
      handle := some (b.generation + 1)
      timers := if b.timersEnabled
        then b.otherTimers ++ [⟨b.generation + 1, now + b.config.resetTimeout⟩] else b.otherTimers
      meters := { b.meters with opens := b.meters.opens + 1, shown := some .open } } := by
  simp only [toOpen, cancelTimer_eq, startTimer, publish, otherTimers]

/-- Turning half-open, field by field. -/
theorem toHalfOpen_eq (b : Breaker) :
    b.toHalfOpen = { b with
      state := .halfOpen
      halfOpenSuccesses := 0
      halfOpenInFlight := 0
      generation := b.generation + 1
      handle := none
      timers := b.otherTimers
      meters := { b.meters with shown := some .halfOpen } } := by
  simp only [toHalfOpen, cancelTimer_eq, publish, otherTimers]

/-- Closing, field by field. -/
theorem toClosed_eq (b : Breaker) :
    b.toClosed = { b with
      state := .closed
      failures := []
      halfOpenSuccesses := 0
      halfOpenInFlight := 0
      openedAt := none
      handle := none
      timers := b.otherTimers
      meters := { b.meters with closes := b.meters.closes + 1, shown := some .closed } } := by
  simp only [toClosed, cancelTimer_eq, publish, otherTimers]

/-- A reset, field by field. -/
theorem reset_eq (b : Breaker) :
    b.reset = { b with
      state := .closed
      failures := []
      halfOpenSuccesses := 0
      halfOpenInFlight := 0
      openedAt := none
      generation := b.generation + 1
      totalRequests := 0
      totalFailures := 0
      rejectedRequests := 0
      lastSuccess := none
      lastFailure := none
      handle := none
      timers := b.otherTimers
      meters := { b.meters with shown := some .closed } } := by
  simp only [reset, cancelTimer_eq, publish]

/-- The cool-down is over and the circuit is still open: no timer rang, and nobody has looked. -/
def Overdue (b : Breaker) (now : Nat) : Prop :=
  b.state = .open ∧ ∃ opened, b.openedAt = some opened ∧ opened + b.config.resetTimeout ≤ now

/-- A cool-down that is over is applied. -/
theorem refresh_of_overdue {now : Nat} (h : b.Overdue now) : b.refresh now = b.toHalfOpen := by
  obtain ⟨hstate, opened, hopened, hdue⟩ := h
  simp only [refresh, hstate, hopened, if_pos hdue]

/-- A look changes nothing while no cool-down is over. -/
theorem refresh_of_not_overdue {now : Nat} (h : ¬b.Overdue now) : b.refresh now = b := by
  unfold refresh
  split
  · rename_i opened hstate hopened
    have hdue : ¬opened + b.config.resetTimeout ≤ now := fun hdue =>
      h ⟨hstate, opened, hopened, hdue⟩
    rw [if_neg hdue]
  · rfl

theorem refresh_of_ne_open {now : Nat} (h : b.state ≠ .open) : b.refresh now = b :=
  refresh_of_not_overdue fun hover => h hover.1

/-- The breaker with a call counted, before it looks at the circuit. -/
def countRequest (b : Breaker) : Breaker :=
  { b with totalRequests := b.totalRequests + 1 }

/-- What becomes of a call that has been counted, when the circuit is up to date. -/
def judge (b : Breaker) (now : Nat) : Breaker × Except RoutingError Admission :=
  match b.state with
  | .closed => (b, .ok ⟨none⟩)
  | .open => b.reject (b.openedAt.getD now + b.config.resetTimeout)
  | .halfOpen =>
    if b.config.halfOpenMaxAttempts ≤ b.halfOpenInFlight then b.reject now
    else ({ b with halfOpenInFlight := b.halfOpenInFlight + 1 }, .ok ⟨some b.generation⟩)

/-- A call is counted, then a cool-down that is over is applied, then it is let through or not. -/
theorem enter_eq (b : Breaker) (now : Nat) :
    b.enter now = (b.countRequest.refresh now).judge now :=
  rfl

/-- A closed circuit lets every call through. -/
theorem judge_of_closed (h : b.state = .closed) (now : Nat) : b.judge now = (b, .ok ⟨none⟩) := by
  unfold judge
  rw [h]

/-- An open circuit rejects every call until its cool-down is over. -/
theorem judge_of_open (h : b.state = .open) (now : Nat) :
    b.judge now = b.reject (b.openedAt.getD now + b.config.resetTimeout) := by
  unfold judge
  rw [h]

/-- A half-open circuit lets probes through as long as it has places. -/
theorem judge_of_halfOpen (h : b.state = .halfOpen) (now : Nat) :
    b.judge now =
      if b.config.halfOpenMaxAttempts ≤ b.halfOpenInFlight then b.reject now
      else ({ b with halfOpenInFlight := b.halfOpenInFlight + 1 }, .ok ⟨some b.generation⟩) := by
  unfold judge
  rw [h]

/-- The breaker with a failure counted, before it looks at the circuit. -/
def countFailure (b : Breaker) (now : Nat) : Breaker :=
  { b with
    totalFailures := b.totalFailures + 1
    lastFailure := some now
    failures := b.failures ++ [now] }.prune now

/-- How the circuit takes a failure that has been counted. -/
def react (b : Breaker) (now : Nat) : Breaker :=
  match b.state with
  | .closed => if b.config.failureThreshold ≤ b.failures.length then b.toOpen now else b
  | .halfOpen => b.toOpen now
  | .open => b

/-- A failure is counted, and then the circuit reacts to it. -/
theorem recordFailure_eq (b : Breaker) (now : Nat) :
    b.recordFailure now = (b.countFailure now).react now :=
  rfl

/-- A closed circuit opens when the window has as many failures as it may have. -/
theorem react_of_closed (h : b.state = .closed) (now : Nat) :
    b.react now = if b.config.failureThreshold ≤ b.failures.length then b.toOpen now else b := by
  unfold react
  rw [h]

/-- A half-open circuit opens at once. -/
theorem react_of_halfOpen (h : b.state = .halfOpen) (now : Nat) : b.react now = b.toOpen now := by
  unfold react
  rw [h]

/-- An open circuit does not react. -/
theorem react_of_open (h : b.state = .open) (now : Nat) : b.react now = b := by
  unfold react
  rw [h]

/-- The breaker with a success noted, before it looks at the circuit. -/
def noteSuccess (b : Breaker) (now : Nat) : Breaker :=
  { b with lastSuccess := some now }

/-- The breaker with the success of a probe counted. -/
def countSuccess (b : Breaker) : Breaker :=
  { b with halfOpenSuccesses := b.halfOpenSuccesses + 1 }

/-- How the circuit takes a success that has been noted. -/
def credit (b : Breaker) (a : Admission) : Breaker :=
  match b.state with
  | .closed => { b with failures := [] }
  | .halfOpen =>
    if a.probe = some b.generation then
      let b := { b with halfOpenSuccesses := b.halfOpenSuccesses + 1 }
      if b.config.halfOpenMaxAttempts ≤ b.halfOpenSuccesses then b.toClosed else b
    else b
  | .open => b

/-- A success is noted, and then it is credited to the circuit. -/
theorem recordSuccess_eq (b : Breaker) (now : Nat) (a : Admission) :
    b.recordSuccess now a = (b.noteSuccess now).credit a :=
  rfl

/-- A success empties the window of a closed circuit. -/
theorem credit_of_closed (h : b.state = .closed) (a : Admission) :
    b.credit a = { b with failures := [] } := by
  unfold credit
  rw [h]

/-- A success is nothing to an open circuit. -/
theorem credit_of_open (h : b.state = .open) (a : Admission) : b.credit a = b := by
  unfold credit
  rw [h]

/-- A success from before is nothing to a half-open circuit. -/
theorem credit_of_other {a : Admission} (h : b.state = .halfOpen)
    (hprobe : a.probe ≠ some b.generation) : b.credit a = b := by
  unfold credit
  rw [h]
  exact if_neg hprobe

/-- A success of a probe is counted, and the last one that is needed closes the circuit. -/
theorem credit_of_probe {a : Admission} (h : b.state = .halfOpen)
    (hprobe : a.probe = some b.generation) :
    b.credit a =
      if b.config.halfOpenMaxAttempts ≤ b.halfOpenSuccesses + 1 then b.countSuccess.toClosed
      else b.countSuccess := by
  unfold credit countSuccess
  rw [h]
  exact if_pos hprobe

/-- A call that has no place of the present period gives none back. -/
theorem releaseProbe_of_other {a : Admission}
    (h : b.state = .halfOpen → a.probe ≠ some b.generation) : b.releaseProbe a = b := by
  unfold releaseProbe
  split
  · rename_i g hg
    exact if_neg fun hcurrent => h hcurrent.1 (by rw [hg, hcurrent.2])
  · rfl

/-- A probe of the present period gives its place back. -/
theorem releaseProbe_of_probe {a : Admission} (h : b.state = .halfOpen)
    (hprobe : a.probe = some b.generation) :
    b.releaseProbe a = { b with halfOpenInFlight := b.halfOpenInFlight - 1 } := by
  unfold releaseProbe
  rw [hprobe]
  exact if_pos ⟨h, rfl⟩

/-- A change of the circuit, or of something else. -/
inductive Turns : Breaker → Breaker → Prop
  | quiet {b c : Breaker} (h : c.circuit = b.circuit) : Turns b c
  | toOpen (b : Breaker) (now : Nat) : Turns b (b.toOpen now)
  | toHalfOpen {b : Breaker} (h : b.state = .open) : Turns b b.toHalfOpen
  | toClosed {b : Breaker} (h : b.state = .halfOpen) : Turns b b.toClosed
  | reset (b : Breaker) : Turns b b.reset
  | ring {b : Breaker} (h : b.state = .open) : Turns b
      { b with
        timers := b.timers.filter (·.generation ≠ b.generation)
        handle := none : Breaker }.toHalfOpen
  | loseTimer (b : Breaker) {generation : Nat} (h : b.state = .open → b.generation ≠ generation) :
      Turns b { b with timers := b.timers.filter (·.generation ≠ generation) }
  | stopTimers (b : Breaker) : Turns b b.disableTimers
  | trans {b c d : Breaker} (h : Turns b c) (h' : Turns c d) : Turns b d

namespace Turns

theorem refl (b : Breaker) : b.Turns b :=
  .quiet rfl

/-- A look at a breaker makes one move at most. -/
theorem refresh (b : Breaker) (now : Nat) : b.Turns (b.refresh now) := by
  by_cases h : b.Overdue now
  · rw [refresh_of_overdue h]
    exact .toHalfOpen h.1
  · rw [refresh_of_not_overdue h]
    exact .refl b

/-- Asking for a call. -/
theorem enter (b : Breaker) (now : Nat) : b.Turns (b.enter now).1 := by
  have hcount : b.Turns b.countRequest := .quiet rfl
  refine (hcount.trans (.refresh _ now)).trans ?_
  rw [enter_eq]
  generalize b.countRequest.refresh now = c
  cases hstate : c.state with
  | closed =>
      rw [judge_of_closed hstate]
      exact .refl c
  | «open» =>
      rw [judge_of_open hstate]
      exact .quiet rfl
  | halfOpen =>
      rw [judge_of_halfOpen hstate]
      split
      · exact .quiet rfl
      · exact .quiet rfl

/-- Giving a place back moves nothing. -/
theorem releaseProbe (b : Breaker) (a : Admission) : b.Turns (b.releaseProbe a) := by
  unfold Breaker.releaseProbe
  split
  · split
    · exact .quiet rfl
    · exact .refl b
  · exact .refl b

/-- A success may close the circuit. -/
theorem recordSuccess (b : Breaker) (now : Nat) (a : Admission) :
    b.Turns (b.recordSuccess now a) := by
  have hnote : b.Turns (b.noteSuccess now) := .quiet rfl
  refine hnote.trans ?_
  rw [recordSuccess_eq]
  generalize b.noteSuccess now = c
  cases hstate : c.state with
  | closed =>
      rw [credit_of_closed hstate]
      exact .quiet rfl
  | «open» =>
      rw [credit_of_open hstate]
      exact .refl c
  | halfOpen =>
      by_cases hprobe : a.probe = some c.generation
      · have hcount : c.Turns c.countSuccess := .quiet rfl
        rw [credit_of_probe hstate hprobe]
        split
        · exact hcount.trans (.toClosed hstate)
        · exact hcount
      · rw [credit_of_other hstate hprobe]
        exact .refl c

/-- A failure may open it. -/
theorem recordFailure (b : Breaker) (now : Nat) : b.Turns (b.recordFailure now) := by
  have hcount : b.Turns (b.countFailure now) := .quiet rfl
  refine hcount.trans ?_
  rw [recordFailure_eq]
  generalize b.countFailure now = c
  cases hstate : c.state with
  | closed =>
      rw [react_of_closed hstate]
      split
      · exact .toOpen c now
      · exact .refl c
  | «open» =>
      rw [react_of_open hstate]
      exact .refl c
  | halfOpen =>
      rw [react_of_halfOpen hstate]
      exact .toOpen c now

/-- The end of a call. -/
theorem settle (b : Breaker) (now : Nat) (a : Admission) (v : Verdict) :
    b.Turns (b.settle now a v) := by
  have hrelease := Turns.releaseProbe b a
  cases v with
  | success => exact hrelease.trans (.recordSuccess _ now a)
  | failure => exact hrelease.trans (.recordFailure _ now)
  | neutral => exact hrelease

/-- A timer that rings ends the cool-down it was started for, or does nothing. -/
theorem fireTimer (b : Breaker) (generation : Nat) : b.Turns (b.fireTimer generation) := by
  unfold Breaker.fireTimer
  dsimp only
  split
  · rename_i h
    obtain ⟨hstate, rfl⟩ := h
    exact .ring hstate
  · rename_i h
    exact .loseTimer b fun hstate hgen => h ⟨hstate, hgen⟩

/-- Timers that ring one after the other. -/
theorem fireDue (b : Breaker) (now : Nat) : b.Turns (b.fireDue now) := by
  have hfold (due : List ResetTimer) (b : Breaker) :
      b.Turns (due.foldl (fun b t => b.fireTimer t.generation) b) := by
    induction due generalizing b with
    | nil => exact .refl b
    | cons t rest ih => exact (Turns.fireTimer b t.generation).trans (ih _)
  exact hfold _ b

end Turns

/-- What one breaker keeps of another that it has come from, and that a period of being open or
half-open has a generation of its own. -/
structure Advances (b c : Breaker) : Prop where
  name : c.name = b.name
  config : c.config = b.config
  generation : b.generation ≤ c.generation
  halfOpen : c.generation = b.generation → c.state = .halfOpen → b.state = .halfOpen
  opened : c.generation = b.generation → c.state = .open →
    b.state = .open ∧ c.openedAt = b.openedAt

theorem Advances.trans (h : b.Advances c) (h' : c.Advances d) : b.Advances d := by
  have hle := h.generation
  have hle' := h'.generation
  have hmiddle (hsame : d.generation = b.generation) :
      c.generation = b.generation ∧ d.generation = c.generation := by omega
  refine ⟨h'.name.trans h.name, h'.config.trans h.config, Nat.le_trans hle hle', ?_, ?_⟩
  · intro hsame hstate
    obtain ⟨hbc, hcd⟩ := hmiddle hsame
    exact h.halfOpen hbc (h'.halfOpen hcd hstate)
  · intro hsame hstate
    obtain ⟨hbc, hcd⟩ := hmiddle hsame
    obtain ⟨hopen, hsince⟩ := h'.opened hcd hstate
    obtain ⟨hopen', hsince'⟩ := h.opened hbc hopen
    exact ⟨hopen', hsince.trans hsince'⟩

/-- A move that begins a generation begins no period of an older one. -/
theorem Advances.of_lt (hsettings : (c.name, c.config) = (b.name, b.config))
    (hlt : b.generation < c.generation) : b.Advances c := by
  obtain ⟨hname, hconfig⟩ := Prod.mk.inj hsettings
  refine ⟨hname, hconfig, Nat.le_of_lt hlt, ?_, ?_⟩
  · intro hsame
    omega
  · intro hsame
    omega

/-- A move that keeps the generation keeps the period, or ends it. -/
theorem Advances.of_eq (hsettings : (c.name, c.config) = (b.name, b.config))
    (hsame : c.generation = b.generation)
    (hstate : c.state = .closed ∨ (c.state, c.openedAt) = (b.state, b.openedAt)) :
    b.Advances c := by
  obtain ⟨hname, hconfig⟩ := Prod.mk.inj hsettings
  refine ⟨hname, hconfig, Nat.le_of_eq hsame.symm, ?_, ?_⟩
  · intro _ hhalf
    rcases hstate with hclosed | hkept
    · rw [hclosed] at hhalf
      cases hhalf
    · exact (Prod.mk.inj hkept).1 ▸ hhalf
  · intro _ hopen
    rcases hstate with hclosed | hkept
    · rw [hclosed] at hopen
      cases hopen
    · obtain ⟨hsame, hsince⟩ := Prod.mk.inj hkept
      exact ⟨hsame ▸ hopen, hsince⟩

/-- **Generations.**  Every move keeps the settings, and begins a generation when it begins a
period of being open or half-open. -/
theorem Turns.advances (h : b.Turns c) : b.Advances c := by
  induction h with
  | @quiet b c h =>
      simp only [circuit, Prod.mk.injEq] at h
      obtain ⟨⟨hname, hconfig⟩, hstate, hopened, hgeneration, -⟩ := h
      exact .of_eq (by rw [hname, hconfig]) hgeneration (.inr (by rw [hstate, hopened]))
  | toOpen b now => rw [toOpen_eq]; exact .of_lt rfl (Nat.lt_succ_self _)
  | toHalfOpen h => rw [toHalfOpen_eq]; exact .of_lt rfl (Nat.lt_succ_self _)
  | toClosed h => rw [toClosed_eq]; exact .of_eq rfl rfl (.inl rfl)
  | reset b => rw [reset_eq]; exact .of_lt rfl (Nat.lt_succ_self _)
  | ring h => rw [toHalfOpen_eq]; exact .of_lt rfl (Nat.lt_succ_self _)
  | loseTimer b h => exact .of_eq rfl rfl (.inr rfl)
  | stopTimers b => exact .of_eq rfl rfl (.inr rfl)
  | trans _ _ ih ih' => exact ih.trans ih'

/-- While the circuit is open the breaker holds the timer of its generation, which is due when the
cool-down is over unless timers are off; at other times there is none. -/
structure Armed (b : Breaker) : Prop where
  idle : b.state ≠ .open → b.handle = none ∧ b.timers = []
  opened : b.state = .open → b.handle = some b.generation ∧ ∃ opened, b.openedAt = some opened ∧
    b.timers = if b.timersEnabled then [⟨b.generation, opened + b.config.resetTimeout⟩] else []

/-- The breaker has no timer but the one it holds. -/
theorem Armed.otherTimers (h : b.Armed) : b.otherTimers = [] := by
  unfold Breaker.otherTimers
  by_cases hstate : b.state = .open
  · obtain ⟨hhandle, opened, -, htimers⟩ := h.opened hstate
    rw [htimers, hhandle]
    cases b.timersEnabled <;> simp
  · rw [(h.idle hstate).2]
    rfl

/-- **Timers.**  After every move a cool-down has its timer, and there is no other. -/
theorem Armed.turns (h : b.Armed) (ht : b.Turns c) : c.Armed := by
  induction ht with
  | @quiet b c hc =>
      simp only [circuit, Prod.mk.injEq] at hc
      obtain ⟨⟨-, hconfig⟩, hstate, hopened, hgeneration, henabled, hhandle, htimers⟩ := hc
      refine ⟨?_, ?_⟩
      · rw [hstate, hhandle, htimers]
        exact h.idle
      · rw [hstate, hhandle, htimers, hopened, hgeneration, henabled, hconfig]
        exact h.opened
  | toOpen b now =>
      rw [toOpen_eq, h.otherTimers]
      refine ⟨fun hne => absurd rfl hne, fun _ => ⟨rfl, now, rfl, ?_⟩⟩
      cases b.timersEnabled <;> rfl
  | toHalfOpen hstate =>
      rw [toHalfOpen_eq, h.otherTimers]
      exact ⟨fun _ => ⟨rfl, rfl⟩, fun hopen => by cases hopen⟩
  | toClosed hstate =>
      rw [toClosed_eq, h.otherTimers]
      exact ⟨fun _ => ⟨rfl, rfl⟩, fun hopen => by cases hopen⟩
  | reset b =>
      rw [reset_eq, h.otherTimers]
      exact ⟨fun _ => ⟨rfl, rfl⟩, fun hopen => by cases hopen⟩
  | @ring b hstate =>
      obtain ⟨-, opened, -, htimers⟩ := h.opened hstate
      have hnone : b.timers.filter (·.generation ≠ b.generation) = [] := by
        rw [htimers]
        cases b.timersEnabled <;> simp
      rw [toHalfOpen_eq, hnone]
      exact ⟨fun _ => ⟨rfl, rfl⟩, fun hopen => by cases hopen⟩
  | @loseTimer b generation hother =>
      by_cases hstate : b.state = .open
      · obtain ⟨hhandle, opened, hopened, htimers⟩ := h.opened hstate
        have hkept : b.timers.filter (·.generation ≠ generation) = b.timers := by
          rw [htimers]
          cases b.timersEnabled <;> simp [hother hstate]
        rw [hkept]
        exact h
      · refine ⟨fun hidle => ?_, fun hopen => absurd hopen hstate⟩
        obtain ⟨hhandle, htimers⟩ := h.idle hidle
        exact ⟨hhandle, by simp [htimers]⟩
  | stopTimers b =>
      refine ⟨fun hidle => ⟨(h.idle hidle).1, rfl⟩, fun hopen => ?_⟩
      obtain ⟨hhandle, opened, hopened, -⟩ := h.opened hopen
      exact ⟨hhandle, opened, hopened, rfl⟩
  | trans _ _ ih ih' => exact ih' (ih h)

end InferenceRouting.Breaker

namespace InferenceRouting.BreakerRun

variable {α : Type} {r : BreakerRun}

/-- Asking for a call does to the breaker of a run what it does to a breaker. -/
theorem breaker_start (r : BreakerRun) (now : Nat) :
    (r.step now (.start : BreakerEvent α)).1.breaker = (r.breaker.enter now).1 := by
  simp only [step, start]
  split
  · rename_i heq
    rw [heq]
    rfl
  · rename_i heq
    rw [heq]
    rfl

/-- **Step theorem.**  Whatever happens to a breaker, its circuit changes by moves. -/
theorem step_turns (r : BreakerRun) (now : Nat) (e : BreakerEvent α) :
    r.breaker.Turns (r.step now e).1.breaker := by
  have hread : r.breaker.Turns (r.breaker.read now).1 := .refresh r.breaker now
  cases e with
  | start =>
      rw [breaker_start]
      exact .enter r.breaker now
  | finish call result =>
      simp only [step, finish]
      split
      · exact .settle r.breaker now _ _
      · exact .refl r.breaker
  | abandon call =>
      simp only [step, abandon]
      split
      · exact .releaseProbe r.breaker _
      · exact .refl r.breaker
  | trip => exact .toOpen r.breaker now
  | reset => exact .reset r.breaker
  | state => exact hread
  | available => exact hread
  | failureCount => exact .quiet rfl
  | report => exact (Breaker.Turns.refresh r.breaker now).trans (.quiet rfl)
  | ring timer =>
      simp only [step, ring]
      split
      · exact .fireTimer r.breaker timer.generation
      · exact .refl r.breaker
  | stopTimers => exact .stopTimers r.breaker

/-- The settings of a breaker stay as they are. -/
theorem run_settings (r : BreakerRun) (events : List (Nat × BreakerEvent α)) :
    (r.run events).breaker.name = r.breaker.name ∧
      (r.run events).breaker.config = r.breaker.config := by
  induction events generalizing r with
  | nil => exact ⟨rfl, rfl⟩
  | cons e rest ih =>
      have hstep := (step_turns r e.1 e.2).advances
      obtain ⟨hname, hconfig⟩ := ih (r.step e.1 e.2).1
      exact ⟨hname.trans hstep.name, hconfig.trans hstep.config⟩

/-- A new breaker is closed and has no timer. -/
theorem armed_new (name : String) (config : BreakerConfig) (timersEnabled : Bool) :
    (new name config timersEnabled).breaker.Armed :=
  ⟨fun _ => ⟨rfl, rfl⟩, fun hopen => by cases hopen⟩

end InferenceRouting.BreakerRun
