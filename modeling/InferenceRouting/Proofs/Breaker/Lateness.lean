import InferenceRouting.Proofs.Breaker.CoolDown
import InferenceRouting.Proofs.Breaker.Plain

/-!
# Failures that come too late

When the cool-down is over, a timer makes the circuit half-open, or the first look at the breaker
does.  The end of a call is no look.  Nobody can tell the difference, unless a call ends with a
failure of the endpoint when the cool-down is over and neither has happened (`LateFailure`): a
half-open circuit reopens, and one that still counts as open takes no notice.

`runOnTime_agrees_unless_late` compares a run with timers on time and another one, with timers or
without, in which the breaker is looked at more often.  Both give the same answers as long as
the second meets no late failure, and after its first late failure the states read differ.
-/

namespace InferenceRouting

namespace Breaker

variable {b : Breaker} {a : Admission} {now : Nat}

/-- There are no places while the circuit is open. -/
theorem releaseProbe_of_open (h : b.state = .open) (a : Admission) : b.releaseProbe a = b :=
  releaseProbe_of_other fun hhalf => absurd (h.symm.trans hhalf) (by decide)

/-- A call from before a period of probing is none of its probes. -/
theorem probe_ne_toHalfOpen (h : b.Tagged a) : a.probe ≠ some b.toHalfOpen.generation := by
  intro hprobe
  have hle := h _ hprobe
  rw [toHalfOpen_eq] at hle
  exact Nat.not_succ_le_self _ hle

/-- A call from before has no place in the period that begins. -/
theorem releaseProbe_toHalfOpen (h : b.Tagged a) :
    b.toHalfOpen.releaseProbe a = b.toHalfOpen :=
  releaseProbe_of_other fun _ => probe_ne_toHalfOpen h

/-- The end of a call that is no failure means the same before and after a cool-down that is over
is applied. -/
theorem refresh_settle {v : Verdict} (hover : b.Overdue now) (ha : b.Tagged a) (hv : v ≠ .failure) :
    (b.settle now a v).refresh now = ((b.refresh now).settle now a v).refresh now := by
  rw [refresh_of_overdue hover]
  cases v with
  | success =>
      have hopen : (b.noteSuccess now).state = .open := hover.1
      have hhalf : (b.toHalfOpen.noteSuccess now).state = .halfOpen := state_toHalfOpen b
      have hsettle : b.settle now a .success = b.noteSuccess now := by
        simp only [settle, releaseProbe_of_open hover.1]
        exact credit_of_open hopen a
      have hsettle' : b.toHalfOpen.settle now a .success = b.toHalfOpen.noteSuccess now := by
        simp only [settle, releaseProbe_toHalfOpen ha]
        exact credit_of_other hhalf (probe_ne_toHalfOpen ha)
      have hnoted : (b.noteSuccess now).Overdue now := hover
      rw [hsettle, hsettle', refresh_of_overdue hnoted, refresh_of_ne_open (by simp [hhalf]),
        toHalfOpen_eq, toHalfOpen_eq]
      rfl
  | failure => exact absurd rfl hv
  | neutral =>
      have hsettle : b.settle now a .neutral = b := releaseProbe_of_open hover.1 a
      have hsettle' : b.toHalfOpen.settle now a .neutral = b.toHalfOpen :=
        releaseProbe_toHalfOpen ha
      rw [hsettle, hsettle', refresh_of_overdue hover, refresh_toHalfOpen]

/-- An open circuit takes no notice of a failure. -/
theorem settle_failure_of_open (h : b.state = .open) (now : Nat) (a : Admission) :
    b.settle now a .failure = b.countFailure now := by
  have hopen : (b.countFailure now).state = .open := h
  simp only [settle, releaseProbe_of_open h]
  exact react_of_open hopen now

/-- A circuit that has just become half-open reopens at the failure of a call from before. -/
theorem settle_failure_toHalfOpen (h : b.Tagged a) (now : Nat) :
    b.toHalfOpen.settle now a .failure = (b.toHalfOpen.countFailure now).toOpen now := by
  have hhalf : (b.toHalfOpen.countFailure now).state = .halfOpen := state_toHalfOpen b
  simp only [settle, releaseProbe_toHalfOpen h]
  exact react_of_halfOpen hhalf now

/-- Without a cool-down the circuit is half-open at the next look, whether it has reopened or
not. -/
theorem refresh_settle_failure (hover : b.Overdue now) (ha : b.Tagged a)
    (hinstant : b.config.resetTimeout = 0) :
    ∃ c d : Breaker, (b.settle now a .failure).refresh now = c.toHalfOpen ∧
      ((b.refresh now).settle now a .failure).refresh now = d.toHalfOpen ∧
      b.generation ≤ c.generation ∧ b.generation ≤ d.generation ∧
      c.toHalfOpen.plain now = d.toHalfOpen.plain now := by
  rw [refresh_of_overdue hover, settle_failure_of_open hover.1, settle_failure_toHalfOpen ha]
  have hover' : (b.countFailure now).Overdue now := hover
  have hreopened : ((b.toHalfOpen.countFailure now).toOpen now).Overdue now := by
    rw [toOpen_eq, toHalfOpen_eq]
    exact ⟨rfl, now, rfl, Nat.le_of_eq (by simp [countFailure_eq, hinstant])⟩
  refine ⟨_, _, refresh_of_overdue hover', refresh_of_overdue hreopened, ?_, ?_, ?_⟩
  · exact Nat.le_refl _
  · rw [toOpen_eq, toHalfOpen_eq]
    exact Nat.le_trans (Nat.le_succ _) (Nat.le_succ _)
  · simp only [toOpen_eq, toHalfOpen_eq, countFailure_eq, plain]
    rfl

/-- A look does not stop the timers. -/
theorem timersEnabled_refresh (b : Breaker) (now : Nat) :
    (b.refresh now).timersEnabled = b.timersEnabled := by
  by_cases h : b.Overdue now
  · rw [refresh_of_overdue h, toHalfOpen_eq]
  · rw [refresh_of_not_overdue h]

/-- Asking for a call does not stop the timers. -/
theorem timersEnabled_enter (b : Breaker) (now : Nat) :
    (b.enter now).1.timersEnabled = b.timersEnabled := by
  have hjudge (c : Breaker) : (c.judge now).1.timersEnabled = c.timersEnabled := by
    unfold judge
    split
    · rfl
    · rfl
    · split <;> rfl
  rw [enter_eq, hjudge]
  exact timersEnabled_refresh b.countRequest now

/-- The end of a call does not stop the timers. -/
theorem timersEnabled_settle (b : Breaker) (now : Nat) (a : Admission) (v : Verdict) :
    (b.settle now a v).timersEnabled = b.timersEnabled := by
  have hrelease : (b.releaseProbe a).timersEnabled = b.timersEnabled := by
    unfold releaseProbe
    split
    · split <;> rfl
    · rfl
  rw [← hrelease]
  unfold settle
  generalize b.releaseProbe a = c
  cases v with
  | success =>
      simp only [recordSuccess]
      split
      · rfl
      · split
        · split
          · rw [toClosed_eq]
          · rfl
        · rfl
      · rfl
  | failure =>
      simp only [recordFailure]
      split
      · split
        · rw [toOpen_eq]
          rfl
        · rfl
      · rw [toOpen_eq]
        rfl
      · rfl
  | neutral => rfl

/-- The plain form is pruned already. -/
theorem plain_prune (b : Breaker) (now : Nat) : (b.prune now).plain now = b.plain now := by
  simp only [prune_eq, plain, BreakerConfig.recent_self]
  rfl

/-- With timers on time the circuit is always up to date; without them ringing changes nothing. -/
theorem Armed.fireDue (h : b.Armed) (now : Nat) :
    b.fireDue now = if b.timersEnabled then b.refresh now else b := by
  by_cases hstate : b.state = .open
  · obtain ⟨hhandle, opened, hopened, htimers⟩ := h.opened hstate
    cases henabled : b.timersEnabled with
    | false =>
        have hnone : b.timers = [] := by rw [htimers, henabled]; rfl
        simp [Breaker.fireDue, hnone]
    | true =>
        have hone : b.timers = [⟨b.generation, opened + b.config.resetTimeout⟩] := by
          rw [htimers, henabled]; rfl
        by_cases hdue : opened + b.config.resetTimeout ≤ now
        · have hover : b.Overdue now := ⟨hstate, opened, hopened, hdue⟩
          have hring : b.fireDue now = b.fireTimer b.generation := by
            simp [Breaker.fireDue, hone, hdue]
          have hothers : b.timers.filter (·.generation ≠ b.generation) = [] := by simp [hone]
          rw [if_pos rfl, refresh_of_overdue hover, hring]
          simp only [Breaker.fireTimer, hstate, true_and, if_true, toHalfOpen_eq, h.otherTimers,
            hothers]
          rfl
        · have hearly : ¬b.Overdue now := by
            rintro ⟨-, opened', hopened', hdue'⟩
            rw [hopened] at hopened'
            cases hopened'
            exact hdue hdue'
          rw [if_pos rfl, refresh_of_not_overdue hearly]
          simp [Breaker.fireDue, hone, hdue]
  · have hnone := (h.idle hstate).2
    rw [refresh_of_ne_open hstate]
    simp [Breaker.fireDue, hnone]

end Breaker

namespace BreakerRun

variable {α : Type} {r s : BreakerRun} {now : Nat} {e : BreakerEvent α}

/-- A call under way ends with a failure of the endpoint when the cool-down is over, before that
has been applied.  Without a cool-down that is no matter. -/
def LateFailure (r : BreakerRun) (now : Nat) : BreakerEvent α → Prop
  | .finish call result =>
    (r.admission? call).isSome ∧ Verdict.ofResult result = .failure ∧ r.breaker.Overdue now ∧
      0 < r.breaker.config.resetTimeout
  | _ => False

/-- Runs with the same calls look alike when their breakers are the same at the next look. -/
theorem seen_of_refresh (hbreaker : r.breaker.refresh now = s.breaker.refresh now)
    (hcalls : r.calls = s.calls) (hasked : r.asked = s.asked) : r.seen now = s.seen now :=
  seen_congr (by rw [hbreaker]) hcalls hasked fun c _ => by rw [hbreaker]

/-- Runs that look alike are seen alike. -/
theorem seen_of_plain (hr : r.Accounted) (hs : s.Accounted) (h : r.plain now = s.plain now) :
    r.seen now = s.seen now := by
  calc r.seen now
      = (r.plain now).seen now := (seen_plain hr (Nat.le_refl now)).symm
    _ = (s.plain now).seen now := by rw [h]
    _ = s.seen now := seen_plain hs (Nat.le_refl now)

/-- When no probe can be under way, runs with the same calls look alike when their breakers do. -/
theorem plain_of_ne_halfOpen (hbreaker : r.breaker.plain now = s.breaker.plain now)
    (hcalls : r.calls = s.calls) (hasked : r.asked = s.asked)
    (hstate : s.breaker.state ≠ .halfOpen) : r.plain now = s.plain now := by
  have hstate' : r.breaker.state ≠ .halfOpen := Breaker.state_of_plain hbreaker ▸ hstate
  simp only [plain, hbreaker, hcalls, hasked, Breaker.tag_of_ne_halfOpen hstate,
    Breaker.tag_of_ne_halfOpen hstate']

/-- It does not matter to the end of a call whether the cool-down has been applied before, unless it
is a failure. -/
theorem seen_finish_of_overdue (h : r.Accounted) (hover : r.breaker.Overdue now) (call : Nat)
    (v : Verdict) {a : Admission} (ha : r.admission? call = some a)
    (hlate : v = .failure → r.breaker.config.resetTimeout = 0) :
    ((r.endCall call).become (r.breaker.settle now a v)).seen now =
      ((r.endCall call).become ((r.breaker.refresh now).settle now a v)).seen now := by
  have htagged : r.breaker.Tagged a := h.tagged (Keyed.mem_of_lookup ha)
  by_cases hv : v = .failure
  · subst hv
    obtain ⟨c, d, hc, hd, hlec, hled, hplain⟩ :=
      Breaker.refresh_settle_failure hover htagged (hlate rfl)
    refine seen_congr ?_ rfl rfl fun x hx => ?_
    · simp only [become, hc, hd, hplain]
    · have hx' : r.breaker.Tagged x.2 := h.tagged (List.mem_filter.mp hx).1
      have htag (c : Breaker) (hle : r.breaker.generation ≤ c.generation) :
          c.toHalfOpen.tag x.2 = ⟨none⟩ :=
        Breaker.tag_toHalfOpen fun g hg => Nat.le_trans (hx' g hg) hle
      simp only [become, hc, hd, htag c hlec, htag d hled]
  · exact seen_of_refresh (Breaker.refresh_settle hover htagged hv) rfl rfl

/-- **Step theorem.**  A step does not depend on whether a cool-down that is over has been applied,
unless it is a failure that comes too late. -/
theorem step_fresh_of_overdue (h : r.Accounted) (htimers : e.isTimers = false)
    (hlate : ¬r.LateFailure now e) (hover : r.breaker.Overdue now) :
    (r.step now e).2 = ((r.fresh now).step now e).2 ∧
      (r.step now e).1.seen now = ((r.fresh now).step now e).1.seen now := by
  have htwice : (r.breaker.refresh now).refresh now = r.breaker.refresh now :=
    Breaker.refresh_refresh r.breaker (Nat.le_refl now)
  have hsteps := step_accounted h now e
  have hsteps' := step_accounted (h.fresh now) now e
  cases e with
  | start =>
      have henter : (r.breaker.refresh now).enter now = r.breaker.enter now := by
        have hcounted : r.breaker.countRequest.Overdue now := hover
        have hne : r.breaker.toHalfOpen.countRequest.state ≠ .open := by
          simp [Breaker.countRequest, Breaker.state_toHalfOpen]
        rw [Breaker.enter_eq, Breaker.enter_eq, Breaker.refresh_of_overdue hover,
          Breaker.refresh_of_overdue hcounted, Breaker.refresh_of_ne_open hne,
          Breaker.toHalfOpen_eq, Breaker.toHalfOpen_eq]
        rfl
      simp only [step, start, fresh, henter]
      split
      · exact ⟨rfl, seen_of_refresh rfl rfl rfl⟩
      · exact ⟨rfl, seen_of_refresh rfl rfl rfl⟩
  | finish call result =>
      have hcall : (r.fresh now).admission? call = r.admission? call := rfl
      simp only [step, finish, hcall]
      cases ha : r.admission? call with
      | none => exact ⟨rfl, seen_of_refresh htwice.symm rfl rfl⟩
      | some a =>
          refine ⟨rfl, seen_finish_of_overdue h hover call _ ha fun hv => ?_⟩
          rcases Nat.eq_zero_or_pos r.breaker.config.resetTimeout with hzero | hpos
          · exact hzero
          · exact absurd ⟨by rw [ha]; rfl, hv, hover, hpos⟩ hlate
  | abandon call =>
      have hcall : (r.fresh now).admission? call = r.admission? call := rfl
      simp only [step, abandon, hcall]
      cases ha : r.admission? call with
      | none => exact ⟨trivial, seen_of_refresh htwice.symm rfl rfl⟩
      | some a =>
          exact ⟨trivial, seen_finish_of_overdue h hover call .neutral ha fun hv => by cases hv⟩
  | trip =>
      refine ⟨rfl, seen_of_plain hsteps hsteps' (plain_of_ne_halfOpen ?_ rfl rfl ?_)⟩
      · simp only [step, become, fresh, Breaker.refresh_of_overdue hover, Breaker.trip,
          Breaker.toOpen_eq, Breaker.toHalfOpen_eq]
        rfl
      · simp [step, become, Breaker.trip, Breaker.toOpen_eq]
  | reset =>
      refine ⟨rfl, seen_of_plain hsteps hsteps' (plain_of_ne_halfOpen ?_ rfl rfl ?_)⟩
      · simp only [step, become, fresh, Breaker.refresh_of_overdue hover, Breaker.reset_eq,
          Breaker.toHalfOpen_eq]
        rfl
      · simp [step, become, Breaker.reset_eq]
  | state =>
      simp only [step, Breaker.read, fresh, htwice]
      exact ⟨trivial, seen_of_refresh rfl rfl rfl⟩
  | available =>
      simp only [step, Breaker.read, fresh, htwice]
      exact ⟨trivial, seen_of_refresh rfl rfl rfl⟩
  | failureCount =>
      refine ⟨?_, seen_of_refresh ?_ rfl rfl⟩
      · simp only [step, fresh, Breaker.failureCount, Breaker.refresh_of_overdue hover,
          Breaker.toHalfOpen_eq]
        rfl
      · simp only [step, become, fresh, Breaker.failureCount, Breaker.refresh_prune, htwice]
  | report =>
      simp only [step, Breaker.report, fresh, htwice]
      exact ⟨trivial, seen_of_refresh rfl rfl rfl⟩
  | ring timer => cases htimers
  | stopTimers => cases htimers

/-- **Step theorem.**  Unless the event is a late failure, a cool-down that is over can be applied
before it or after it. -/
theorem step_fresh (h : r.Accounted) (htimers : e.isTimers = false) (hlate : ¬r.LateFailure now e) :
    (r.step now e).2 = ((r.fresh now).step now e).2 ∧
      (r.step now e).1.seen now = ((r.fresh now).step now e).1.seen now := by
  by_cases hover : r.breaker.Overdue now
  · exact step_fresh_of_overdue h htimers hlate hover
  · have hfresh : r.fresh now = r := by
      simp only [fresh, Breaker.refresh_of_not_overdue hover]
    rw [hfresh]
    exact ⟨rfl, rfl⟩

/-- **Step theorem.**  Runs that look alike go on looking alike, and give the same answers, as long
as neither meets a late failure. -/
theorem step_seen (hr : r.Accounted) (hs : s.Accounted) (hseen : r.seen now = s.seen now)
    (htimers : e.isTimers = false) (hlate : ¬r.LateFailure now e) (hlate' : ¬s.LateFailure now e) :
    (r.step now e).2 = (s.step now e).2 ∧ (r.step now e).1.seen now = (s.step now e).1.seen now := by
  obtain ⟨hout, hafter⟩ := step_fresh hr htimers hlate
  obtain ⟨hout', hafter'⟩ := step_fresh hs htimers hlate'
  obtain ⟨hplainOut, hplain⟩ :=
    step_plain (r := r.fresh now) (Breaker.refresh_not_overdue r.breaker now) htimers
  obtain ⟨hplainOut', hplain'⟩ :=
    step_plain (r := s.fresh now) (Breaker.refresh_not_overdue s.breaker now) htimers
  have hsame : (r.fresh now).plain now = (s.fresh now).plain now := hseen
  rw [hsame] at hplainOut hplain
  refine ⟨?_, ?_⟩
  · calc (r.step now e).2
        = ((r.fresh now).step now e).2 := hout
      _ = (((s.fresh now).plain now).step now e).2 := hplainOut.symm
      _ = ((s.fresh now).step now e).2 := hplainOut'
      _ = (s.step now e).2 := hout'.symm
  · have hplains : ((r.fresh now).step now e).1.plain now = ((s.fresh now).step now e).1.plain now :=
      hplain.symm.trans hplain'
    calc (r.step now e).1.seen now
        = ((r.fresh now).step now e).1.seen now := hafter
      _ = ((s.fresh now).step now e).1.seen now :=
        seen_of_plain (step_accounted (hr.fresh now) now e) (step_accounted (hs.fresh now) now e)
          hplains
      _ = (s.step now e).1.seen now := hafter'.symm

/-- **Looks.**  A look leaves everything that can be told of a run as it is. -/
theorem seen_look (hlook : e.isLook = true) : (r.step now e).1.seen now = r.seen now := by
  have htwice : (r.breaker.refresh now).refresh now = r.breaker.refresh now :=
    Breaker.refresh_refresh r.breaker (Nat.le_refl now)
  have hpruned : ((r.breaker.refresh now).prune now).plain now = (r.breaker.refresh now).plain now :=
    Breaker.plain_prune _ now
  cases e with
  | state => exact seen_of_refresh htwice rfl rfl
  | available => exact seen_of_refresh htwice rfl rfl
  | failureCount =>
      refine seen_congr ?_ rfl rfl fun c _ => ?_
      · simp only [step, become, Breaker.failureCount, Breaker.refresh_prune, hpruned]
      · simp only [step, become, Breaker.failureCount, Breaker.refresh_prune]
        rfl
  | report =>
      refine seen_congr ?_ rfl rfl fun c _ => ?_
      · simp only [step, become, Breaker.report, Breaker.refresh_prune, htwice, hpruned]
      · simp only [step, become, Breaker.report, Breaker.refresh_prune, htwice]
        rfl
  | start => cases hlook
  | finish call result => cases hlook
  | abandon call => cases hlook
  | trip => cases hlook
  | reset => cases hlook
  | ring timer => cases hlook
  | stopTimers => cases hlook

/-- What holds of a run at any time: the account of the calls, and the one timer. -/
structure Orderly (r : BreakerRun) : Prop where
  accounted : r.Accounted
  armed : r.breaker.Armed

theorem orderly_new (name : String) (config : BreakerConfig) (timersEnabled : Bool) :
    (new name config timersEnabled).Orderly :=
  ⟨accounted_new name config timersEnabled, armed_new name config timersEnabled⟩

namespace Orderly

/-- An event keeps a run in order. -/
theorem step (h : r.Orderly) (now : Nat) (e : BreakerEvent α) : (r.step now e).1.Orderly :=
  ⟨step_accounted h.accounted now e, h.armed.turns (step_turns r now e)⟩

/-- So do timers that ring on time. -/
theorem onTime (h : r.Orderly) (now : Nat) : (r.onTime now).Orderly := by
  refine ⟨h.accounted.become ?_, h.armed.turns (.fireDue r.breaker now)⟩
  rw [h.armed.fireDue]
  split
  · exact h.accounted.books.refresh now
  · exact h.accounted.books

theorem stepOnTime (h : r.Orderly) (now : Nat) (e : BreakerEvent α) :
    (r.stepOnTime now e).1.Orderly :=
  (h.onTime now).step now e

/-- Timers that ring on time do what a look would do. -/
theorem seen_onTime (h : r.Orderly) (now : Nat) : (r.onTime now).seen now = r.seen now := by
  refine seen_of_refresh ?_ rfl rfl
  simp only [BreakerRun.onTime, become, h.armed.fireDue]
  split
  · exact Breaker.refresh_refresh r.breaker (Nat.le_refl now)
  · rfl

/-- With timers no cool-down that is over is left to be applied. -/
theorem not_overdue_onTime (h : r.Orderly) (henabled : r.breaker.timersEnabled = true) (now : Nat) :
    ¬(r.onTime now).breaker.Overdue now := by
  simp only [BreakerRun.onTime, become, h.armed.fireDue, henabled, if_true]
  exact Breaker.refresh_not_overdue r.breaker now

theorem not_overdue_onTime_of_fresh (h : r.Orderly) (hfresh : ¬r.breaker.Overdue now) :
    ¬(r.onTime now).breaker.Overdue now := by
  simp only [BreakerRun.onTime, become, h.armed.fireDue, Breaker.refresh_of_not_overdue hfresh,
    ite_self]
  exact hfresh

end Orderly

theorem not_lateFailure (h : ¬r.breaker.Overdue now) : ¬r.LateFailure now e := by
  cases e with
  | finish call result => exact fun hlate => h hlate.2.2.1
  | _ => exact fun hlate => hlate

/-- Only the event that stops the timers stops them. -/
theorem timersEnabled_step (htimers : e.isTimers = false) (r : BreakerRun) (now : Nat) :
    (r.step now e).1.breaker.timersEnabled = r.breaker.timersEnabled := by
  cases e with
  | start =>
      rw [breaker_start]
      exact Breaker.timersEnabled_enter r.breaker now
  | finish call result =>
      simp only [step, finish]
      split
      · exact Breaker.timersEnabled_settle r.breaker now _ _
      · rfl
  | abandon call =>
      simp only [step, abandon]
      split
      · exact Breaker.timersEnabled_settle r.breaker now _ .neutral
      · rfl
  | trip => simp only [step, become, Breaker.trip, Breaker.toOpen_eq]
  | reset => simp only [step, become, Breaker.reset_eq]
  | state => exact Breaker.timersEnabled_refresh r.breaker now
  | available => exact Breaker.timersEnabled_refresh r.breaker now
  | failureCount => rfl
  | report => exact Breaker.timersEnabled_refresh r.breaker now
  | ring timer => cases htimers
  | stopTimers => cases htimers

theorem Orderly.timersEnabled (h : r.Orderly) (htimers : e.isTimers = false) (now : Nat) :
    (r.stepOnTime now e).1.breaker.timersEnabled = r.breaker.timersEnabled := by
  refine (timersEnabled_step htimers (r.onTime now) now).trans ?_
  simp only [BreakerRun.onTime, become, h.armed.fireDue]
  split
  · exact Breaker.timersEnabled_refresh r.breaker now
  · rfl

/-- **Step theorem.**  The same holds when timers ring on time. -/
theorem stepOnTime_seen (hr : r.Orderly) (hs : s.Orderly)
    (henabled : r.breaker.timersEnabled = true) (hseen : r.seen now = s.seen now)
    (htimers : e.isTimers = false) (hlate : ¬(s.onTime now).LateFailure now e) :
    (r.stepOnTime now e).2 = (s.stepOnTime now e).2 ∧
      (r.stepOnTime now e).1.seen now = (s.stepOnTime now e).1.seen now := by
  have hseen' : (r.onTime now).seen now = (s.onTime now).seen now := by
    rw [hr.seen_onTime, hs.seen_onTime, hseen]
  exact step_seen (hr.onTime now).accounted (hs.onTime now).accounted hseen' htimers
    (not_lateFailure (hr.not_overdue_onTime henabled now)) hlate

/-- One sequence of events is another with looks put in. -/
inductive Watched : List (Nat × BreakerEvent α) → List (Nat × BreakerEvent α) → Prop
  | nil : Watched [] []
  | keep (e : Nat × BreakerEvent α) {es es' : List (Nat × BreakerEvent α)} (h : Watched es es') :
      Watched (e :: es) (e :: es')
  | look (e : Nat × BreakerEvent α) (hlook : e.2.isLook = true)
      {es es' : List (Nat × BreakerEvent α)} (h : Watched es es') : Watched es (e :: es')

/-- Some event of a run with timers on time is a late failure. -/
def MeetsLateFailure (r : BreakerRun) : List (Nat × BreakerEvent α) → Prop
  | [] => False
  | e :: rest =>
    (r.onTime e.1).LateFailure e.1 e.2 ∨ (r.stepOnTime e.1 e.2).1.MeetsLateFailure rest

/-- With timers on time there are no late failures. -/
theorem not_meetsLateFailure (h : r.Orderly) (henabled : r.breaker.timersEnabled = true)
    (events : List (Nat × BreakerEvent α)) (htimers : ∀ e ∈ events, e.2.isTimers = false) :
    ¬r.MeetsLateFailure events := by
  induction events generalizing r with
  | nil => exact id
  | cons e rest ih =>
      rintro (hlate | hlater)
      · exact not_lateFailure (h.not_overdue_onTime henabled e.1) hlate
      · have hfirst : e.2.isTimers = false := htimers e List.mem_cons_self
        exact ih (h.stepOnTime e.1 e.2) ((h.timersEnabled hfirst e.1).trans henabled)
          (fun x hx => htimers x (List.mem_cons_of_mem _ hx)) hlater

/-- **Run theorem.**  A run with timers on time looks like any other in which the breaker is looked
at more often, as long as that meets no late failure. -/
theorem runOnTime_seen {es es' : List (Nat × BreakerEvent α)} {last : Nat} (hr : r.Orderly)
    (hs : s.Orderly) (henabled : r.breaker.timersEnabled = true)
    (hseen : r.seen last = s.seen last) (hwatched : Watched es es')
    (htimers : ∀ e ∈ es, e.2.isTimers = false)
    (horder : (last :: (es'.map (·.1) ++ [now])).Pairwise (· ≤ ·))
    (hlate : ¬s.MeetsLateFailure es') : (r.runOnTime es).seen now = (s.runOnTime es').seen now := by
  induction hwatched generalizing r s last with
  | nil =>
      have hlast : last ≤ now := (List.pairwise_cons.mp horder).1 now (by simp)
      exact seen_later hr.accounted hs.accounted hseen hlast
  | keep e h ih =>
      obtain ⟨hlast, horder'⟩ := List.pairwise_cons.mp horder
      have hfirst : e.2.isTimers = false := htimers e List.mem_cons_self
      have hnow : r.seen e.1 = s.seen e.1 :=
        seen_later hr.accounted hs.accounted hseen (hlast e.1 (by simp))
      have hstep := stepOnTime_seen hr hs henabled hnow hfirst fun h => hlate (.inl h)
      exact ih (hr.stepOnTime e.1 e.2) (hs.stepOnTime e.1 e.2)
        ((hr.timersEnabled hfirst e.1).trans henabled) hstep.2
        (fun x hx => htimers x (List.mem_cons_of_mem _ hx)) horder' fun h => hlate (.inr h)
  | look e hlook h ih =>
      obtain ⟨hlast, horder'⟩ := List.pairwise_cons.mp horder
      have hnow : r.seen e.1 = s.seen e.1 :=
        seen_later hr.accounted hs.accounted hseen (hlast e.1 (by simp))
      have hlooked : (s.stepOnTime e.1 e.2).1.seen e.1 = s.seen e.1 :=
        (seen_look hlook).trans (hs.seen_onTime e.1)
      exact ih hr (hs.stepOnTime e.1 e.2) henabled (hnow.trans hlooked.symm) htimers horder'
        fun h => hlate (.inr h)

/-- Looks in between stop no timers. -/
theorem Watched.timers {es es' : List (Nat × BreakerEvent α)} (h : Watched es es')
    (htimers : ∀ e ∈ es, e.2.isTimers = false) : ∀ e ∈ es', e.2.isTimers = false := by
  induction h with
  | nil => exact htimers
  | keep e h ih =>
      intro x hx
      rcases List.mem_cons.mp hx with rfl | hx
      · exact htimers x List.mem_cons_self
      · exact ih (fun y hy => htimers y (List.mem_cons_of_mem _ hy)) x hx
  | look e hlook h ih =>
      intro x hx
      rcases List.mem_cons.mp hx with rfl | hx
      · revert hlook
        cases x.2 <;> simp [BreakerEvent.isLook, BreakerEvent.isTimers]
      · exact ih htimers x hx

/-- **Run theorem.**  A run in which timers ring on time stays in order. -/
theorem orderly_runOnTime (h : r.Orderly) (events : List (Nat × BreakerEvent α)) :
    (r.runOnTime events).Orderly := by
  induction events generalizing r with
  | nil => exact h
  | cons e rest ih => exact ih (h.stepOnTime e.1 e.2)

theorem timersEnabled_runOnTime (h : r.Orderly) (events : List (Nat × BreakerEvent α))
    (htimers : ∀ e ∈ events, e.2.isTimers = false) :
    (r.runOnTime events).breaker.timersEnabled = r.breaker.timersEnabled := by
  induction events generalizing r with
  | nil => rfl
  | cons e rest ih =>
      have hrest := ih (h.stepOnTime e.1 e.2) fun x hx => htimers x (List.mem_cons_of_mem _ hx)
      exact hrest.trans (h.timersEnabled (htimers e List.mem_cons_self) e.1)

/-- The end of a call under way is settled with its breaker. -/
theorem breaker_finish {call : Nat} {a : Admission} (ha : r.admission? call = some a) (now : Nat)
    (result : Except RoutingError α) :
    (r.step now (.finish call result)).1.breaker =
      r.breaker.settle now a (.ofResult result) := by
  simp only [step, finish, ha]
  rfl

/-- What is seen of a run is in the state that a look finds. -/
theorem state_seen (r : BreakerRun) (now : Nat) :
    (r.seen now).breaker.state = (r.breaker.refresh now).state :=
  rfl

/-- A late failure is not noticed: the next look finds the circuit half-open. -/
theorem LateFailure.unnoticed (h : r.LateFailure now e) :
    ((r.step now e).1.seen now).breaker.state = .halfOpen := by
  cases e with
  | finish call result =>
      obtain ⟨hcall, hfailure, hover, -⟩ := h
      obtain ⟨a, ha⟩ := Option.isSome_iff_exists.mp hcall
      have hsettle := Breaker.settle_failure_of_open hover.1 now a
      have hover' : (r.breaker.countFailure now).Overdue now := hover
      rw [state_seen, breaker_finish ha, hfailure, hsettle, Breaker.refresh_of_overdue hover']
      exact Breaker.state_toHalfOpen _
  | _ => exact h.elim

/-- Had somebody looked before, the circuit would have reopened. -/
theorem LateFailure.reopens (h : r.LateFailure now e) (hr : r.Accounted) :
    (((r.fresh now).step now e).1.seen now).breaker.state = .open := by
  cases e with
  | finish call result =>
      obtain ⟨hcall, hfailure, hover, hpos⟩ := h
      obtain ⟨a, ha⟩ := Option.isSome_iff_exists.mp hcall
      have ha' : (r.fresh now).admission? call = some a := ha
      have hbreaker : (r.fresh now).breaker = r.breaker.toHalfOpen :=
        Breaker.refresh_of_overdue hover
      have hsettle := Breaker.settle_failure_toHalfOpen (hr.tagged (Keyed.mem_of_lookup ha)) now
      have hreopened : ¬((r.breaker.toHalfOpen.countFailure now).toOpen now).Overdue now := by
        rw [Breaker.toOpen_eq, Breaker.toHalfOpen_eq]
        rintro ⟨-, opened, hopened, hdue⟩
        cases hopened
        have hdue' : now + r.breaker.config.resetTimeout ≤ now := hdue
        omega
      have hafter : ((r.fresh now).step now (.finish call result)).1.breaker =
          (r.breaker.toHalfOpen.countFailure now).toOpen now := by
        rw [breaker_finish ha', hbreaker, hfailure, hsettle]
      rw [state_seen, hafter, Breaker.refresh_of_not_overdue hreopened, Breaker.toOpen_eq]
  | _ => exact h.elim

/-- What the state is when somebody looks. -/
theorem Orderly.outcome_state (h : r.Orderly) (now : Nat) :
    (r.stepOnTime now (.state : BreakerEvent α)).2 = .state (r.seen now).breaker.state := by
  rw [← h.seen_onTime now]
  rfl

/-- A run that looks like one that meets a late failure, but has applied the end of the cool-down,
finds the circuit open again. -/
theorem state_seen_of_lateFailure (hr : r.Accounted) (hs : s.Accounted)
    (hseen : r.seen now = s.seen now) (hfresh : ¬r.breaker.Overdue now)
    (htimers : e.isTimers = false) (hlate : s.LateFailure now e) :
    ((r.step now e).1.seen now).breaker.state = .open := by
  have htwice : (s.fresh now).seen now = s.seen now :=
    seen_of_refresh (Breaker.refresh_refresh s.breaker (Nat.le_refl now)) rfl rfl
  have hstep := step_seen hr (hs.fresh now) (hseen.trans htwice.symm) htimers
    (not_lateFailure hfresh) (not_lateFailure (Breaker.refresh_not_overdue s.breaker now))
  rw [hstep.2]
  exact hlate.reopens hs

/-- A late failure is handed to its caller like any other. -/
theorem LateFailure.outcome (h : s.LateFailure now e) (hseen : r.seen now = s.seen now) :
    (r.step now e).2 = (s.step now e).2 := by
  cases e with
  | finish call result =>
      obtain ⟨a, ha⟩ := Option.isSome_iff_exists.mp h.1
      have hcalls : (r.seen now).admission? call = (s.seen now).admission? call := by rw [hseen]
      have hr : (r.seen now).admission? call = (r.admission? call).map _ :=
        admission?_plain (r.fresh now) now call
      have hs : (s.seen now).admission? call = (s.admission? call).map _ :=
        admission?_plain (s.fresh now) now call
      rw [hr, hs, ha, Option.map_some, Option.map_eq_some_iff] at hcalls
      obtain ⟨a', ha', -⟩ := hcalls
      simp only [step, finish, ha, ha']
  | _ => exact h.elim

/-- **Late failures.**  Compare a breaker with timers on time and one, with timers or without, that
is looked at more often.  With timers the second meets no late failure, either.  As long as it meets
none, both answer alike, whatever comes next.  If that is a late failure, the one with timers is open
afterwards and the other half-open; a look just before the failure would have made it open, too. -/
theorem runOnTime_agrees_unless_late (name : String) (config : BreakerConfig)
    (timersEnabled : Bool) {es es' : List (Nat × BreakerEvent α)} (hwatched : Watched es es')
    (htimers : ∀ e ∈ es, e.2.isTimers = false) (now : Nat)
    (horder : (es'.map (·.1) ++ [now]).Pairwise (· ≤ ·)) :
    let r := (new name config true).runOnTime es
    let s := (new name config timersEnabled).runOnTime es'
    (timersEnabled = true → ¬(new name config timersEnabled).MeetsLateFailure es') ∧
    (¬(new name config timersEnabled).MeetsLateFailure es' →
      ∀ e : BreakerEvent α, e.isTimers = false →
        (s.stepOnTime now e).2 = (r.stepOnTime now e).2 ∧
        ((s.onTime now).LateFailure now e →
          ((r.stepOnTime now e).1.stepOnTime now (.state : BreakerEvent α)).2 = .state .open ∧
          ((s.stepOnTime now e).1.stepOnTime now (.state : BreakerEvent α)).2 = .state .halfOpen ∧
          (((s.stepOnTime now (.state : BreakerEvent α)).1.stepOnTime now e).1.stepOnTime now
            (.state : BreakerEvent α)).2 = .state .open)) := by
  intro r s
  have hnew := orderly_new name config true
  have hnew' := orderly_new name config timersEnabled
  refine ⟨fun henabled => not_meetsLateFailure hnew' henabled es' (hwatched.timers htimers), ?_⟩
  intro hnone e he
  have hr : r.Orderly := orderly_runOnTime hnew es
  have hs : s.Orderly := orderly_runOnTime hnew' es'
  have henabled : r.breaker.timersEnabled = true := timersEnabled_runOnTime hnew es htimers
  have hseen : r.seen now = s.seen now :=
    runOnTime_seen hnew hnew' rfl rfl hwatched htimers
      (List.pairwise_cons.mpr ⟨fun _ _ => Nat.zero_le _, horder⟩) hnone
  have hseen' : (r.onTime now).seen now = (s.onTime now).seen now := by
    rw [hr.seen_onTime, hs.seen_onTime, hseen]
  refine ⟨?_, fun hlate => ⟨?_, ?_, ?_⟩⟩
  · by_cases hlate : (s.onTime now).LateFailure now e
    · exact (hlate.outcome hseen').symm
    · exact (stepOnTime_seen hr hs henabled hseen he hlate).1.symm
  · rw [(hr.stepOnTime now e).outcome_state]
    exact congrArg BreakerOutcome.state (state_seen_of_lateFailure (hr.onTime now).accounted
      (hs.onTime now).accounted hseen' (hr.not_overdue_onTime henabled now) he hlate)
  · rw [(hs.stepOnTime now e).outcome_state]
    exact congrArg BreakerOutcome.state hlate.unnoticed
  · have hlooked : (s.stepOnTime now (.state : BreakerEvent α)).1.seen now = (s.onTime now).seen now :=
      seen_look rfl
    have hs' := hs.stepOnTime now (.state : BreakerEvent α)
    have hfresh : ¬((s.stepOnTime now (.state : BreakerEvent α)).1.onTime now).breaker.Overdue now :=
      hs'.not_overdue_onTime_of_fresh (Breaker.refresh_not_overdue (s.onTime now).breaker now)
    rw [(hs'.stepOnTime now e).outcome_state]
    exact congrArg BreakerOutcome.state (state_seen_of_lateFailure (hs'.onTime now).accounted
      (hs.onTime now).accounted ((hs'.seen_onTime now).trans hlooked) hfresh he hlate)

/-- A failure of the endpoint. -/
def boom : RoutingError :=
  .callFailed (some 500) "boom"

/-- A call fails just when the cool-down is over.  With timers the circuit is open afterwards,
without them half-open; it is open, too, when somebody has looked at it before the failure. -/
theorem late_failure_shows :
    let config : BreakerConfig := { resetTimeout := 10 }
    let opened : List (Nat × BreakerEvent Unit) := [(0, .start), (0, .trip)]
    let failed : List (Nat × BreakerEvent Unit) := opened ++ [(10, .finish 0 (.error boom))]
    let watched : List (Nat × BreakerEvent Unit) :=
      opened ++ [(10, .state), (10, .finish 0 (.error boom))]
    (((new "a" config true).runOnTime failed).stepOnTime 10 (.state : BreakerEvent Unit)).2 =
        .state .open ∧
      (((new "a" config false).runOnTime failed).stepOnTime 10 (.state : BreakerEvent Unit)).2 =
        .state .halfOpen ∧
      (((new "a" config false).runOnTime watched).stepOnTime 10 (.state : BreakerEvent Unit)).2 =
        .state .open := by
  exact ⟨rfl, rfl, rfl⟩

/-- The failure of a call when the cool-down is over, without timers. -/
theorem runOnTime_agrees_unless_late_failing :
    let config : BreakerConfig := { resetTimeout := 10 }
    let es : List (Nat × BreakerEvent Unit) := [(0, .start), (0, .trip)]
    let r := (new "a" config true).runOnTime es
    let s := (new "a" config false).runOnTime es
    let e : BreakerEvent Unit := .finish 0 (.error boom)
    Watched es es ∧ (∀ e ∈ es, e.2.isTimers = false) ∧
      (es.map Prod.fst ++ [10]).Pairwise (· ≤ ·) ∧
      ¬(new "a" config false).MeetsLateFailure es ∧ (s.onTime 10).LateFailure 10 e ∧
      (s.stepOnTime 10 e).2 = (r.stepOnTime 10 e).2 ∧
      ((r.stepOnTime 10 e).1.stepOnTime 10 (.state : BreakerEvent Unit)).2 = .state .open ∧
      ((s.stepOnTime 10 e).1.stepOnTime 10 (.state : BreakerEvent Unit)).2 = .state .halfOpen := by
  intro config es r s e
  have hwatched : Watched es es := .keep _ (.keep _ .nil)
  have htimers : ∀ e ∈ es, e.2.isTimers = false := by
    intro e he
    rcases List.mem_cons.mp he with rfl | he
    · rfl
    · rw [List.mem_singleton.mp he]
      rfl
  have horder : (es.map Prod.fst ++ [10]).Pairwise (· ≤ ·) := by decide
  have hnone : ¬(new "a" config false).MeetsLateFailure es := by
    rintro (hlate | hlate | hlate)
    · exact hlate
    · exact hlate
    · exact hlate
  have hlate : (s.onTime 10).LateFailure 10 e := ⟨rfl, rfl, ⟨rfl, 0, rfl, by decide⟩, by decide⟩
  obtain ⟨-, hagree⟩ := runOnTime_agrees_unless_late "a" config false hwatched htimers 10 horder
  obtain ⟨hout, hstates⟩ := hagree hnone e rfl
  obtain ⟨hr, hs, -⟩ := hstates hlate
  exact ⟨hwatched, htimers, horder, hnone, hlate, hout, hr, hs⟩

end BreakerRun

end InferenceRouting
