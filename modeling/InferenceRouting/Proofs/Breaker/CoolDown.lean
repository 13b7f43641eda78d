import InferenceRouting.Proofs.Breaker.Transitions

/-!
# The cool-down

An opening starts a timer that may outlive it, and while the circuit is open failures of calls
admitted earlier keep arriving.  None of them moves the end of the cool-down: as long as nobody
trips or resets the breaker, whatever happens to an open circuit leaves it open since the same time,
or ends a cool-down that is over (`Cools`).  For a timer this rests on its generation: the only
timer of the generation of an opening is the one started then (`Dated`).

`lastOpening` follows a run from outside and notes when the circuit was last seen to open.
`run_cools_down` says how the breaker answers before and after the end of that cool-down.
-/

namespace InferenceRouting

namespace Breaker

variable {b c d : Breaker} {now : Nat}

/-- What the cool-down depends on. -/
def clock (b : Breaker) : CircuitState × Option Nat × BreakerConfig :=
  (b.state, b.openedAt, b.config)

/-- Whether a cool-down is over is told by its clock. -/
theorem overdue_of_clock (h : c.clock = b.clock) (hover : c.Overdue now) : b.Overdue now := by
  simp only [clock, Prod.mk.injEq] at h
  obtain ⟨hstate, hsince, hconfig⟩ := h
  unfold Overdue
  rw [← hstate, ← hsince, ← hconfig]
  exact hover

/-- Letting a call through leaves the clock. -/
theorem clock_judge (b : Breaker) (now : Nat) : (b.judge now).1.clock = b.clock := by
  unfold judge
  split
  · rfl
  · rfl
  · split <;> rfl

/-- So does giving a place back. -/
theorem clock_releaseProbe (b : Breaker) (a : Admission) : (b.releaseProbe a).clock = b.clock := by
  unfold releaseProbe
  split
  · split <;> rfl
  · rfl

/-- What something done at `now` means for the cool-down. -/
inductive Cools (b c : Breaker) (now : Nat) : Prop
  | begins (h : b.state ≠ .open) (h' : c.state = .open) (hnow : c.openedAt = some now)
  | goesOn (h : b.state = .open) (h' : c.state = .open) (hsince : c.openedAt = b.openedAt)
  | ends (h : b.Overdue now) (h' : c.state ≠ .open)
  | idle (h : b.state ≠ .open) (h' : c.state ≠ .open)

namespace Cools

/-- The clock goes on. -/
theorem quiet (h : c.clock = b.clock) : b.Cools c now := by
  simp only [clock, Prod.mk.injEq] at h
  by_cases hstate : b.state = .open
  · exact .goesOn hstate (h.1.trans hstate) h.2.1
  · exact .idle hstate fun hopen => hstate (h.1.symm.trans hopen)

theorem trans_quiet (h : b.Cools c now) (hd : d.clock = c.clock) : b.Cools d now := by
  simp only [clock, Prod.mk.injEq] at hd
  obtain ⟨hstate, hsince, -⟩ := hd
  cases h with
  | begins hne hopen hnow => exact .begins hne (hstate.trans hopen) (hsince.trans hnow)
  | goesOn hopen hopen' hsame => exact .goesOn hopen (hstate.trans hopen') (hsince.trans hsame)
  | ends hover hne => exact .ends hover (hstate ▸ hne)
  | idle hne hne' => exact .idle hne (hstate ▸ hne')

theorem quiet_trans (hc : c.clock = b.clock) (h : c.Cools d now) : b.Cools d now := by
  have hover : c.Overdue now → b.Overdue now := overdue_of_clock hc
  simp only [clock, Prod.mk.injEq] at hc
  obtain ⟨hstate, hsince, -⟩ := hc
  cases h with
  | begins hne hopen hnow => exact .begins (hstate ▸ hne) hopen hnow
  | goesOn hopen hopen' hsame => exact .goesOn (hstate ▸ hopen) hopen' (hsame.trans hsince)
  | ends hlate hne => exact .ends (hover hlate) hne
  | idle hne hne' => exact .idle (hstate ▸ hne) hne'

/-- Opening sets the clock. -/
theorem toOpen (h : b.state ≠ .open) (now : Nat) : b.Cools (b.toOpen now) now := by
  rw [toOpen_eq]
  exact .begins h rfl rfl

/-- A circuit turns half-open when its cool-down is over. -/
theorem toHalfOpen (h : b.Overdue now) : b.Cools b.toHalfOpen now := by
  rw [toHalfOpen_eq]
  exact .ends h (by simp)

/-- A look does so at most. -/
theorem refresh (b : Breaker) (now : Nat) : b.Cools (b.refresh now) now := by
  by_cases h : b.Overdue now
  · rw [refresh_of_overdue h]
    exact .toHalfOpen h
  · rw [refresh_of_not_overdue h]
    exact .quiet rfl

/-- So does asking for a call. -/
theorem enter (b : Breaker) (now : Nat) : b.Cools (b.enter now).1 now := by
  have hcount : b.countRequest.clock = b.clock := rfl
  rw [enter_eq]
  exact (Cools.quiet_trans hcount (.refresh _ now)).trans_quiet (clock_judge _ now)

/-- A success may close the circuit. -/
theorem credit (b : Breaker) (a : Admission) : b.Cools (b.credit a) now := by
  cases hstate : b.state with
  | closed =>
      rw [credit_of_closed hstate]
      exact .quiet rfl
  | «open» =>
      rw [credit_of_open hstate]
      exact .quiet rfl
  | halfOpen =>
      by_cases hprobe : a.probe = some b.generation
      · rw [credit_of_probe hstate hprobe]
        split
        · rw [toClosed_eq]
          exact .idle (by simp [hstate]) (by simp)
        · exact .quiet rfl
      · rw [credit_of_other hstate hprobe]
        exact .quiet rfl

/-- A failure opens a circuit that is not open, and leaves an open one as it is. -/
theorem react (b : Breaker) (now : Nat) : b.Cools (b.react now) now := by
  cases hstate : b.state with
  | closed =>
      rw [react_of_closed hstate]
      split
      · exact .toOpen (by simp [hstate]) now
      · exact .quiet rfl
  | «open» =>
      rw [react_of_open hstate]
      exact .quiet rfl
  | halfOpen =>
      rw [react_of_halfOpen hstate]
      exact .toOpen (by simp [hstate]) now

/-- The end of a call does not move the cool-down, whatever its verdict. -/
theorem settle (b : Breaker) (now : Nat) (a : Admission) (v : Verdict) :
    b.Cools (b.settle now a v) now := by
  refine .quiet_trans (clock_releaseProbe b a) ?_
  unfold Breaker.settle
  generalize b.releaseProbe a = c
  cases v with
  | success =>
      have hnote : (c.noteSuccess now).clock = c.clock := rfl
      exact .quiet_trans hnote (.credit _ a)
  | failure =>
      have hcount : (c.countFailure now).clock = c.clock := rfl
      exact .quiet_trans hcount (.react _ now)
  | neutral => exact .quiet rfl

/-- A timer ends the cool-down it was started for when that is over, and no other. -/
theorem fireTimer {generation : Nat}
    (hdue : b.state = .open → b.generation = generation → b.Overdue now) :
    b.Cools (b.fireTimer generation) now := by
  unfold Breaker.fireTimer
  dsimp only
  split
  · rename_i h
    rw [toHalfOpen_eq]
    exact .ends (hdue h.1 h.2) (by simp)
  · exact .quiet rfl

end Cools

/-- The timers that were ever started: none is from a generation to come, and while the circuit is
open the one of its generation is due when the cool-down is over. -/
structure Dated (b : Breaker) (started : List ResetTimer) : Prop where
  armed : b.Armed
  past : ∀ t ∈ started, t.generation ≤ b.generation
  due : ∀ t ∈ started, b.state = .open → t.generation = b.generation →
    ∃ opened, b.openedAt = some opened ∧ t.due = opened + b.config.resetTimeout

/-- The timers of a breaker are dated. -/
theorem Armed.dated (h : b.Armed) : b.Dated b.timers := by
  by_cases hstate : b.state = .open
  · obtain ⟨-, opened, hopened, htimers⟩ := h.opened hstate
    have honly : ∀ t ∈ b.timers, t = ⟨b.generation, opened + b.config.resetTimeout⟩ := by
      intro t ht
      rw [htimers] at ht
      split at ht
      · exact List.mem_singleton.mp ht
      · cases ht
    refine ⟨h, fun t ht => ?_, fun t ht _ _ => ⟨opened, hopened, ?_⟩⟩
    · exact Nat.le_of_eq (congrArg ResetTimer.generation (honly t ht))
    · exact congrArg ResetTimer.due (honly t ht)
  · have hnone := (h.idle hstate).2
    refine ⟨h, fun t ht => ?_, fun t ht => ?_⟩
    · rw [hnone] at ht
      cases ht
    · rw [hnone] at ht
      cases ht

/-- A move keeps the timers of the past dated: an opening begins a generation of its own. -/
theorem Dated.turns {started : List ResetTimer} (h : b.Dated started) (ht : b.Turns c) :
    c.Dated (started ++ c.timers) := by
  have harmed := h.armed.turns ht
  have hadvances := ht.advances
  refine ⟨harmed, fun t hmem => ?_, fun t hmem hopen hsame => ?_⟩
  · rcases List.mem_append.mp hmem with hold | hnew
    · exact Nat.le_trans (h.past t hold) hadvances.generation
    · exact harmed.dated.past t hnew
  · rcases List.mem_append.mp hmem with hold | hnew
    · have hle := h.past t hold
      have hge := hadvances.generation
      have hperiod : c.generation = b.generation := by omega
      obtain ⟨hopen', hsince⟩ := hadvances.opened hperiod hopen
      obtain ⟨opened, hopened, hdue⟩ := h.due t hold hopen' (hsame.trans hperiod)
      exact ⟨opened, hsince.trans hopened, by rw [hdue, hadvances.config]⟩
    · exact harmed.dated.due t hnew hopen hsame

end Breaker

namespace BreakerRun

variable {α : Type} {r : BreakerRun}

/-- The timers of the run are dated. -/
def Dated (r : BreakerRun) : Prop :=
  r.breaker.Dated r.started

theorem dated_new (name : String) (config : BreakerConfig) (timersEnabled : Bool) :
    (new name config timersEnabled).Dated :=
  ⟨armed_new name config timersEnabled, by simp [new], by simp [new]⟩

/-- The timers that are there after an event are noted. -/
theorem step_started (r : BreakerRun) (now : Nat) (e : BreakerEvent α) :
    (r.step now e).1.started = r.started ++ (r.step now e).1.breaker.timers ∨
      (r.step now e).1 = r := by
  cases e with
  | start =>
      simp only [step, start]
      split
      · exact .inl rfl
      · exact .inl rfl
  | finish call result =>
      simp only [step, finish]
      split
      · exact .inl rfl
      · exact .inr rfl
  | abandon call =>
      simp only [step, abandon]
      split
      · exact .inl rfl
      · exact .inr rfl
  | ring timer =>
      simp only [step, ring]
      split
      · exact .inl rfl
      · exact .inr rfl
  | _ => exact .inl rfl

/-- **Step theorem.**  An open circuit knows since when it is open. -/
theorem step_dated (h : r.Dated) (now : Nat) (e : BreakerEvent α) : (r.step now e).1.Dated := by
  rcases step_started r now e with hstarted | hsame
  · unfold Dated
    rw [hstarted]
    exact Breaker.Dated.turns h (step_turns r now e)
  · rw [hsame]
    exact h

theorem run_dated (h : r.Dated) (events : List (Nat × BreakerEvent α)) : (r.run events).Dated := by
  induction events generalizing r with
  | nil => exact h
  | cons e rest ih => exact ih (step_dated h e.1 e.2)

/-- **Step theorem.**  Unless the breaker is tripped or reset, nothing cuts the cool-down short. -/
theorem step_cools (h : r.Dated) (now : Nat) {e : BreakerEvent α}
    (htrip : e ≠ .trip) (hreset : e ≠ .reset) :
    r.breaker.Cools (r.step now e).1.breaker now := by
  have hread : r.breaker.Cools (r.breaker.read now).1 now := .refresh r.breaker now
  cases e with
  | start =>
      rw [breaker_start]
      exact .enter r.breaker now
  | finish call result =>
      simp only [step, finish]
      split
      · exact .settle r.breaker now _ _
      · exact .quiet rfl
  | abandon call =>
      simp only [step, abandon]
      split
      · exact .quiet (Breaker.clock_releaseProbe r.breaker _)
      · exact .quiet rfl
  | trip => exact absurd rfl htrip
  | reset => exact absurd rfl hreset
  | state => exact hread
  | available => exact hread
  | failureCount => exact .quiet rfl
  | report => exact (Breaker.Cools.refresh r.breaker now).trans_quiet rfl
  | ring timer =>
      simp only [step, ring]
      split
      · rename_i hrings
        refine .fireTimer fun hopen hsame => ⟨hopen, ?_⟩
        obtain ⟨opened, hopened, hdue⟩ := h.due timer hrings.1 hopen hsame.symm
        exact ⟨opened, hopened, hdue ▸ hrings.2⟩
      · exact .quiet rfl
  | stopTimers => exact .quiet rfl

/-- The time of the last opening after one more event, if it was `since` before: the circuit is
tripped, or is open without having been so.  A reset ends the matter. -/
def noteOpening (r : BreakerRun) (since : Option Nat) (now : Nat) (e : BreakerEvent α) :
    Option Nat :=
  match e with
  | .trip => some now
  | .reset => none
  | e =>
    if r.breaker.state ≠ .open ∧ (r.step now e).1.breaker.state = .open then some now else since

/-- The time of the last opening after some events, unless the breaker has been reset since. -/
def lastOpening (r : BreakerRun) (since : Option Nat) : List (Nat × BreakerEvent α) → Option Nat
  | [] => since
  | e :: rest => (r.step e.1 e.2).1.lastOpening (r.noteOpening since e.1 e.2) rest

/-- How the breaker stands at `now` to the last opening: it is open since then, or the cool-down is
over.  Without an opening it is not open. -/
structure Follows (r : BreakerRun) (since : Option Nat) (now : Nat) : Prop where
  never : since = none → r.breaker.state ≠ .open
  opened : ∀ t, since = some t →
    (r.breaker.state = .open ∧ r.breaker.openedAt = some t) ∨
    (r.breaker.state ≠ .open ∧ t + r.breaker.config.resetTimeout ≤ now)

theorem Follows.mono {since : Option Nat} {last now : Nat} (h : r.Follows since last)
    (hlast : last ≤ now) : r.Follows since now := by
  refine ⟨h.never, fun t ht => ?_⟩
  rcases h.opened t ht with hopen | ⟨hne, hover⟩
  · exact .inl hopen
  · exact .inr ⟨hne, Nat.le_trans hover hlast⟩

/-- An opening is told by the states before and after an event. -/
theorem noteOpening_of_other {e : BreakerEvent α} (htrip : e ≠ .trip) (hreset : e ≠ .reset)
    (since : Option Nat) (now : Nat) :
    r.noteOpening since now e =
      if r.breaker.state ≠ .open ∧ (r.step now e).1.breaker.state = .open then some now
      else since := by
  cases e with
  | trip => exact absurd rfl htrip
  | reset => exact absurd rfl hreset
  | _ => rfl

/-- **Step theorem.**  The breaker goes on following its openings. -/
theorem step_follows {since : Option Nat} {last now : Nat} (hdated : r.Dated)
    (h : r.Follows since last) (hlast : last ≤ now) (e : BreakerEvent α) :
    (r.step now e).1.Follows (r.noteOpening since now e) now := by
  by_cases htrip : e = .trip
  · subst htrip
    refine ⟨fun hnone => (by cases hnone), fun t ht => .inl ?_⟩
    cases ht
    have htrip : (r.step now (.trip : BreakerEvent α)).1.breaker = r.breaker.toOpen now := rfl
    rw [htrip, Breaker.toOpen_eq]
    exact ⟨rfl, rfl⟩
  by_cases hreset : e = .reset
  · subst hreset
    refine ⟨fun _ => ?_, fun t ht => by cases ht⟩
    simp [step, become, Breaker.reset_eq]
  rw [noteOpening_of_other htrip hreset]
  have hconfig := (step_turns r now e).advances.config
  cases step_cools hdated now htrip hreset with
  | begins hne hopen hnow =>
      rw [if_pos ⟨hne, hopen⟩]
      refine ⟨fun hnone => (by cases hnone), fun t ht => .inl ?_⟩
      cases ht
      exact ⟨hopen, hnow⟩
  | goesOn hopen hopen' hsame =>
      rw [if_neg fun hopens => hopens.1 hopen]
      refine ⟨fun hnone => absurd hopen (h.never hnone), fun t ht => .inl ?_⟩
      rcases h.opened t ht with ⟨-, hsince⟩ | ⟨hne, -⟩
      · exact ⟨hopen', hsame.trans hsince⟩
      · exact absurd hopen hne
  | ends hover hne =>
      rw [if_neg fun hopens => hne hopens.2]
      refine ⟨fun _ => hne, fun t ht => .inr ⟨hne, ?_⟩⟩
      obtain ⟨hopen, opened, hopened, hdue⟩ := hover
      rcases h.opened t ht with ⟨-, hsince⟩ | ⟨hclosed, -⟩
      · have hsame : opened = t := Option.some.inj (hopened.symm.trans hsince)
        rw [hconfig, ← hsame]
        exact hdue
      · exact absurd hopen hclosed
  | idle hne hne' =>
      rw [if_neg fun hopens => hne' hopens.2]
      refine ⟨fun _ => hne', fun t ht => .inr ⟨hne', ?_⟩⟩
      rcases h.opened t ht with ⟨hopen, -⟩ | ⟨-, hover⟩
      · exact absurd hopen hne
      · rw [hconfig]
        exact Nat.le_trans hover hlast

theorem run_follows {since : Option Nat} {last now : Nat} (hdated : r.Dated)
    (h : r.Follows since last) (events : List (Nat × BreakerEvent α))
    (horder : (last :: (events.map (·.1) ++ [now])).Pairwise (· ≤ ·)) :
    (r.run events).Follows (r.lastOpening since events) now := by
  induction events generalizing r since last with
  | nil => exact h.mono ((List.pairwise_cons.mp horder).1 now (by simp))
  | cons e rest ih =>
      obtain ⟨hlast, horder'⟩ := List.pairwise_cons.mp horder
      exact ih (step_dated hdated e.1 e.2)
        (step_follows hdated h (hlast e.1 (by simp)) e.2) horder'

/-- During the cool-down a call is rejected and told when the cool-down is over. -/
theorem start_of_cooling {opened now : Nat} (hopen : r.breaker.state = .open)
    (hsince : r.breaker.openedAt = some opened)
    (hearly : now < opened + r.breaker.config.resetTimeout) :
    (r.step now (.start : BreakerEvent α)).2 =
        .rejected (.circuitOpen r.breaker.name (opened + r.breaker.config.resetTimeout)) ∧
      (r.step now (.start : BreakerEvent α)).1.calls = r.calls := by
  have hearly' : ¬r.breaker.countRequest.Overdue now := by
    rintro ⟨-, opened', hopened, hdue⟩
    have hsame : opened' = opened := Option.some.inj (hopened.symm.trans hsince)
    rw [hsame] at hdue
    exact Nat.not_le_of_lt hearly hdue
  have hjudge := Breaker.judge_of_open (b := r.breaker.countRequest) hopen now
  have hretry : r.breaker.countRequest.openedAt.getD now = opened := by
    simp only [Breaker.countRequest, hsince, Option.getD_some]
  simp only [step, start, Breaker.enter_eq, Breaker.refresh_of_not_overdue hearly', hjudge, hretry]
  exact ⟨rfl, rfl⟩

/-- A call that finds the circuit closed or half-open is admitted, or told to retry at once. -/
theorem start_of_cooled {now : Nat}
    (hcooled : (r.breaker.countRequest.refresh now).state ≠ .open) :
    (r.step now (.start : BreakerEvent α)).2 = .admitted ∨
      (r.step now (.start : BreakerEvent α)).2 = .rejected (.circuitOpen r.breaker.name now) := by
  have hname : (r.breaker.countRequest.refresh now).name = r.breaker.name :=
    (Breaker.Turns.refresh r.breaker.countRequest now).advances.name
  simp only [step, start, Breaker.enter_eq]
  generalize r.breaker.countRequest.refresh now = c at hcooled hname
  cases hstate : c.state with
  | closed =>
      rw [Breaker.judge_of_closed hstate]
      exact .inl rfl
  | «open» => exact absurd hstate hcooled
  | halfOpen =>
      rw [Breaker.judge_of_halfOpen hstate, ← hname]
      by_cases hfull : c.config.halfOpenMaxAttempts ≤ c.halfOpenInFlight
      · rw [if_pos hfull]
        exact .inr rfl
      · rw [if_neg hfull]
        exact .inl rfl

/-- The first to look when the cool-down is over finds the circuit out of it. -/
theorem refresh_ne_open {b : Breaker} {now : Nat} (h : b.state ≠ .open ∨ b.Overdue now) :
    (b.refresh now).state ≠ .open := by
  rcases h with hne | hover
  · rw [Breaker.refresh_of_ne_open hne]
    exact hne
  · rw [Breaker.refresh_of_overdue hover, Breaker.toHalfOpen_eq]
    simp

/-- The first call after the cool-down begins a period of probing, and is a probe. -/
theorem start_of_overdue {now : Nat} (hover : r.breaker.Overdue now)
    (hmax : 1 ≤ r.breaker.config.halfOpenMaxAttempts) :
    (r.step now (.start : BreakerEvent α)).2 = .admitted := by
  have hover' : r.breaker.countRequest.Overdue now := hover
  have hhalf : r.breaker.countRequest.toHalfOpen.state = .halfOpen := by
    rw [Breaker.toHalfOpen_eq]
  have hplace : ¬r.breaker.countRequest.toHalfOpen.config.halfOpenMaxAttempts ≤
      r.breaker.countRequest.toHalfOpen.halfOpenInFlight := by
    rw [Breaker.toHalfOpen_eq]
    exact Nat.not_le_of_lt hmax
  simp only [step, start, Breaker.enter_eq, Breaker.refresh_of_overdue hover',
    Breaker.judge_of_halfOpen hhalf, if_neg hplace]

/-- **The cool-down.**  If the circuit has last opened at `opened` and has not been reset since,
then until the cool-down is over every call is rejected, not made, and told exactly when it is over.
From then on whoever asks for a call or looks at the breaker finds it out of the open state; the
first call is admitted if nobody has looked before.  Events come in the order of their times, and
timers may ring late. -/
theorem run_cools_down (name : String) (config : BreakerConfig) (timersEnabled : Bool)
    (events : List (Nat × BreakerEvent α)) (now : Nat)
    (horder : (events.map (·.1) ++ [now]).Pairwise (· ≤ ·)) :
    let r := (new name config timersEnabled).run events
    let since := (new name config timersEnabled).lastOpening none events
    (since = none → r.breaker.state ≠ .open) ∧
    ∀ opened, since = some opened →
      (now < opened + config.resetTimeout →
        (r.step now (.start : BreakerEvent α)).2 =
          .rejected (.circuitOpen name (opened + config.resetTimeout)) ∧
        (r.step now (.start : BreakerEvent α)).1.calls = r.calls) ∧
      (opened + config.resetTimeout ≤ now →
        (r.step now (.start : BreakerEvent α)).1.breaker.state ≠ .open ∧
        ((r.step now (.start : BreakerEvent α)).2 = .admitted ∨
          (r.step now (.start : BreakerEvent α)).2 = .rejected (.circuitOpen name now)) ∧
        (r.breaker.state = .open → 1 ≤ config.halfOpenMaxAttempts →
          (r.step now (.start : BreakerEvent α)).2 = .admitted) ∧
        (∃ s, (r.step now (.state : BreakerEvent α)).2 = .state s ∧ s ≠ .open) ∧
        (r.step now (.available : BreakerEvent α)).2 = .available true ∧
        ∃ report, (r.step now (.report : BreakerEvent α)).2 = .report report ∧
          report.state ≠ .open ∧ report.retryAfterMs = none) := by
  intro r since
  have hname : r.breaker.name = name := (run_settings _ events).1
  have hconfig : r.breaker.config = config := (run_settings _ events).2
  have hnew : (new name config timersEnabled).Follows none 0 :=
    ⟨fun _ => by simp [new, Breaker.new], fun t ht => (by cases ht)⟩
  have hfollows : r.Follows since now :=
    run_follows (dated_new name config timersEnabled) hnew events
      (List.pairwise_cons.mpr ⟨fun _ _ => Nat.zero_le _, horder⟩)
  refine ⟨hfollows.never, fun opened hsince => ⟨fun hearly => ?_, fun hlate => ?_⟩⟩
  · rcases hfollows.opened opened hsince with ⟨hopen, hopened⟩ | ⟨-, hover⟩
    · rw [← hconfig] at hearly ⊢
      rw [← hname]
      exact start_of_cooling hopen hopened hearly
    · rw [hconfig] at hover
      exact absurd hover (Nat.not_le_of_lt hearly)
  · have hready : r.breaker.state ≠ .open ∨ r.breaker.Overdue now := by
      rcases hfollows.opened opened hsince with ⟨hopen, hopened⟩ | ⟨hne, -⟩
      · exact .inr ⟨hopen, opened, hopened, by rw [hconfig]; exact hlate⟩
      · exact .inl hne
    have hread : (r.breaker.refresh now).state ≠ .open := refresh_ne_open hready
    have hcooled : (r.breaker.countRequest.refresh now).state ≠ .open := refresh_ne_open hready
    refine ⟨?_, ?_, fun hopen hmax => ?_, ⟨_, rfl, hread⟩, ?_, ⟨_, rfl, hread, ?_⟩⟩
    · have hkept := Breaker.clock_judge (r.breaker.countRequest.refresh now) now
      rw [breaker_start, Breaker.enter_eq, (Prod.mk.inj hkept).1]
      exact hcooled
    · rw [← hname]
      exact start_of_cooled hcooled
    · exact start_of_overdue (hready.resolve_left fun hne => hne hopen) (hconfig ▸ hmax)
    · simpa [step, Breaker.read] using hread
    · simp only [Breaker.report]
      split
      · rename_i hopen _
        exact absurd hopen hread
      · rfl

/-- The timer left over from the first of two openings does not cut the second one short. -/
theorem run_cools_down_twice :
    let config : BreakerConfig := { resetTimeout := 10 }
    let events : List (Nat × BreakerEvent Unit) :=
      [(0, .trip), (5, .trip), (12, .ring ⟨1, 10⟩)]
    let r := (new "a" config true).run events
    (events.map Prod.fst ++ [14]).Pairwise (· ≤ ·) ∧
      (new "a" config true).lastOpening none events = some 5 ∧ 14 < 5 + config.resetTimeout ∧
      (r.step 14 (.start : BreakerEvent Unit)).2 = .rejected (.circuitOpen "a" 15) := by
  intro config events r
  have hcools := run_cools_down "a" config true events 14 (by decide)
  have hearly : 14 < 5 + config.resetTimeout := by decide
  exact ⟨by decide, rfl, hearly, ((hcools.2 5 rfl).1 hearly).1⟩

end BreakerRun

end InferenceRouting
