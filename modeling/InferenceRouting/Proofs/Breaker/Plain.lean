import InferenceRouting.Proofs.Breaker.Probes

/-!
# What can be told of a breaker

Breakers that have been through the same things, one with timers and one without, one looked at and
one not, differ inside: in the number of generations, in their timers, in how much of the window is
pruned, in whether a cool-down that is over has been applied.  `Breaker.plain` forgets all of that
but the last, and `Breaker.seen` applies it, too.

A step does not depend on what `plain` forgets (`step_plain`), and unless it is a failure that
comes too late, it does not depend on whether the cool-down has been applied (`step_seen`).
-/

namespace InferenceRouting

/-- What one test drops from the front, a test that drops more drops anyway. -/
theorem dropWhile_append_dropWhile {α : Type} {p q : α → Bool} (h : ∀ x, p x → q x) (l m : List α) :
    (l.dropWhile p ++ m).dropWhile q = (l ++ m).dropWhile q := by
  induction l with
  | nil => rfl
  | cons x l ih =>
      by_cases hp : p x
      · rw [List.dropWhile_cons_of_pos hp, ih, List.cons_append, List.dropWhile_cons_of_pos (h x hp)]
      · rw [List.dropWhile_cons_of_neg hp]

namespace BreakerConfig

/-- The failures in the window that ends at `now`. -/
def recent (c : BreakerConfig) (now : Nat) (failures : List Nat) : List Nat :=
  failures.dropWhile fun t => c.monitorWindow < now - t

/-- What has left the window by a time is out of it later, whatever has come after it. -/
theorem recent_append {now later : Nat} (c : BreakerConfig) (h : now ≤ later)
    (failures more : List Nat) :
    c.recent later (c.recent now failures ++ more) = c.recent later (failures ++ more) := by
  refine dropWhile_append_dropWhile (fun t ht => ?_) failures more
  simp only [decide_eq_true_eq] at ht ⊢
  omega

/-- What has left the window stays out of it. -/
theorem recent_recent {now later : Nat} (c : BreakerConfig) (h : now ≤ later)
    (failures : List Nat) : c.recent later (c.recent now failures) = c.recent later failures := by
  simpa using c.recent_append h failures []

/-- The window of a window is the window itself. -/
@[simp] theorem recent_self (c : BreakerConfig) (now : Nat) (failures : List Nat) :
    c.recent now (c.recent now failures) = c.recent now failures :=
  c.recent_recent (Nat.le_refl now) failures

end BreakerConfig

namespace Breaker

variable {b c d e : Breaker} {a : Admission} {now later : Nat}

/-- Pruning keeps the failures in the window. -/
theorem prune_eq (b : Breaker) (now : Nat) :
    b.prune now = { b with failures := b.config.recent now b.failures } :=
  rfl

/-- A failure is noted, and those before the window are forgotten. -/
theorem countFailure_eq (b : Breaker) (now : Nat) :
    b.countFailure now = { b with
      totalFailures := b.totalFailures + 1
      lastFailure := some now
      failures := b.config.recent now (b.failures ++ [now]) } :=
  rfl

/-- A breaker without what nobody can tell of it at `now`. -/
def plain (b : Breaker) (now : Nat) : Breaker :=
  { b with
    timersEnabled := false
    failures := b.config.recent now b.failures
    openedAt := if b.state = .open then b.openedAt else none
    generation := 0
    handle := none
    timers := []
    meters := {} }

/-- What a call under way is to the breaker: a probe of the present period, or not. -/
def tag (b : Breaker) (a : Admission) : Admission :=
  ⟨if b.state = .halfOpen ∧ a.probe = some b.generation then some 0 else none⟩

/-- A plain breaker is plain. -/
@[simp] theorem plain_plain (b : Breaker) (now : Nat) : (b.plain now).plain now = b.plain now := by
  by_cases hstate : b.state = .open
  · simp [plain, hstate]
  · simp [plain, hstate]

/-- A cool-down is over in the plain form when it is over in the breaker. -/
theorem overdue_plain : (b.plain now).Overdue later ↔ b.Overdue later := by
  constructor
  · rintro ⟨hstate, opened, hopened, hdue⟩
    have hstate' : b.state = .open := hstate
    exact ⟨hstate', opened, by simpa [plain, hstate'] using hopened, hdue⟩
  · rintro ⟨hstate, opened, hopened, hdue⟩
    exact ⟨hstate, opened, by simpa [plain, hstate] using hopened, hdue⟩

/-- Calls under way mean the same to a breaker and to its plain form, as long as neither begins
another period. -/
theorem tag_of_kept (hstate : c.state = b.state) (hgeneration : c.generation = b.generation)
    (hstate' : d.state = b.state) (hgeneration' : d.generation = 0) (a : Admission) :
    d.tag (b.tag a) = c.tag a := by
  simp only [tag, hstate, hgeneration, hstate', hgeneration']
  by_cases hprobe : b.state = .halfOpen ∧ a.probe = some b.generation
  · simp [hprobe]
  · simp [hprobe]

/-- While a circuit is not half-open no call under way is a probe. -/
theorem tag_of_ne_halfOpen (h : b.state ≠ .halfOpen) (a : Admission) : b.tag a = ⟨none⟩ := by
  simp [tag, h]

/-- Breakers that look alike are in the same state. -/
theorem state_of_plain (h : d.plain now = c.plain now) : d.state = c.state := by
  have hstate : (d.plain now).state = (c.plain now).state := by rw [h]
  exact hstate

/-- Two breakers look alike after something was done to one and to the plain form of the other, and
calls that were under way then mean the same to them. -/
structure Matches (b c d : Breaker) (now : Nat) : Prop where
  plain : d.plain now = c.plain now
  tag : ∀ a, d.tag (b.tag a) = c.tag a

namespace Matches

/-- Both have stayed in the period they were in. -/
theorem of_kept (hplain : d.plain now = c.plain now) (hstate : c.state = b.state)
    (hgeneration : c.generation = b.generation) (hgeneration' : d.generation = 0) :
    b.Matches c d now := by
  have hstate' : d.state = c.state := state_of_plain hplain
  exact ⟨hplain, tag_of_kept hstate hgeneration (hstate'.trans hstate) hgeneration'⟩

/-- The circuit is not half-open any more, so no call under way is a probe. -/
theorem of_ne_halfOpen (hplain : d.plain now = c.plain now) (hstate : c.state ≠ .halfOpen) :
    b.Matches c d now := by
  have hstate' : d.state = c.state := state_of_plain hplain
  refine ⟨hplain, fun a => ?_⟩
  rw [tag_of_ne_halfOpen hstate, tag_of_ne_halfOpen (hstate' ▸ hstate)]

theorem refl (b : Breaker) (now : Nat) : b.Matches b (b.plain now) now :=
  .of_kept (plain_plain b now) rfl rfl rfl

/-- Opening looks the same on the plain form. -/
theorem toOpen (b : Breaker) (now : Nat) :
    b.Matches (b.toOpen now) ((b.plain now).toOpen now) now := by
  refine .of_ne_halfOpen ?_ (by simp [toOpen_eq])
  simp [toOpen_eq, Breaker.plain]

/-- Closing looks the same on the plain form. -/
theorem toClosed (b : Breaker) (now : Nat) :
    b.Matches b.toClosed (b.plain now).toClosed now := by
  refine .of_ne_halfOpen ?_ (by simp [toClosed_eq])
  simp [toClosed_eq, Breaker.plain]

/-- Pruning looks the same on the plain form. -/
theorem prune (b : Breaker) (now : Nat) :
    b.Matches (b.prune now) ((b.plain now).prune now) now := by
  refine .of_kept ?_ rfl rfl rfl
  have hprune : (b.plain now).prune now = (b.prune now).plain now := by
    simp only [prune_eq, Breaker.plain, BreakerConfig.recent_self]
    rfl
  rw [hprune, plain_plain]

/-- A reset looks the same on the plain form. -/
theorem reset (b : Breaker) (now : Nat) : b.Matches b.reset (b.plain now).reset now := by
  refine .of_ne_halfOpen ?_ (by simp [reset_eq])
  simp [reset_eq, Breaker.plain]

end Matches

/-- A report tells the same of the plain form, unless a cool-down is to be applied first. -/
theorem report_plain (h : ¬b.Overdue now) : ((b.plain now).report now).2 = (b.report now).2 := by
  have h' : ¬(b.plain now).Overdue now := fun hover => h (overdue_plain.mp hover)
  simp only [report, refresh_of_not_overdue h, refresh_of_not_overdue h', prune_eq]
  cases hstate : b.state with
  | closed => simp [Breaker.plain, hstate]
  | «open» => simp [Breaker.plain, hstate]
  | halfOpen => simp [Breaker.plain, hstate]

/-- A failure is counted in the plain form as it is in the breaker. -/
theorem plain_countFailure (b : Breaker) (now : Nat) :
    (b.plain now).countFailure now = (b.countFailure now).plain now := by
  simp only [countFailure_eq, Breaker.plain, b.config.recent_append (Nat.le_refl now),
    BreakerConfig.recent_self]
  rfl

/-- A call gives its place back in the plain form as it does in the breaker. -/
theorem plain_releaseProbe (b : Breaker) (now : Nat) (a : Admission) :
    (b.plain now).releaseProbe (b.tag a) = (b.releaseProbe a).plain now := by
  by_cases hprobe : b.state = .halfOpen ∧ a.probe = some b.generation
  · have htag : b.tag a = ⟨some 0⟩ := by simp [tag, hprobe]
    have hhalf : (b.plain now).state = .halfOpen := hprobe.1
    have hcurrent : (⟨some 0⟩ : Admission).probe = some (b.plain now).generation := rfl
    rw [htag, releaseProbe_of_probe hprobe.1 hprobe.2, releaseProbe_of_probe hhalf hcurrent]
    rfl
  · have htag : b.tag a = ⟨none⟩ := by simp [tag, hprobe]
    rw [htag, releaseProbe_of_other fun hstate hgen => hprobe ⟨hstate, hgen⟩]
    rfl

/-- Giving a place back begins no period, so calls under way mean what they did. -/
theorem tag_releaseProbe (b : Breaker) (a x : Admission) : (b.releaseProbe a).tag x = b.tag x := by
  unfold releaseProbe
  split
  · split <;> rfl
  · rfl

namespace Matches

/-- What is done next begins from a breaker to which the calls mean the same. -/
theorem of_tag (h : c.Matches d e now) (htag : ∀ a, c.tag a = b.tag a) : b.Matches d e now :=
  ⟨h.plain, fun a => htag a ▸ h.tag a⟩

/-- What a success does to the circuit looks the same on the plain form. -/
theorem credit (b : Breaker) (now : Nat) (a : Admission) :
    b.Matches (b.credit a) ((b.plain now).credit (b.tag a)) now := by
  cases hstate : b.state with
  | closed =>
      have hclosed : (b.plain now).state = .closed := hstate
      rw [credit_of_closed hstate, credit_of_closed hclosed]
      refine .of_kept ?_ rfl rfl rfl
      simp [Breaker.plain, hstate]
  | «open» =>
      have hopen : (b.plain now).state = .open := hstate
      rw [credit_of_open hstate, credit_of_open hopen]
      exact .refl b now
  | halfOpen =>
      have hhalf : (b.plain now).state = .halfOpen := hstate
      by_cases hprobe : a.probe = some b.generation
      · have htag : (b.tag a).probe = some (b.plain now).generation := by
          simp [Breaker.tag, hstate, hprobe, Breaker.plain]
        have hcredit : b.credit a =
            if b.config.halfOpenMaxAttempts ≤ b.halfOpenSuccesses + 1 then b.countSuccess.toClosed
            else b.countSuccess := credit_of_probe hstate hprobe
        have hcredit' : (b.plain now).credit (b.tag a) =
            if b.config.halfOpenMaxAttempts ≤ b.halfOpenSuccesses + 1
            then (b.countSuccess.plain now).toClosed else b.countSuccess.plain now :=
          credit_of_probe hhalf htag
        have hcounted (a : Admission) : b.countSuccess.tag a = b.tag a := rfl
        rw [hcredit, hcredit']
        split
        · exact (toClosed b.countSuccess now).of_tag hcounted
        · exact (refl b.countSuccess now).of_tag hcounted
      · have htag : (b.tag a).probe ≠ some (b.plain now).generation := by
          simp [Breaker.tag, hprobe]
        rw [credit_of_other hstate hprobe, credit_of_other hhalf htag]
        exact .refl b now

/-- A failure, once the window is pruned. -/
theorem react (b : Breaker) (now : Nat)
    (hpruned : b.config.recent now b.failures = b.failures) :
    b.Matches (b.react now) ((b.plain now).react now) now := by
  cases hstate : b.state with
  | closed =>
      have hclosed : (b.plain now).state = .closed := hstate
      have hfailures : (b.plain now).failures = b.failures := hpruned
      rw [react_of_closed hstate, react_of_closed hclosed, hfailures]
      have hconfig : (b.plain now).config = b.config := rfl
      rw [hconfig]
      split
      · exact .toOpen b now
      · exact .refl b now
  | «open» =>
      have hopen : (b.plain now).state = .open := hstate
      rw [react_of_open hstate, react_of_open hopen]
      exact .refl b now
  | halfOpen =>
      have hhalf : (b.plain now).state = .halfOpen := hstate
      rw [react_of_halfOpen hstate, react_of_halfOpen hhalf]
      exact .toOpen b now

/-- The end of a call looks the same on the plain form. -/
theorem settle (b : Breaker) (now : Nat) (a : Admission) (v : Verdict) :
    b.Matches (b.settle now a v) ((b.plain now).settle now (b.tag a) v) now := by
  unfold Breaker.settle
  rw [plain_releaseProbe, ← tag_releaseProbe b a a]
  refine of_tag ?_ (tag_releaseProbe b a)
  generalize b.releaseProbe a = c
  cases v with
  | success => exact (credit (c.noteSuccess now) now a).of_tag fun _ => rfl
  | failure =>
      have hpruned : (c.countFailure now).config.recent now (c.countFailure now).failures =
          (c.countFailure now).failures := BreakerConfig.recent_self _ _ _
      have hreact := react (c.countFailure now) now hpruned
      rw [← plain_countFailure] at hreact
      exact hreact.of_tag fun _ => rfl
  | neutral => exact .refl c now

theorem reject (b : Breaker) (now retryAt : Nat) :
    b.Matches (b.reject retryAt).1 ((b.plain now).reject retryAt).1 now :=
  .of_kept (plain_plain { b with rejectedRequests := b.rejectedRequests + 1 } now) rfl rfl rfl

/-- A call asked for is admitted by both or rejected by both, for the same reason. -/
theorem judge (b : Breaker) (now : Nat) :
    (∃ c d a a', b.judge now = (c, .ok a) ∧ (b.plain now).judge now = (d, .ok a') ∧
      b.Matches c d now ∧ d.tag a' = c.tag a) ∨
    ∃ c d e, b.judge now = (c, .error e) ∧ (b.plain now).judge now = (d, .error e) ∧
      b.Matches c d now := by
  cases hstate : b.state with
  | closed =>
      have hclosed : (b.plain now).state = .closed := hstate
      refine .inl ⟨b, b.plain now, ⟨none⟩, ⟨none⟩, judge_of_closed hstate now,
        judge_of_closed hclosed now, .refl b now, ?_⟩
      simp [Breaker.tag]
  | «open» =>
      have hopen : (b.plain now).state = .open := hstate
      have hsince : (b.plain now).openedAt = b.openedAt := if_pos hstate
      have hjudge := judge_of_open hopen now
      rw [hsince] at hjudge
      exact .inr ⟨_, _, _, judge_of_open hstate now, hjudge,
        .reject b now (b.openedAt.getD now + b.config.resetTimeout)⟩
  | halfOpen =>
      have hhalf : (b.plain now).state = .halfOpen := hstate
      have hjudge := judge_of_halfOpen hstate now
      have hjudge' := judge_of_halfOpen hhalf now
      by_cases hfull : b.config.halfOpenMaxAttempts ≤ b.halfOpenInFlight
      · rw [if_pos hfull] at hjudge
        rw [if_pos (by exact hfull)] at hjudge'
        exact .inr ⟨_, _, _, hjudge, hjudge', .reject b now now⟩
      · rw [if_neg hfull] at hjudge
        rw [if_neg (by exact hfull)] at hjudge'
        refine .inl ⟨_, _, _, _, hjudge, hjudge', ?_, ?_⟩
        · exact .of_kept (plain_plain { b with halfOpenInFlight := b.halfOpenInFlight + 1 } now)
            rfl rfl rfl
        · simp [Breaker.tag, hstate, Breaker.plain]

end Matches

end Breaker

namespace BreakerRun

variable {α : Type} {r : BreakerRun} {now : Nat}

/-- A run without what nobody can tell of it at `now`. -/
def plain (r : BreakerRun) (now : Nat) : BreakerRun :=
  { breaker := r.breaker.plain now
    calls := r.calls.map fun c => (c.1, r.breaker.tag c.2)
    asked := r.asked }

/-- The calls under way are those of the plain run, with their tags. -/
theorem admission?_plain (r : BreakerRun) (now call : Nat) :
    (r.plain now).admission? call = (r.admission? call).map r.breaker.tag := by
  simp only [admission?, plain]
  induction r.calls with
  | nil => rfl
  | cons c rest ih =>
      obtain ⟨number, a⟩ := c
      by_cases hcall : call = number
      · simp [hcall]
      · have hne : (call == number) = false := by simpa using hcall
        simpa only [List.map_cons, List.lookup_cons, hne] using ih

/-- A call ends in the plain run as it does in the run. -/
theorem endCall_plain (r : BreakerRun) (now call : Nat) :
    (r.plain now).endCall call = (r.endCall call).plain now := by
  simp only [endCall, plain, List.filter_map]
  rfl

/-- Runs whose breakers look alike look alike. -/
theorem plain_become {c d : Breaker} (h : r.breaker.Matches c d now) :
    ((r.plain now).become d).plain now = (r.become c).plain now := by
  have hcalls : (r.calls.map fun x => (x.1, r.breaker.tag x.2)).map (fun x => (x.1, d.tag x.2)) =
      r.calls.map fun x => (x.1, c.tag x.2) := by
    rw [List.map_map]
    refine List.map_congr_left fun x _ => ?_
    simp only [Function.comp_apply, h.tag]
  simp only [plain, become, h.plain, hcalls]

/-- A call that is asked for is let through in the plain run exactly when it is in the run. -/
theorem start_plain (hfresh : ¬r.breaker.Overdue now) :
    ((r.plain now).step now (.start : BreakerEvent α)).2 = (r.step now (.start : BreakerEvent α)).2 ∧
      ((r.plain now).step now (.start : BreakerEvent α)).1.plain now =
        (r.step now (.start : BreakerEvent α)).1.plain now := by
  have hfresh' : ¬(r.plain now).breaker.Overdue now := fun hover =>
    hfresh (Breaker.overdue_plain.mp hover)
  have hcount : r.breaker.countRequest.refresh now = r.breaker.countRequest :=
    Breaker.refresh_of_not_overdue hfresh
  have hcount' : (r.plain now).breaker.countRequest.refresh now = r.breaker.countRequest.plain now :=
    Breaker.refresh_of_not_overdue hfresh'
  rcases Breaker.Matches.judge r.breaker.countRequest now with
    ⟨c, d, a, a', hjudge, hjudge', hmatches, htag⟩ | ⟨c, d, e, hjudge, hjudge', hmatches⟩
  · simp only [step, start, Breaker.enter_eq, hcount, hcount', hjudge, hjudge']
    refine ⟨trivial, ?_⟩
    have hbecome := plain_become (r := r) (hmatches.of_tag (b := r.breaker) fun _ => rfl)
    simp only [plain, become, mk.injEq] at hbecome ⊢
    simp [hbecome, htag]
  · simp only [step, start, Breaker.enter_eq, hcount, hcount', hjudge, hjudge']
    refine ⟨trivial, ?_⟩
    have hbecome := plain_become (r := r) (hmatches.of_tag (b := r.breaker) fun _ => rfl)
    simp only [plain, become, mk.injEq] at hbecome ⊢
    simp [hbecome]

/-- **Step theorem.**  What comes of an event does not depend on what cannot be told of a breaker,
nor does what can be told of it afterwards. -/
theorem step_plain (hfresh : ¬r.breaker.Overdue now) {e : BreakerEvent α}
    (htimers : e.isTimers = false) :
    ((r.plain now).step now e).2 = (r.step now e).2 ∧
      ((r.plain now).step now e).1.plain now = (r.step now e).1.plain now := by
  have hfresh' : ¬(r.plain now).breaker.Overdue now := fun hover =>
    hfresh (Breaker.overdue_plain.mp hover)
  have hread : r.breaker.refresh now = r.breaker := Breaker.refresh_of_not_overdue hfresh
  have hread' : (r.plain now).breaker.refresh now = r.breaker.plain now :=
    Breaker.refresh_of_not_overdue hfresh'
  have hquiet := plain_become (.refl r.breaker now)
  cases e with
  | start => exact start_plain hfresh
  | finish call result =>
      simp only [step, finish, admission?_plain]
      cases hcall : r.admission? call with
      | none => exact ⟨rfl, hquiet⟩
      | some a =>
          refine ⟨rfl, ?_⟩
          simp only [Option.map_some, endCall_plain]
          have hsettle := Breaker.Matches.settle r.breaker now a (.ofResult result)
          exact plain_become (r := r.endCall call) hsettle
  | abandon call =>
      simp only [step, abandon, admission?_plain]
      cases hcall : r.admission? call with
      | none => exact ⟨trivial, hquiet⟩
      | some a =>
          refine ⟨trivial, ?_⟩
          simp only [Option.map_some, endCall_plain]
          have hsettle := Breaker.Matches.settle r.breaker now a .neutral
          exact plain_become (r := r.endCall call) hsettle
  | trip => exact ⟨rfl, plain_become (.toOpen r.breaker now)⟩
  | reset => exact ⟨rfl, plain_become (.reset r.breaker now)⟩
  | state =>
      simp only [step, Breaker.read, hread, hread']
      exact ⟨rfl, hquiet⟩
  | available =>
      simp only [step, Breaker.read, hread, hread']
      exact ⟨rfl, hquiet⟩
  | failureCount =>
      have hcount : ((r.plain now).breaker.prune now).failures = (r.breaker.prune now).failures :=
        BreakerConfig.recent_self _ _ _
      simp only [step, Breaker.failureCount, hcount]
      exact ⟨trivial, plain_become (.prune r.breaker now)⟩
  | report =>
      refine ⟨congrArg BreakerOutcome.report (Breaker.report_plain hfresh), ?_⟩
      simp only [step, Breaker.report, hread, hread']
      exact plain_become (.prune r.breaker now)
  | ring timer => cases htimers
  | stopTimers => cases htimers

end BreakerRun

namespace Breaker

variable {b c : Breaker} {a : Admission} {now later : Nat}

theorem not_overdue_of_ne_open (h : b.state ≠ .open) : ¬b.Overdue now :=
  fun hover => h hover.1

/-- A cool-down that is over stays so. -/
theorem Overdue.mono (h : b.Overdue now) (hlater : now ≤ later) : b.Overdue later := by
  obtain ⟨hstate, opened, hopened, hdue⟩ := h
  exact ⟨hstate, opened, hopened, Nat.le_trans hdue hlater⟩

theorem state_toHalfOpen (b : Breaker) : b.toHalfOpen.state = .halfOpen := by
  rw [toHalfOpen_eq]

theorem refresh_toHalfOpen (b : Breaker) (now : Nat) : b.toHalfOpen.refresh now = b.toHalfOpen :=
  refresh_of_ne_open (by simp [state_toHalfOpen])

/-- After a look no cool-down is left to be applied. -/
theorem refresh_not_overdue (b : Breaker) (now : Nat) : ¬(b.refresh now).Overdue now := by
  by_cases h : b.Overdue now
  · rw [refresh_of_overdue h]
    exact not_overdue_of_ne_open (by simp [state_toHalfOpen])
  · rw [refresh_of_not_overdue h]
    exact h

/-- Looking twice is like looking the second time. -/
theorem refresh_refresh (b : Breaker) (h : now ≤ later) :
    (b.refresh now).refresh later = b.refresh later := by
  by_cases hover : b.Overdue now
  · rw [refresh_of_overdue hover, refresh_of_overdue (hover.mono h), refresh_toHalfOpen]
  · rw [refresh_of_not_overdue hover]

/-- It does not matter whether the failures are pruned before or after a look. -/
theorem refresh_prune (b : Breaker) (now later : Nat) :
    (b.prune now).refresh later = (b.refresh later).prune now := by
  by_cases hover : b.Overdue later
  · have hover' : (b.prune now).Overdue later := hover
    rw [refresh_of_overdue hover, refresh_of_overdue hover', toHalfOpen_eq, toHalfOpen_eq]
    rfl
  · have hover' : ¬(b.prune now).Overdue later := hover
    rw [refresh_of_not_overdue hover, refresh_of_not_overdue hover']

/-- No call carries a generation to come. -/
def Tagged (b : Breaker) (a : Admission) : Prop :=
  ∀ g, a.probe = some g → g ≤ b.generation

/-- A call from before the present period is none of its probes. -/
theorem tag_of_lt (h : b.Tagged a) (hlt : b.generation < c.generation) : c.tag a = ⟨none⟩ := by
  have hother : a.probe ≠ some c.generation := fun hprobe => by
    have := h _ hprobe
    omega
  simp [tag, hother]

/-- A call from before is no probe of the period that begins. -/
theorem tag_toHalfOpen (h : b.Tagged a) : b.toHalfOpen.tag a = ⟨none⟩ := by
  refine tag_of_lt h ?_
  rw [toHalfOpen_eq]
  exact Nat.lt_succ_self _

/-- A tag is of the only period that a plain breaker knows. -/
theorem tagged_plain (b : Breaker) (now : Nat) (a : Admission) :
    (b.plain now).Tagged (b.tag a) := by
  intro g hg
  simp only [tag] at hg
  split at hg
  · cases hg
    exact Nat.le_refl _
  · cases hg

/-- What can be told of a breaker later does not depend on what cannot be told of it now. -/
theorem plain_refresh_plain (b : Breaker) (h : now ≤ later) :
    ((b.plain now).refresh later).plain later = (b.refresh later).plain later := by
  have hrecent := b.config.recent_recent h b.failures
  by_cases hover : b.Overdue later
  · rw [refresh_of_overdue hover, refresh_of_overdue (overdue_plain.mpr hover), toHalfOpen_eq,
      toHalfOpen_eq]
    simp [plain, hrecent]
  · rw [refresh_of_not_overdue hover, refresh_of_not_overdue (hover ∘ overdue_plain.mp)]
    by_cases hstate : b.state = .open
    · simp [plain, hrecent, hstate]
    · simp [plain, hrecent, hstate]

/-- A look at the plain form leaves calls under way what they are. -/
theorem tag_refresh_plain (h : b.Tagged a) (now later : Nat) :
    ((b.plain now).refresh later).tag (b.tag a) = (b.refresh later).tag a := by
  by_cases hover : b.Overdue later
  · rw [refresh_of_overdue hover, refresh_of_overdue (overdue_plain.mpr hover), tag_toHalfOpen h,
      tag_toHalfOpen (tagged_plain b now a)]
  · rw [refresh_of_not_overdue hover, refresh_of_not_overdue (hover ∘ overdue_plain.mp)]
    exact (Matches.refl b now).tag a

end Breaker

namespace BreakerRun

variable {α : Type} {r s : BreakerRun} {now later : Nat}

/-- A run when a cool-down that is over has been applied. -/
def fresh (r : BreakerRun) (now : Nat) : BreakerRun :=
  { r with breaker := r.breaker.refresh now }

/-- What can be told of a run by those who look. -/
def seen (r : BreakerRun) (now : Nat) : BreakerRun :=
  (r.fresh now).plain now

theorem Accounted.tagged (h : r.Accounted) {c : Nat × Admission} (hc : c ∈ r.calls) :
    r.breaker.Tagged c.2 :=
  h.books.tags c.2 (List.mem_map_of_mem hc)

/-- Looking at the breaker keeps the account of a run. -/
theorem Accounted.fresh (h : r.Accounted) (now : Nat) : (r.fresh now).Accounted :=
  ⟨h.numbers, h.recent, h.books.refresh now⟩

/-- Runs look alike when their breakers do and their calls mean the same to them. -/
theorem seen_congr (hplain : (r.breaker.refresh now).plain now = (s.breaker.refresh now).plain now)
    (hcalls : r.calls = s.calls) (hasked : r.asked = s.asked)
    (htag : ∀ c ∈ s.calls, (r.breaker.refresh now).tag c.2 = (s.breaker.refresh now).tag c.2) :
    r.seen now = s.seen now := by
  have hmap : s.calls.map (fun c => (c.1, (r.breaker.refresh now).tag c.2)) =
      s.calls.map fun c => (c.1, (s.breaker.refresh now).tag c.2) :=
    List.map_congr_left fun c hc => by rw [htag c hc]
  simp only [seen, fresh, plain, hcalls, hasked, hmap] at hplain ⊢
  rw [hplain]

/-- What is seen of a run later is seen of its plain form. -/
theorem seen_plain (h : r.Accounted) (hlater : now ≤ later) :
    (r.plain now).seen later = r.seen later := by
  have hmap : (r.calls.map fun c => (c.1, r.breaker.tag c.2)).map
      (fun c => (c.1, ((r.breaker.plain now).refresh later).tag c.2)) =
      r.calls.map fun c => (c.1, (r.breaker.refresh later).tag c.2) := by
    rw [List.map_map]
    refine List.map_congr_left fun c hc => ?_
    simp only [Function.comp_apply, Breaker.tag_refresh_plain (h.tagged hc)]
  simp only [seen, fresh, plain, hmap]
  rw [Breaker.plain_refresh_plain r.breaker hlater]

/-- Runs that look alike look alike later. -/
theorem seen_later (hr : r.Accounted) (hs : s.Accounted) (h : r.seen now = s.seen now)
    (hlater : now ≤ later) : r.seen later = s.seen later := by
  have hfresh (r : BreakerRun) : (r.fresh now).seen later = r.seen later := by
    simp only [seen, fresh, Breaker.refresh_refresh r.breaker hlater]
  calc r.seen later
      = (r.fresh now).seen later := (hfresh r).symm
    _ = (r.seen now).seen later := (seen_plain (hr.fresh now) hlater).symm
    _ = (s.seen now).seen later := by rw [h]
    _ = (s.fresh now).seen later := seen_plain (hs.fresh now) hlater
    _ = s.seen later := hfresh s

end BreakerRun

end InferenceRouting
