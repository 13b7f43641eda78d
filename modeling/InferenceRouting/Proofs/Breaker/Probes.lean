import InferenceRouting.Proofs.Breaker.Transitions
import InferenceRouting.Proofs.Keyed

/-!
# The places of probes

While a circuit is half-open, the places taken are those of the probes under way that carry the
generation of the period (`Accounts`).  A place is freed when its probe ends or is given up, and all
are free when a period begins, because it begins a generation that no call under way can carry.
`run_counts_probes` draws the conclusions for every run: no place is lost or freed twice, so a
half-open circuit without a probe of its own admits the next call.
-/

namespace InferenceRouting

/-- The call that ends with an event. -/
def BreakerEvent.ended? {α : Type} : BreakerEvent α → Option Nat
  | .finish call _ => some call
  | .abandon call => some call
  | _ => none

namespace Breaker

variable {b c : Breaker} {a : Admission} {under : List Admission}

/-- The number of probes of the present generation. -/
def probesOf (b : Breaker) (under : List Admission) : Nat :=
  under.countP fun a => a.probe == some b.generation

/-- The breaker accounts for the calls under way: none is from a generation to come, and while the
circuit is half-open its probes have the places taken, which are not too many. -/
structure Accounts (b : Breaker) (under : List Admission) : Prop where
  tags : ∀ a ∈ under, ∀ g, a.probe = some g → g ≤ b.generation
  places : b.state = .halfOpen → b.halfOpenInFlight = b.probesOf under ∧
    b.halfOpenInFlight ≤ b.config.halfOpenMaxAttempts

namespace Accounts

theorem perm (h : b.Accounts under) {under' : List Admission} (hperm : under.Perm under') :
    b.Accounts under' := by
  refine ⟨fun a ha => h.tags a (hperm.mem_iff.mpr ha), fun hstate => ?_⟩
  have hcount : b.probesOf under' = b.probesOf under := (hperm.countP_eq _).symm
  rw [hcount]
  exact h.places hstate

/-- No call under way carries a generation that begins now. -/
theorem probe_ne (h : b.Accounts under) (hlt : b.generation < c.generation) (ha : a ∈ under) :
    a.probe ≠ some c.generation := by
  intro hprobe
  have := h.tags a ha _ hprobe
  omega

/-- With a new generation all places are free. -/
theorem of_lt (h : b.Accounts under) (hlt : b.generation < c.generation)
    (hzero : c.halfOpenInFlight = 0) : c.Accounts under := by
  refine ⟨?_, fun _ => ?_⟩
  · intro a ha g hg
    have := h.tags a ha g hg
    omega
  · have hnone : c.probesOf under = 0 := by
      refine List.countP_eq_zero.mpr fun a ha => ?_
      simpa using h.probe_ne hlt ha
    omega

/-- In the same generation the places stay as they are while the circuit is half-open. -/
theorem of_eq (h : b.Accounts under) (hsame : c.generation = b.generation)
    (hplaces : c.state = .halfOpen → b.state = .halfOpen ∧
      c.halfOpenInFlight = b.halfOpenInFlight ∧ c.config = b.config) : c.Accounts under := by
  refine ⟨?_, fun hstate => ?_⟩
  · rw [hsame]
    exact h.tags
  · obtain ⟨hbefore, hinFlight, hconfig⟩ := hplaces hstate
    have hcount : c.probesOf under = b.probesOf under := by unfold probesOf; rw [hsame]
    rw [hinFlight, hcount, hconfig]
    exact h.places hbefore

theorem toOpen (h : b.Accounts under) (now : Nat) : (b.toOpen now).Accounts under := by
  rw [toOpen_eq]
  exact h.of_lt (Nat.lt_succ_self _) rfl

theorem toHalfOpen (h : b.Accounts under) : b.toHalfOpen.Accounts under := by
  rw [toHalfOpen_eq]
  exact h.of_lt (Nat.lt_succ_self _) rfl

theorem toClosed (h : b.Accounts under) : b.toClosed.Accounts under := by
  rw [toClosed_eq]
  exact h.of_eq rfl fun hstate => by cases hstate

theorem reset (h : b.Accounts under) : b.reset.Accounts under := by
  rw [reset_eq]
  exact h.of_lt (Nat.lt_succ_self _) rfl

theorem refresh (h : b.Accounts under) (now : Nat) : (b.refresh now).Accounts under := by
  by_cases hover : b.Overdue now
  · rw [refresh_of_overdue hover]
    exact h.toHalfOpen
  · rw [refresh_of_not_overdue hover]
    exact h

/-- A call that is asked for takes a place if it is admitted as a probe. -/
theorem enter (h : b.Accounts under) (now : Nat) :
    match b.enter now with
    | (c, .ok a) => c.Accounts (a :: under)
    | (c, .error _) => c.Accounts under := by
  have hcount : b.countRequest.Accounts under := h.of_eq rfl fun hstate => ⟨hstate, rfl, rfl⟩
  have hrefresh := hcount.refresh now
  rw [enter_eq]
  generalize b.countRequest.refresh now = c at hrefresh
  cases hstate : c.state with
  | closed =>
      rw [judge_of_closed hstate]
      refine ⟨?_, fun hhalf => absurd (hstate.symm.trans hhalf) (by decide)⟩
      intro a ha g hg
      rcases List.mem_cons.mp ha with rfl | ha
      · cases hg
      · exact hrefresh.tags a ha g hg
  | «open» =>
      rw [judge_of_open hstate]
      exact hrefresh.of_eq rfl fun hhalf => ⟨hhalf, rfl, rfl⟩
  | halfOpen =>
      rw [judge_of_halfOpen hstate]
      by_cases hfull : c.config.halfOpenMaxAttempts ≤ c.halfOpenInFlight
      · rw [if_pos hfull]
        exact hrefresh.of_eq rfl fun hhalf => ⟨hhalf, rfl, rfl⟩
      · rw [if_neg hfull]
        obtain ⟨hplaces, -⟩ := hrefresh.places hstate
        refine ⟨?_, fun _ => ⟨?_, ?_⟩⟩
        · intro a ha g hg
          rcases List.mem_cons.mp ha with rfl | ha
          · cases hg
            exact Nat.le_refl _
          · exact hrefresh.tags a ha g hg
        · simp only [probesOf, List.countP_cons, beq_self_eq_true, if_true] at hplaces ⊢
          omega
        · simp only
          omega

/-- A probe of the present period has a place. -/
theorem inFlight_pos (h : b.Accounts under) (hstate : b.state = .halfOpen) (ha : a ∈ under)
    (hprobe : a.probe = some b.generation) : 0 < b.halfOpenInFlight := by
  have hpos : 0 < b.probesOf under := List.countP_pos_iff.mpr ⟨a, ha, by simp [hprobe]⟩
  have := (h.places hstate).1
  omega

/-- A call that is over gives back the place it has, if it has one. -/
theorem releaseProbe (h : b.Accounts (a :: under)) : (b.releaseProbe a).Accounts under := by
  have htags : ∀ a ∈ under, ∀ g, a.probe = some g → g ≤ b.generation :=
    fun x hx => h.tags x (List.mem_cons_of_mem _ hx)
  by_cases hcurrent : b.state = .halfOpen ∧ a.probe = some b.generation
  · obtain ⟨hstate, hprobe⟩ := hcurrent
    obtain ⟨hplaces, hmax⟩ := h.places hstate
    rw [probesOf, List.countP_cons_of_pos (by simp [hprobe])] at hplaces
    rw [releaseProbe_of_probe hstate hprobe]
    refine ⟨htags, fun _ => ⟨?_, ?_⟩⟩
    · simp only [probesOf]
      omega
    · simp only
      omega
  · have hother (hstate : b.state = .halfOpen) : a.probe ≠ some b.generation :=
      fun hprobe => hcurrent ⟨hstate, hprobe⟩
    rw [releaseProbe_of_other hother]
    refine ⟨htags, fun hstate => ?_⟩
    have hplaces := h.places hstate
    rw [probesOf, List.countP_cons_of_neg (by simpa using hother hstate)] at hplaces
    exact hplaces

theorem recordSuccess (h : b.Accounts under) (now : Nat) (a : Admission) :
    (b.recordSuccess now a).Accounts under := by
  have hnote : (b.noteSuccess now).Accounts under :=
    h.of_eq rfl fun hhalf => ⟨hhalf, rfl, rfl⟩
  rw [recordSuccess_eq]
  generalize b.noteSuccess now = c at hnote
  cases hstate : c.state with
  | closed =>
      rw [credit_of_closed hstate]
      exact hnote.of_eq rfl fun hhalf => ⟨hhalf, rfl, rfl⟩
  | «open» =>
      rw [credit_of_open hstate]
      exact hnote
  | halfOpen =>
      by_cases hprobe : a.probe = some c.generation
      · have hcount : c.countSuccess.Accounts under :=
          hnote.of_eq rfl fun hhalf => ⟨hhalf, rfl, rfl⟩
        rw [credit_of_probe hstate hprobe]
        split
        · exact hcount.toClosed
        · exact hcount
      · rw [credit_of_other hstate hprobe]
        exact hnote

theorem recordFailure (h : b.Accounts under) (now : Nat) :
    (b.recordFailure now).Accounts under := by
  have hcount : (b.countFailure now).Accounts under :=
    h.of_eq rfl fun hhalf => ⟨hhalf, rfl, rfl⟩
  rw [recordFailure_eq]
  generalize b.countFailure now = c at hcount
  cases hstate : c.state with
  | closed =>
      rw [react_of_closed hstate]
      split
      · exact hcount.toOpen now
      · exact hcount
  | «open» =>
      rw [react_of_open hstate]
      exact hcount
  | halfOpen =>
      rw [react_of_halfOpen hstate]
      exact hcount.toOpen now

theorem settle (h : b.Accounts (a :: under)) (now : Nat) (v : Verdict) :
    (b.settle now a v).Accounts under := by
  cases v with
  | success => exact h.releaseProbe.recordSuccess now a
  | failure => exact h.releaseProbe.recordFailure now
  | neutral => exact h.releaseProbe

theorem fireTimer (h : b.Accounts under) (generation : Nat) :
    (b.fireTimer generation).Accounts under := by
  unfold Breaker.fireTimer
  dsimp only
  split
  · rw [toHalfOpen_eq]
    exact h.of_lt (Nat.lt_succ_self _) rfl
  · exact h.of_eq rfl fun hhalf => ⟨hhalf, rfl, rfl⟩

end Accounts

/-- A success that leaves the circuit half-open changes neither its generation nor its places. -/
theorem credit_of_staying (h : (b.credit a).state = .halfOpen) :
    b.state = .halfOpen ∧ (b.credit a).generation = b.generation ∧
      (b.credit a).halfOpenInFlight = b.halfOpenInFlight := by
  cases hstate : b.state with
  | closed =>
      rw [credit_of_closed hstate] at h
      exact absurd (hstate.symm.trans h) (by decide)
  | «open» =>
      rw [credit_of_open hstate] at h
      exact absurd (hstate.symm.trans h) (by decide)
  | halfOpen =>
      by_cases hprobe : a.probe = some b.generation
      · rw [credit_of_probe hstate hprobe] at h ⊢
        split at h
        · rw [toClosed_eq] at h
          cases h
        · rename_i hfew
          rw [if_neg hfew]
          exact ⟨rfl, rfl, rfl⟩
      · rw [credit_of_other hstate hprobe]
        exact ⟨rfl, rfl, rfl⟩

/-- No failure leaves the circuit half-open. -/
theorem react_ne_halfOpen (b : Breaker) (now : Nat) : (b.react now).state ≠ .halfOpen := by
  intro h
  cases hstate : b.state with
  | closed =>
      rw [react_of_closed hstate] at h
      split at h
      · rw [toOpen_eq] at h
        cases h
      · exact absurd (hstate.symm.trans h) (by decide)
  | «open» =>
      rw [react_of_open hstate] at h
      exact absurd (hstate.symm.trans h) (by decide)
  | halfOpen =>
      rw [react_of_halfOpen hstate, toOpen_eq] at h
      cases h

/-- A call that ends and leaves the circuit half-open does no more than give its place back. -/
theorem settle_of_staying {now : Nat} {v : Verdict} (h : (b.settle now a v).state = .halfOpen) :
    (b.settle now a v).generation = (b.releaseProbe a).generation ∧
      (b.settle now a v).halfOpenInFlight = (b.releaseProbe a).halfOpenInFlight := by
  cases v with
  | neutral => exact ⟨rfl, rfl⟩
  | success => exact (credit_of_staying h).2
  | failure => exact absurd h (react_ne_halfOpen _ now)

theorem generation_releaseProbe (b : Breaker) (a : Admission) :
    (b.releaseProbe a).generation = b.generation := by
  unfold Breaker.releaseProbe
  split
  · split <;> rfl
  · rfl

end Breaker

namespace BreakerRun

variable {α : Type} {r : BreakerRun}

/-- The number of probes under way of the present generation. -/
def probes (r : BreakerRun) : Nat :=
  r.breaker.probesOf (r.calls.map (·.2))

/-- The calls under way have numbers of their own, and the breaker accounts for them. -/
structure Accounted (r : BreakerRun) : Prop where
  numbers : (r.calls.map (·.1)).Nodup
  recent : ∀ n ∈ r.calls.map (·.1), n < r.asked
  books : r.breaker.Accounts (r.calls.map (·.2))

namespace Accounted

/-- A change of the breaker alone. -/
theorem become (h : r.Accounted) {b : Breaker} (hb : b.Accounts (r.calls.map (·.2))) :
    (r.become b).Accounted :=
  ⟨h.numbers, h.recent, hb⟩

/-- A call under way is apart from the others. -/
theorem perm_endCall (h : r.Accounted) {call : Nat} {a : Admission}
    (ha : r.admission? call = some a) :
    (r.calls.map (·.2)).Perm (a :: (r.endCall call).calls.map (·.2)) := by
  have hperm := Keyed.perm_cons_filter h.numbers (Keyed.mem_of_lookup ha)
  exact hperm.map Prod.snd

/-- A call ends, and the breaker accounts for the others. -/
theorem endCall (h : r.Accounted) {call : Nat} {b : Breaker}
    (hb : b.Accounts ((r.endCall call).calls.map (·.2))) :
    ((r.endCall call).become b).Accounted := by
  have hsub : ((r.endCall call).calls.map (·.1)).Sublist (r.calls.map (·.1)) :=
    List.filter_sublist.map _
  exact ⟨h.numbers.sublist hsub, fun n hn => h.recent n (hsub.subset hn), hb⟩

/-- The next call is asked for. -/
theorem start (h : r.Accounted) (now : Nat) : (r.start (α := α) now).1.Accounted := by
  have hbooks := h.books.enter now
  unfold BreakerRun.start
  dsimp only
  split
  · rename_i b a heq
    rw [heq] at hbooks
    have hnew : r.asked ∉ r.calls.map (·.1) := fun hin => Nat.lt_irrefl _ (h.recent _ hin)
    have hperm : ((r.calls ++ [(r.asked, a)]).map (·.1)).Perm (r.asked :: r.calls.map (·.1)) := by
      simp
    refine ⟨hperm.nodup_iff.mpr (List.nodup_cons.mpr ⟨hnew, h.numbers⟩), ?_, ?_⟩
    · intro n hn
      rcases List.mem_cons.mp (hperm.mem_iff.mp hn) with rfl | hn
      · exact Nat.lt_succ_self _
      · exact Nat.lt_succ_of_lt (h.recent n hn)
    · refine hbooks.perm ?_
      simp only [List.map_append, List.map_cons, List.map_nil]
      exact (List.perm_append_singleton _ _).symm
  · rename_i b e heq
    rw [heq] at hbooks
    exact ⟨h.numbers, fun n hn => Nat.lt_succ_of_lt (h.recent n hn), hbooks⟩

end Accounted

/-- **Step theorem.**  Every event leaves the breaker with an account of the calls under way. -/
theorem step_accounted (h : r.Accounted) (now : Nat) (e : BreakerEvent α) :
    (r.step now e).1.Accounted := by
  have hread : (r.become (r.breaker.read now).1).Accounted := h.become (h.books.refresh now)
  cases e with
  | start => exact h.start now
  | finish call result =>
      simp only [step, finish]
      split
      · rename_i a ha
        exact h.endCall ((h.books.perm (h.perm_endCall ha)).settle now _)
      · exact h
  | abandon call =>
      simp only [step, abandon]
      split
      · rename_i a ha
        exact h.endCall (h.books.perm (h.perm_endCall ha)).releaseProbe
      · exact h
  | trip => exact h.become (h.books.toOpen now)
  | reset => exact h.become h.books.reset
  | state => exact hread
  | available => exact hread
  | failureCount => exact h.become (h.books.of_eq rfl fun hhalf => ⟨hhalf, rfl, rfl⟩)
  | report =>
      exact h.become ((h.books.refresh now).of_eq rfl fun hhalf => ⟨hhalf, rfl, rfl⟩)
  | ring timer =>
      simp only [step, ring]
      split
      · exact h.become (h.books.fireTimer timer.generation)
      · exact h
  | stopTimers => exact h.become (h.books.of_eq rfl fun hhalf => ⟨hhalf, rfl, rfl⟩)

/-- **Run theorem.**  After any events the breaker accounts for the calls under way. -/
theorem run_accounted (h : r.Accounted) (events : List (Nat × BreakerEvent α)) :
    (r.run events).Accounted := by
  induction events generalizing r with
  | nil => exact h
  | cons e rest ih => exact ih (step_accounted h e.1 e.2)

theorem accounted_new (name : String) (config : BreakerConfig) (timersEnabled : Bool) :
    (new name config timersEnabled).Accounted :=
  ⟨List.nodup_nil, by simp [new], by simp [new], by simp [new, Breaker.new]⟩

/-- While the circuit stays half-open the period goes on. -/
theorem generation_of_staying {now : Nat} {e : BreakerEvent α}
    (hstate : r.breaker.state = .halfOpen) (hafter : (r.step now e).1.breaker.state = .halfOpen) :
    (r.step now e).1.breaker.generation = r.breaker.generation := by
  have hne : r.breaker.state ≠ .open := fun hopen => absurd (hstate.symm.trans hopen) (by decide)
  have hread : (r.breaker.refresh now).generation = r.breaker.generation := by
    rw [Breaker.refresh_of_ne_open hne]
  cases e with
  | start =>
      have hcount : r.breaker.countRequest.refresh now = r.breaker.countRequest :=
        Breaker.refresh_of_ne_open hne
      have hhalf : r.breaker.countRequest.state = .halfOpen := hstate
      simp only [step, start, Breaker.enter_eq, hcount, Breaker.judge_of_halfOpen hhalf]
      by_cases hfull : r.breaker.countRequest.config.halfOpenMaxAttempts ≤
          r.breaker.countRequest.halfOpenInFlight
      · rw [if_pos hfull]
        rfl
      · rw [if_neg hfull]
        rfl
  | finish call result =>
      simp only [step, finish] at hafter ⊢
      split
      · rename_i a ha
        rw [ha] at hafter
        exact (Breaker.settle_of_staying hafter).1.trans (Breaker.generation_releaseProbe _ a)
      · rfl
  | abandon call =>
      simp only [step, abandon]
      split
      · exact Breaker.generation_releaseProbe _ _
      · rfl
  | trip =>
      simp only [step, Breaker.trip, become, Breaker.toOpen_eq] at hafter
      cases hafter
  | reset =>
      simp only [step, become, Breaker.reset_eq] at hafter
      cases hafter
  | state => exact hread
  | available => exact hread
  | failureCount => rfl
  | report => exact hread
  | ring timer =>
      simp only [step, ring]
      split
      · simp only [become, Breaker.fireTimer, hne, false_and, if_false]
      · rfl
  | stopTimers => rfl

/-- What an event that ends a call does while the circuit stays half-open. -/
theorem inFlight_of_ended {now : Nat} {e : BreakerEvent α} {call : Nat} {a : Admission}
    (hended : e.ended? = some call) (ha : r.admission? call = some a)
    (hafter : (r.step now e).1.breaker.state = .halfOpen) :
    (r.step now e).1.breaker.halfOpenInFlight =
      (r.breaker.releaseProbe a).halfOpenInFlight := by
  cases e with
  | finish call result =>
      cases hended
      simp only [step, finish, ha] at hafter ⊢
      exact (Breaker.settle_of_staying hafter).2
  | abandon call =>
      cases hended
      simp only [step, abandon, ha]
      rfl
  | _ => cases hended

/-- A half-open circuit admits the next call while a place is free. -/
theorem outcome_start_of_free (hstate : r.breaker.state = .halfOpen)
    (hfree : r.breaker.halfOpenInFlight < r.breaker.config.halfOpenMaxAttempts) (now : Nat) :
    (r.step now (.start : BreakerEvent α)).2 = .admitted := by
  have hhalf : r.breaker.countRequest.state = .halfOpen := hstate
  have hcount : r.breaker.countRequest.refresh now = r.breaker.countRequest :=
    Breaker.refresh_of_ne_open fun hopen => absurd (hhalf.symm.trans hopen) (by decide)
  have hplace : ¬r.breaker.countRequest.config.halfOpenMaxAttempts ≤
      r.breaker.countRequest.halfOpenInFlight := Nat.not_le_of_lt hfree
  simp only [step, start, Breaker.enter_eq, hcount, Breaker.judge_of_halfOpen hhalf,
    if_neg hplace]

/-- **Probes.**  While a circuit is half-open, the places taken are those of the probes under way
of its generation, and are not more than allowed.  A probe of the period has a place and gives it
back when it ends; a call of another time has none and changes no place when it ends.  When no probe
of the period is under way the next call is admitted.  A period goes on in its generation, and a new
one has a generation that no call under way carries. -/
theorem run_counts_probes (name : String) (config : BreakerConfig) (timersEnabled : Bool)
    (hmax : 1 ≤ config.halfOpenMaxAttempts) (events : List (Nat × BreakerEvent α)) :
    let r := (new name config timersEnabled).run events
    (r.breaker.state = .halfOpen →
      r.breaker.halfOpenInFlight = r.probes ∧
      r.breaker.halfOpenInFlight ≤ config.halfOpenMaxAttempts ∧
      (∀ (e : BreakerEvent α) call a, e.ended? = some call → r.admission? call = some a →
        (a.probe = some r.breaker.generation → 0 < r.breaker.halfOpenInFlight) ∧
        ∀ now, let b := (r.step now e).1.breaker
          b.state = .halfOpen →
            (a.probe = some r.breaker.generation →
              b.halfOpenInFlight + 1 = r.breaker.halfOpenInFlight) ∧
            (a.probe ≠ some r.breaker.generation →
              b.halfOpenInFlight = r.breaker.halfOpenInFlight)) ∧
      (r.probes = 0 → ∀ now, (r.step now (.start : BreakerEvent α)).2 = .admitted)) ∧
    ∀ now (e : BreakerEvent α), let b := (r.step now e).1.breaker
      b.state = .halfOpen →
        (r.breaker.state = .halfOpen ∧ b.generation = r.breaker.generation) ∨
        (r.breaker.state ≠ .halfOpen ∧ ∀ c ∈ r.calls, c.2.probe ≠ some b.generation) := by
  intro r
  have h : r.Accounted := run_accounted (accounted_new name config timersEnabled) events
  have hconfig : r.breaker.config = config := (run_settings _ events).2
  refine ⟨fun hstate => ?_, fun now e => ?_⟩
  · obtain ⟨hplaces, hfits⟩ := h.books.places hstate
    refine ⟨hplaces, hconfig ▸ hfits, ?_, ?_⟩
    · intro e call a hended ha
      have hmem : a ∈ r.calls.map (·.2) := List.mem_map_of_mem (Keyed.mem_of_lookup ha)
      refine ⟨h.books.inFlight_pos hstate hmem, ?_⟩
      intro now b hafter
      have hreleased := inFlight_of_ended hended ha hafter
      refine ⟨fun hprobe => ?_, fun hprobe => ?_⟩
      · have hpos := h.books.inFlight_pos hstate hmem hprobe
        rw [Breaker.releaseProbe_of_probe hstate hprobe] at hreleased
        have hone : b.halfOpenInFlight = r.breaker.halfOpenInFlight - 1 := hreleased
        omega
      · rw [Breaker.releaseProbe_of_other fun _ => hprobe] at hreleased
        exact hreleased
    · intro hnone now
      have hfree : r.breaker.halfOpenInFlight < r.breaker.config.halfOpenMaxAttempts := by
        rw [hplaces.trans hnone, hconfig]
        exact hmax
      exact outcome_start_of_free hstate hfree now
  · intro b hafter
    by_cases hstate : r.breaker.state = .halfOpen
    · exact .inl ⟨hstate, generation_of_staying hstate hafter⟩
    · have hadvances := (step_turns r now e).advances
      have hlt : r.breaker.generation < b.generation :=
        Nat.lt_of_le_of_ne hadvances.generation fun heq =>
          hstate (hadvances.halfOpen heq.symm hafter)
      exact .inr ⟨hstate, fun c hc => h.books.probe_ne hlt (List.mem_map_of_mem hc)⟩

/-- Of two probes, the one given up gives its place back. -/
theorem run_counts_probes_two :
    let config : BreakerConfig := { resetTimeout := 10, halfOpenMaxAttempts := 2 }
    let r := (new "a" config true).run
      [(0, (.trip : BreakerEvent Unit)), (10, .start), (10, .start)]
    1 ≤ config.halfOpenMaxAttempts ∧ r.breaker.state = .halfOpen ∧
      r.breaker.halfOpenInFlight = r.probes ∧ r.probes = 2 ∧
      (r.step 11 (.abandon 0 : BreakerEvent Unit)).1.breaker.halfOpenInFlight + 1 =
        r.breaker.halfOpenInFlight := by
  intro config r
  have hcounts := run_counts_probes "a" config true (by decide)
    [(0, (.trip : BreakerEvent Unit)), (10, .start), (10, .start)]
  have hstate : r.breaker.state = .halfOpen := rfl
  obtain ⟨hplaces, -, hended, -⟩ := hcounts.1 hstate
  have hback := (hended (.abandon 0) 0 ⟨some 2⟩ rfl rfl).2 11 rfl
  exact ⟨by decide, hstate, hplaces, rfl, hback.1 rfl⟩

end BreakerRun

end InferenceRouting
