import InferenceRouting.Proofs.Breaker.Probes

/-!
# Neutral calls

A call that is given up, or ends with an error that does not count against the endpoint, leaves a
breaker as if somebody had looked at it instead of asking for the call, but for the number of
requests (`run_forgets_neutral`).

The proof runs both stories side by side.  While the call is under way the breaker that knows of it
is the other one with a request and perhaps a place more (`Breaker.plus`).  Every operation respects
that, the calls of others included, as long as none of them is refused for the place the neutral
call has.  When the circuit changes the place is gone, and when the call ends it is given back.

Without the call the later ones have smaller numbers (`BreakerEvent.skip`, `Shadows`).
-/

namespace InferenceRouting

namespace Breaker

variable {b c : Breaker} {a other : Admission} {d now : Nat}

/-- The places of probes that a call has. -/
def share (b : Breaker) (a : Admission) : Nat :=
  if b.state = .halfOpen ∧ a.probe = some b.generation then 1 else 0

/-- A breaker that has counted some more requests and has one more call under way. -/
def plus (b : Breaker) (d : Nat) (a : Admission) : Breaker :=
  { b with
    totalRequests := b.totalRequests + d
    halfOpenInFlight := b.halfOpenInFlight + b.share a }

/-- Only a half-open circuit has places. -/
theorem share_of_ne (h : b.state ≠ .halfOpen) (a : Admission) : b.share a = 0 :=
  if_neg fun hshare => h hshare.1

/-- Only a probe of the present period has one. -/
theorem share_of_other (h : a.probe ≠ some b.generation) : b.share a = 0 :=
  if_neg fun hshare => h hshare.2

theorem share_of_probe (hstate : b.state = .halfOpen) (h : a.probe = some b.generation) :
    b.share a = 1 :=
  if_pos ⟨hstate, h⟩

@[simp] theorem share_none (b : Breaker) : b.share ⟨none⟩ = 0 :=
  share_of_other nofun

/-- A call without a place is told by the number of requests alone. -/
theorem plus_of_share (h : b.share a = 0) (d : Nat) :
    b.plus d a = { b with totalRequests := b.totalRequests + d } := by
  unfold plus
  rw [h]
  rfl

/-! ## Changes of the circuit -/

/-- Opening does the same with the request and without it. -/
theorem toOpen_plus (b : Breaker) (d : Nat) (a : Admission) (now : Nat) :
    (b.plus d a).toOpen now = (b.toOpen now).plus d a := by
  have hopen : (b.toOpen now).state ≠ .halfOpen := by rw [toOpen_eq]; nofun
  rw [plus_of_share (share_of_ne hopen a), toOpen_eq, toOpen_eq]
  rfl

/-- So does closing. -/
theorem toClosed_plus (b : Breaker) (d : Nat) (a : Admission) :
    (b.plus d a).toClosed = b.toClosed.plus d a := by
  have hclosed : b.toClosed.state ≠ .halfOpen := by rw [toClosed_eq]; nofun
  rw [plus_of_share (share_of_ne hclosed a), toClosed_eq, toClosed_eq]
  rfl

/-- A reset forgets the requests, too. -/
theorem reset_plus (b : Breaker) (d : Nat) (a : Admission) :
    (b.plus d a).reset = b.reset.plus 0 a := by
  have hclosed : b.reset.state ≠ .halfOpen := by rw [reset_eq]; nofun
  rw [plus_of_share (share_of_ne hclosed a), reset_eq, reset_eq]
  rfl

/-- No call under way has a place in a period that begins. -/
theorem toHalfOpen_plus (htag : ∀ g, a.probe = some g → g ≤ b.generation) (d : Nat) :
    (b.plus d a).toHalfOpen = b.toHalfOpen.plus d a := by
  have hother : a.probe ≠ some b.toHalfOpen.generation := by
    intro hprobe
    have := htag _ hprobe
    rw [toHalfOpen_eq] at this
    exact absurd this (Nat.not_succ_le_self _)
  rw [plus_of_share (share_of_other hother), toHalfOpen_eq, toHalfOpen_eq]
  rfl

/-- So does a look. -/
theorem refresh_plus (htag : ∀ g, a.probe = some g → g ≤ b.generation) (d now : Nat) :
    (b.plus d a).refresh now = (b.refresh now).plus d a := by
  by_cases hover : b.Overdue now
  · have hover' : (b.plus d a).Overdue now := hover
    rw [refresh_of_overdue hover, refresh_of_overdue hover', toHalfOpen_plus htag]
  · have hover' : ¬(b.plus d a).Overdue now := hover
    rw [refresh_of_not_overdue hover, refresh_of_not_overdue hover']

/-- So does a timer that rings. -/
theorem fireTimer_plus (htag : ∀ g, a.probe = some g → g ≤ b.generation) (d generation : Nat) :
    (b.plus d a).fireTimer generation = (b.fireTimer generation).plus d a := by
  have hsame : ((b.plus d a).state = .open ∧ (b.plus d a).generation = generation) =
      (b.state = .open ∧ b.generation = generation) := rfl
  unfold fireTimer
  dsimp only
  simp only [hsame]
  split
  · exact toHalfOpen_plus (b := { b with
      timers := b.timers.filter (·.generation ≠ generation)
      handle := none }) htag d
  · rfl

/-! ## Calls of others -/

/-- A call of another that ends has its own place to give back. -/
theorem releaseProbe_plus
    (hplace : b.state = .halfOpen → other.probe = some b.generation → 0 < b.halfOpenInFlight)
    (d : Nat) (a : Admission) :
    (b.plus d a).releaseProbe other = (b.releaseProbe other).plus d a := by
  by_cases hstate : b.state = .halfOpen
  · by_cases hprobe : other.probe = some b.generation
    · have hpos := hplace hstate hprobe
      have hmove : b.halfOpenInFlight + b.share a - 1 = b.halfOpenInFlight - 1 + b.share a := by
        omega
      rw [releaseProbe_of_probe hstate hprobe,
        releaseProbe_of_probe (b := b.plus d a) hstate hprobe]
      simp only [plus, hmove]
      rfl
    · rw [releaseProbe_of_other fun _ => hprobe,
        releaseProbe_of_other (b := b.plus d a) fun _ => hprobe]
  · rw [releaseProbe_of_other fun h => absurd h hstate,
      releaseProbe_of_other (b := b.plus d a) fun h => absurd h hstate]

/-- The call itself gives back what it has. -/
theorem releaseProbe_plus_self (b : Breaker) (d : Nat) (a : Admission) :
    (b.plus d a).releaseProbe a = b.plus d ⟨none⟩ := by
  rw [plus_of_share (share_none b)]
  by_cases hcurrent : b.state = .halfOpen ∧ a.probe = some b.generation
  · obtain ⟨hstate, hprobe⟩ := hcurrent
    rw [releaseProbe_of_probe (b := b.plus d a) hstate hprobe]
    simp only [plus, share_of_probe hstate hprobe, Nat.add_sub_cancel]
  · have hother (hstate : b.state = .halfOpen) : a.probe ≠ some b.generation :=
      fun hprobe => hcurrent ⟨hstate, hprobe⟩
    rw [releaseProbe_of_other (b := b.plus d a) hother]
    exact plus_of_share (if_neg hcurrent) d

/-- So does the success of another call. -/
theorem credit_plus (b : Breaker) (d : Nat) (a other : Admission) :
    (b.plus d a).credit other = (b.credit other).plus d a := by
  cases hstate : b.state with
  | closed =>
      rw [credit_of_closed hstate, credit_of_closed (b := b.plus d a) hstate]
      rfl
  | «open» => rw [credit_of_open hstate, credit_of_open (b := b.plus d a) hstate]
  | halfOpen =>
      by_cases hprobe : other.probe = some b.generation
      · have hcount : (b.plus d a).countSuccess = b.countSuccess.plus d a := rfl
        rw [credit_of_probe hstate hprobe, credit_of_probe (b := b.plus d a) hstate hprobe,
          hcount, toClosed_plus]
        exact (apply_ite (fun c : Breaker => c.plus d a) _ _ _).symm
      · rw [credit_of_other hstate hprobe, credit_of_other (b := b.plus d a) hstate hprobe]

/-- So does the failure of another call. -/
theorem react_plus (b : Breaker) (d : Nat) (a : Admission) (now : Nat) :
    (b.plus d a).react now = (b.react now).plus d a := by
  cases hstate : b.state with
  | closed =>
      rw [react_of_closed hstate, react_of_closed (b := b.plus d a) hstate, toOpen_plus]
      exact (apply_ite (fun c : Breaker => c.plus d a) _ _ _).symm
  | «open» => rw [react_of_open hstate, react_of_open (b := b.plus d a) hstate]
  | halfOpen =>
      rw [react_of_halfOpen hstate, react_of_halfOpen (b := b.plus d a) hstate, toOpen_plus]

/-- So does the end of another call, whatever it is. -/
theorem settle_plus
    (hplace : b.state = .halfOpen → other.probe = some b.generation → 0 < b.halfOpenInFlight)
    (d : Nat) (a : Admission) (now : Nat) (v : Verdict) :
    (b.plus d a).settle now other v = (b.settle now other v).plus d a := by
  have hrelease := releaseProbe_plus hplace d a
  cases v with
  | success =>
      have hnote (c : Breaker) : (c.plus d a).noteSuccess now = (c.noteSuccess now).plus d a := rfl
      simp only [settle, hrelease, recordSuccess_eq, hnote, credit_plus]
  | failure =>
      have hcount (c : Breaker) : (c.plus d a).countFailure now = (c.countFailure now).plus d a :=
        rfl
      simp only [settle, hrelease, recordFailure_eq, hcount, react_plus]
  | neutral => exact hrelease

/-- A call of another is let through or refused as it would be, unless it finds no place. -/
theorem judge_plus (hplace : b.share a = 0 ∨
      (b.plus d a).halfOpenInFlight < b.config.halfOpenMaxAttempts) (now : Nat) :
    (b.plus d a).judge now = ((b.judge now).1.plus d a, (b.judge now).2) := by
  cases hstate : b.state with
  | closed => rw [judge_of_closed hstate, judge_of_closed (b := b.plus d a) hstate]
  | «open» =>
      rw [judge_of_open hstate, judge_of_open (b := b.plus d a) hstate]
      rfl
  | halfOpen =>
      have hfull : (b.plus d a).config.halfOpenMaxAttempts ≤ (b.plus d a).halfOpenInFlight ↔
          b.config.halfOpenMaxAttempts ≤ b.halfOpenInFlight := by
        simp only [plus] at hplace ⊢
        omega
      rw [judge_of_halfOpen hstate, judge_of_halfOpen (b := b.plus d a) hstate]
      by_cases hmax : b.config.halfOpenMaxAttempts ≤ b.halfOpenInFlight
      · rw [if_pos hmax, if_pos (hfull.mpr hmax)]
        rfl
      · rw [if_neg hmax, if_neg fun h => hmax (hfull.mp h)]
        simp only [plus, Nat.add_right_comm b.halfOpenInFlight]
        rfl

/-- A call that is asked for is refused because a half-open circuit has no place left. -/
def RefusesPlace (b : Breaker) (now : Nat) : Prop :=
  (b.enter now).1.state = .halfOpen ∧ ∃ e, (b.enter now).2 = .error e

/-- So does asking for another call, unless it finds no place. -/
theorem enter_plus (htag : ∀ g, a.probe = some g → g ≤ b.generation)
    (hplace : a.probe ≠ none → ¬(b.plus d a).RefusesPlace now) :
    (b.plus d a).enter now = ((b.enter now).1.plus d a, (b.enter now).2) := by
  have hcount : (b.plus d a).countRequest = b.countRequest.plus d a := by
    simp only [countRequest, plus, Nat.add_right_comm b.totalRequests]
    rfl
  have henter : (b.plus d a).enter now = ((b.countRequest.refresh now).plus d a).judge now := by
    rw [enter_eq, hcount, refresh_plus (b := b.countRequest) htag]
  unfold RefusesPlace at hplace
  rw [henter] at hplace ⊢
  rw [enter_eq]
  generalize b.countRequest.refresh now = c at hplace ⊢
  apply judge_plus
  by_cases hcurrent : c.state = .halfOpen ∧ a.probe = some c.generation
  · -- The call has a place, so a call that finds none is refused by a half-open circuit.
    obtain ⟨hstate, hprobe⟩ := hcurrent
    have hrefuses := hplace (by rw [hprobe]; nofun)
    rw [judge_of_halfOpen (b := c.plus d a) hstate] at hrefuses
    by_cases hfull : (c.plus d a).config.halfOpenMaxAttempts ≤ (c.plus d a).halfOpenInFlight
    · rw [if_pos hfull] at hrefuses
      exact absurd ⟨hstate, _, rfl⟩ hrefuses
    · exact .inr (Nat.lt_of_not_le hfull)
  · exact .inl (if_neg hcurrent)

/-- A call that is admitted is a request more, and a place more if it has one. -/
theorem enter_admitted {admitted : Breaker} (h : b.enter now = (admitted, .ok a)) :
    admitted = (b.refresh now).plus 1 a := by
  have hcount : b.countRequest.refresh now = (b.refresh now).countRequest := by
    by_cases hover : b.Overdue now
    · have hover' : b.countRequest.Overdue now := hover
      rw [refresh_of_overdue hover, refresh_of_overdue hover', toHalfOpen_eq, toHalfOpen_eq]
      rfl
    · have hover' : ¬b.countRequest.Overdue now := hover
      rw [refresh_of_not_overdue hover, refresh_of_not_overdue hover']
  rw [enter_eq, hcount] at h
  generalize b.refresh now = c at h ⊢
  cases hstate : c.state with
  | closed =>
      rw [judge_of_closed (b := c.countRequest) hstate] at h
      cases h
      exact (plus_of_share (share_none c) 1).symm
  | «open» =>
      rw [judge_of_open (b := c.countRequest) hstate] at h
      cases h
  | halfOpen =>
      rw [judge_of_halfOpen (b := c.countRequest) hstate] at h
      split at h
      · cases h
      · cases h
        have hshare : c.share ⟨some c.generation⟩ = 1 := share_of_probe hstate rfl
        unfold plus
        rw [show c.countRequest.generation = c.generation from rfl, hshare]
        rfl

end Breaker

/-! ## The numbers of the other calls -/

/-- The number of a call when call `n` was not asked for. -/
def skipped (n call : Nat) : Nat :=
  if n < call then call - 1 else call

/-- The other calls keep numbers of their own. -/
theorem skipped_inj {n k m : Nat} (hk : k ≠ n) (hm : m ≠ n) :
    skipped n k = skipped n m ↔ k = m := by
  unfold skipped
  split <;> split <;> omega

namespace BreakerEvent

variable {α : Type}

/-- The event of the same call when call `n` was not asked for. -/
def skip (n : Nat) : BreakerEvent α → BreakerEvent α
  | .finish call result => .finish (skipped n call) result
  | .abandon call => .abandon (skipped n call)
  | e => e

/-- Whether an event is a reset. -/
def isReset : BreakerEvent α → Bool
  | .reset => true
  | _ => false

/-- Call `n` is given up, or ends with an error that does not count against the endpoint. -/
def EndsNeutrally (n : Nat) : BreakerEvent α → Prop
  | .finish call result => call = n ∧ Verdict.ofResult result = .neutral
  | .abandon call => call = n
  | _ => False

end BreakerEvent

/-- The calls under way but call `n`, numbered as if it had not been asked for. -/
def callsWithout (n : Nat) (calls : List (Nat × Admission)) : List (Nat × Admission) :=
  (calls.filter (·.1 ≠ n)).map fun c => (skipped n c.1, c.2)

/-- The events but the end of call `n`, the calls numbered as if it had not been asked for. -/
def without {α : Type} (n : Nat) (events : List (Nat × BreakerEvent α)) :
    List (Nat × BreakerEvent α) :=
  (events.filter (·.2.ended? ≠ some n)).map fun e => (e.1, e.2.skip n)

section

variable {n k : Nat} {calls : List (Nat × Admission)}

/-- The other calls are found under their new numbers. -/
theorem lookup_callsWithout (h : k ≠ n) :
    (callsWithout n calls).lookup (skipped n k) = calls.lookup k := by
  induction calls with
  | nil => rfl
  | cons c rest ih =>
      obtain ⟨m, a⟩ := c
      unfold callsWithout at ih ⊢
      by_cases hm : m = n
      · have hne : (k == m) = false := beq_false_of_ne (hm ▸ h)
        rw [List.filter_cons_of_neg (by simpa using hm), List.lookup_cons, hne]
        exact ih
      · have hkey : (skipped n k == skipped n m) = (k == m) := by
          rw [Bool.eq_iff_iff, beq_iff_eq, beq_iff_eq, skipped_inj h hm]
        rw [List.filter_cons_of_pos (by simpa using hm), List.map_cons, List.lookup_cons,
          List.lookup_cons, hkey, ih]

/-- Another call ends. -/
theorem callsWithout_filter (h : k ≠ n) :
    callsWithout n (calls.filter (·.1 ≠ k)) =
      (callsWithout n calls).filter (·.1 ≠ skipped n k) := by
  unfold callsWithout
  rw [List.filter_map, List.filter_filter, List.filter_filter]
  congr 1
  refine List.filter_congr fun c _ => ?_
  by_cases hc : c.1 = n
  · simp [hc]
  · simp [hc, skipped_inj hc h]

/-- The call itself ends. -/
theorem callsWithout_filter_self (n : Nat) (calls : List (Nat × Admission)) :
    callsWithout n (calls.filter (·.1 ≠ n)) = callsWithout n calls := by
  unfold callsWithout
  rw [List.filter_filter]
  simp only [Bool.and_self]

/-- Calls that were asked for before keep their numbers. -/
theorem callsWithout_of_lt (h : ∀ m ∈ calls.map (·.1), m < n) : callsWithout n calls = calls := by
  have hlt (c : Nat × Admission) (hc : c ∈ calls) : c.1 < n := h c.1 (List.mem_map_of_mem hc)
  have hall : calls.filter (·.1 ≠ n) = calls := by
    refine List.filter_eq_self.mpr fun c hc => ?_
    simpa using Nat.ne_of_lt (hlt c hc)
  unfold callsWithout
  rw [hall]
  calc calls.map (fun c => (skipped n c.1, c.2))
      = calls.map id := List.map_congr_left fun c hc => by
        rw [skipped, if_neg (Nat.lt_asymm (hlt c hc))]
        rfl
    _ = calls := List.map_id calls

/-- The call itself is left out. -/
theorem callsWithout_concat_self (n : Nat) (calls : List (Nat × Admission)) (a : Admission) :
    callsWithout n (calls ++ [(n, a)]) = callsWithout n calls := by
  simp [callsWithout]

/-- A call that is asked for later has one number less. -/
theorem callsWithout_concat (h : n < k) (a : Admission) :
    callsWithout n (calls ++ [(k, a)]) = callsWithout n calls ++ [(k - 1, a)] := by
  have hne : k ≠ n := Nat.ne_of_gt h
  simp [callsWithout, skipped, h, hne]

end

namespace BreakerRun

variable {α : Type} {r s : BreakerRun} {n d now : Nat} {a : Admission}

/-- One run has seen call `n` and the other has not, and otherwise they have seen the same. -/
structure Shadows (n d : Nat) (a : Admission) (r s : BreakerRun) : Prop where
  breaker : r.breaker = s.breaker.plus d a
  calls : s.calls = callsWithout n r.calls
  asked : r.asked = s.asked + 1
  late : n < r.asked
  started : ∀ t, t ∈ r.started ↔ t ∈ s.started
  timers : ∀ t ∈ s.breaker.timers, t ∈ s.started
  tag : ∀ g, a.probe = some g → g ≤ s.breaker.generation

namespace Shadows

/-- The breakers change in the same way. -/
theorem become (h : Shadows n d a r s) {b : Breaker} (k : Nat)
    (hgeneration : s.breaker.generation ≤ b.generation) :
    Shadows n k a (r.become (b.plus k a)) (s.become b) := by
  refine ⟨rfl, h.calls, h.asked, h.late, fun t => ?_, fun t ht => List.mem_append_right _ ht,
    fun g hg => Nat.le_trans (h.tag g hg) hgeneration⟩
  change t ∈ r.started ++ b.timers ↔ t ∈ s.started ++ b.timers
  rw [List.mem_append, List.mem_append, h.started]

/-- Another call ends. -/
theorem endCall (h : Shadows n d a r s) {k : Nat} (hk : k ≠ n) :
    Shadows n d a (r.endCall k) (s.endCall (skipped n k)) :=
  ⟨h.breaker, by rw [BreakerRun.endCall, BreakerRun.endCall, h.calls, callsWithout_filter hk],
    h.asked, h.late, h.started, h.timers, h.tag⟩

/-- Another call is asked for. -/
theorem next (h : Shadows n d a r s) :
    Shadows n d a { r with asked := r.asked + 1 } { s with asked := s.asked + 1 } :=
  ⟨h.breaker, h.calls, congrArg (· + 1) h.asked, Nat.lt_succ_of_lt h.late, h.started, h.timers,
    h.tag⟩

/-- Another call is under way. -/
theorem begins (h : Shadows n d a r s) (other : Admission) :
    Shadows n d a { r with asked := r.asked + 1, calls := r.calls ++ [(r.asked, other)] }
      { s with asked := s.asked + 1, calls := s.calls ++ [(s.asked, other)] } := by
  refine ⟨h.breaker, ?_, congrArg (· + 1) h.asked, Nat.lt_succ_of_lt h.late, h.started, h.timers,
    h.tag⟩
  have hnumber : r.asked - 1 = s.asked := by rw [h.asked, Nat.add_sub_cancel]
  rw [callsWithout_concat h.late, hnumber, h.calls]

/-- Another call is under way in both runs, or in none. -/
theorem admission? (h : Shadows n d a r s) {k : Nat} (hk : k ≠ n) :
    s.admission? (skipped n k) = r.admission? k := by
  rw [BreakerRun.admission?, h.calls, lookup_callsWithout hk, BreakerRun.admission?]

/-- A place that another call has is taken. -/
theorem place (hs : s.Accounted) {k : Nat} {other : Admission}
    (hother : s.admission? k = some other) (hstate : s.breaker.state = .halfOpen)
    (hprobe : other.probe = some s.breaker.generation) : 0 < s.breaker.halfOpenInFlight :=
  hs.books.inFlight_pos hstate (List.mem_map_of_mem (Keyed.mem_of_lookup hother)) hprobe

/-- A call is asked for in both runs. -/
theorem start (h : Shadows n d a r s) (hplace : a.probe ≠ none → ¬r.breaker.RefusesPlace now) :
    Shadows n d a (r.start now : BreakerRun × BreakerOutcome α).1
      (s.start now : BreakerRun × BreakerOutcome α).1 := by
  have henter : r.breaker.enter now =
      ((s.breaker.enter now).1.plus d a, (s.breaker.enter now).2) := by
    rw [h.breaker] at hplace ⊢
    exact Breaker.enter_plus h.tag hplace
  have hgrows := (Breaker.Turns.enter s.breaker now).advances.generation
  simp only [BreakerRun.start, henter]
  cases hentered : s.breaker.enter now with
  | mk b answer =>
      rw [hentered] at hgrows
      cases answer with
      | ok other => exact (h.begins other).become d hgrows
      | error e => exact h.next.become d hgrows

/-- Another call gets its result in both runs. -/
theorem finish (h : Shadows n d a r s) (hs : s.Accounted) {k : Nat} (hk : k ≠ n) (now : Nat)
    (result : Except RoutingError α) :
    Shadows n d a (r.finish now k result).1 (s.finish now (skipped n k) result).1 := by
  have hsame := h.admission? hk
  simp only [BreakerRun.finish, hsame]
  cases hunder : r.admission? k with
  | none => exact h
  | some other =>
      rw [hunder] at hsame
      have hgrows :=
        (Breaker.Turns.settle s.breaker now other (.ofResult result)).advances.generation
      dsimp only
      rw [h.breaker, Breaker.settle_plus (place hs hsame)]
      exact (h.endCall hk).become d hgrows

/-- Another call is given up in both runs. -/
theorem abandon (h : Shadows n d a r s) (hs : s.Accounted) {k : Nat} (hk : k ≠ n) :
    Shadows n d a (r.abandon k) (s.abandon (skipped n k)) := by
  have hsame := h.admission? hk
  simp only [BreakerRun.abandon, hsame]
  cases hunder : r.admission? k with
  | none => exact h
  | some other =>
      rw [hunder] at hsame
      have hgrows := (Breaker.Turns.releaseProbe s.breaker other).advances.generation
      dsimp only
      rw [h.breaker, Breaker.abandon, Breaker.releaseProbe_plus (place hs hsame)]
      exact (h.endCall hk).become d hgrows

/-- A timer rings in both runs. -/
theorem ring (h : Shadows n d a r s) (now : Nat) (timer : ResetTimer) :
    Shadows n d a (r.ring now timer) (s.ring now timer) := by
  simp only [BreakerRun.ring, h.started]
  split
  · have hgrows := (Breaker.Turns.fireTimer s.breaker timer.generation).advances.generation
    rw [h.breaker, Breaker.fireTimer_plus h.tag]
    exact h.become d hgrows
  · exact h

/-- **Step theorem.**  An event that is not the end of call `n` does the same to both, unless it is
a call that finds no place. -/
theorem step (h : Shadows n d a r s) (hs : s.Accounted) {e : BreakerEvent α}
    (hother : e.ended? ≠ some n)
    (hplace : a.probe ≠ none → e = .start → ¬r.breaker.RefusesPlace now) :
    Shadows n (if e.isReset then 0 else d) a (r.step now e).1 (s.step now (e.skip n)).1 := by
  have hgeneration := (step_turns s now (e.skip n)).advances.generation
  have hrefresh : r.breaker.refresh now = (s.breaker.refresh now).plus d a := by
    rw [h.breaker, Breaker.refresh_plus h.tag]
  have hread : s.breaker.generation ≤ (s.breaker.refresh now).generation :=
    (Breaker.Turns.refresh s.breaker now).advances.generation
  cases e with
  | start => exact h.start fun hprobe => hplace hprobe rfl
  | finish k result => exact h.finish hs (fun heq => hother (congrArg some heq)) now result
  | abandon k => exact h.abandon hs fun heq => hother (congrArg some heq)
  | trip =>
      have htrip : r.breaker.trip now = (s.breaker.trip now).plus d a := by
        rw [h.breaker, Breaker.trip, Breaker.toOpen_plus, Breaker.trip]
      simp only [BreakerRun.step, htrip]
      exact h.become d hgeneration
  | reset =>
      have hreset : r.breaker.reset = s.breaker.reset.plus 0 a := by
        rw [h.breaker, Breaker.reset_plus]
      simp only [BreakerRun.step, hreset]
      exact h.become 0 hgeneration
  | state =>
      simp only [BreakerRun.step, Breaker.read, hrefresh]
      exact h.become d hread
  | available =>
      simp only [BreakerRun.step, Breaker.read, hrefresh]
      exact h.become d hread
  | failureCount =>
      have hprune : r.breaker.prune now = (s.breaker.prune now).plus d a := by
        rw [h.breaker]
        rfl
      simp only [BreakerRun.step, Breaker.failureCount, hprune]
      exact h.become d hgeneration
  | report =>
      have hprune : (r.breaker.refresh now).prune now =
          ((s.breaker.refresh now).prune now).plus d a := by
        rw [hrefresh]
        rfl
      simp only [BreakerRun.step, Breaker.report, hprune]
      exact h.become d hread
  | ring timer => exact h.ring now timer
  | stopTimers =>
      have hstop : r.breaker.disableTimers = s.breaker.disableTimers.plus d a := by
        rw [h.breaker]
        rfl
      simp only [BreakerRun.step, hstop]
      exact h.become d hgeneration

end Shadows

/-- Other events leave a call under way, or over, as it is. -/
theorem admission?_step {e : BreakerEvent α} (hlate : n < r.asked) (hother : e.ended? ≠ some n) :
    (r.step now e).1.admission? n = r.admission? n := by
  have hended {k : Nat} (hk : k ≠ n) (b : Breaker) :
      ((r.endCall k).become b).admission? n = r.admission? n :=
    Keyed.lookup_filter_of_ne hk.symm r.calls
  cases e with
  | start =>
      simp only [step, start]
      split
      · rename_i b other _
        have hne : (n == r.asked) = false := beq_false_of_ne (Nat.ne_of_lt hlate)
        change (r.calls ++ [(r.asked, other)]).lookup n = r.calls.lookup n
        rw [List.lookup_append, List.lookup_cons, hne]
        exact Option.or_none
      · rfl
  | finish k result =>
      have hk : k ≠ n := fun heq => hother (congrArg some heq)
      simp only [step, finish]
      split
      · exact hended hk _
      · rfl
  | abandon k =>
      have hk : k ≠ n := fun heq => hother (congrArg some heq)
      simp only [step, abandon]
      split
      · exact hended hk _
      · rfl
  | ring timer =>
      simp only [step, ring]
      split
      · rfl
      · rfl
  | _ => rfl

/-- The end of a call that is not under way does nothing. -/
theorem step_of_over {e : BreakerEvent α} (hover : r.admission? n = none)
    (hends : e.ended? = some n) : (r.step now e).1 = r := by
  cases e with
  | finish k result =>
      obtain rfl : k = n := Option.some.inj hends
      simp only [step, finish, hover]
  | abandon k =>
      obtain rfl : k = n := Option.some.inj hends
      simp only [step, abandon, hover]
  | _ => cases hends

/-- No call is refused for lack of a place on the way. -/
def Unhindered (r : BreakerRun) (events : List (Nat × BreakerEvent α)) : Prop :=
  ∀ before now rest, events = before ++ (now, .start) :: rest →
    ¬(r.run before).breaker.RefusesPlace now

theorem unhindered_nil (r : BreakerRun) : r.Unhindered ([] : List (Nat × BreakerEvent α)) := by
  intro before now rest heq
  have hlength := congrArg List.length heq
  simp at hlength

/-- No call is hindered if the first event is none that is, and none is after it. -/
theorem unhindered_cons {e : Nat × BreakerEvent α} {rest : List (Nat × BreakerEvent α)} :
    r.Unhindered (e :: rest) ↔
      (e.2 = .start → ¬r.breaker.RefusesPlace e.1) ∧ (r.step e.1 e.2).1.Unhindered rest := by
  constructor
  · intro h
    refine ⟨fun hstart => h [] e.1 rest (by rw [← hstart]; rfl), ?_⟩
    intro before now after heq
    exact h (e :: before) now after (by rw [heq]; rfl)
  · rintro ⟨hfirst, hrest⟩ before now after heq
    cases before with
    | nil =>
        obtain ⟨rfl, rfl⟩ := List.cons.inj heq
        exact hfirst rfl
    | cons e' before =>
        obtain ⟨rfl, htail⟩ := List.cons.inj heq
        exact hrest before now after htail

/-- An event that is not the end of the call stays. -/
theorem without_cons_of_other {e : Nat × BreakerEvent α} (rest : List (Nat × BreakerEvent α))
    (h : e.2.ended? ≠ some n) : without n (e :: rest) = (e.1, e.2.skip n) :: without n rest := by
  simp [without, h]

/-- The end of the call is left out. -/
theorem without_cons_of_end {e : Nat × BreakerEvent α} (rest : List (Nat × BreakerEvent α))
    (h : e.2.ended? = some n) : without n (e :: rest) = without n rest := by
  simp [without, h]

/-- The requests that are still counted after some events. -/
def keptAfter (d : Nat) (events : List (Nat × BreakerEvent α)) : Nat :=
  if events.any (·.2.isReset) then 0 else d

/-- A reset anywhere forgets the request. -/
theorem keptAfter_append (d : Nat) (l m : List (Nat × BreakerEvent α)) :
    keptAfter (keptAfter d l) m = keptAfter d (l ++ m) := by
  unfold keptAfter
  rw [List.any_append]
  cases l.any (·.2.isReset) with
  | false => rfl
  | true => simp

theorem keptAfter_cons (d : Nat) (e : Nat × BreakerEvent α) (rest : List (Nat × BreakerEvent α)) :
    keptAfter (if e.2.isReset then 0 else d) rest = keptAfter d (e :: rest) := by
  have hone : keptAfter d [e] = if e.2.isReset then 0 else d := by simp [keptAfter]
  rw [← hone, keptAfter_append, List.singleton_append]

/-- **Run theorem.**  Events that do not end call `n`, or come when it is over, do the same to both
runs. -/
theorem Shadows.run (h : Shadows n d a r s) (hs : s.Accounted)
    {events : List (Nat × BreakerEvent α)}
    (hends : ∀ e ∈ events, e.2.ended? = some n → r.admission? n = none)
    (hplaces : a.probe ≠ none → r.Unhindered events) :
    Shadows n (keptAfter d events) a (r.run events) (s.run (without n events)) ∧
      (r.run events).admission? n = r.admission? n := by
  -- By induction on the events.  An end of call `n` stands in one of the two runs only, and it comes
  -- too late to do anything there; any other event is taken by both.
  induction events generalizing r s d with
  | nil => exact ⟨h, rfl⟩
  | cons e rest ih =>
      have hrest (e' : Nat × BreakerEvent α) (he' : e' ∈ rest) :=
        hends e' (List.mem_cons_of_mem _ he')
      have hplaces' (hprobe : a.probe ≠ none) : (r.step e.1 e.2).1.Unhindered rest :=
        (unhindered_cons.mp (hplaces hprobe)).2
      by_cases hend : e.2.ended? = some n
      · have hover := hends e List.mem_cons_self hend
        have hstep : (r.step e.1 e.2).1 = r := step_of_over hover hend
        have hreset : e.2.isReset = false := by
          cases he : e.2 with
          | reset => rw [he] at hend; cases hend
          | _ => rfl
        rw [hstep] at hplaces'
        rw [without_cons_of_end rest hend, keptAfter, List.any_cons, hreset, Bool.false_or]
        change Shadows n _ a ((r.step e.1 e.2).1.run rest) _ ∧
          ((r.step e.1 e.2).1.run rest).admission? n = _
        rw [hstep]
        exact ih h hs hrest hplaces'
      · have hfinds (hprobe : a.probe ≠ none) := (unhindered_cons.mp (hplaces hprobe)).1
        have hsame : (r.step e.1 e.2).1.admission? n = r.admission? n :=
          admission?_step h.late hend
        obtain ⟨hshadows, hadmission⟩ := ih (h.step hs hend hfinds) (step_accounted hs e.1 _)
          (fun e' he' hend' => hsame.trans (hrest e' he' hend')) hplaces'
        rw [without_cons_of_other rest hend, ← keptAfter_cons]
        exact ⟨hshadows, hadmission.trans hsame⟩

/-- The call is admitted in one run, and in the other somebody looks at the breaker. -/
theorem shadows_of_admitted (hr : r.Accounted)
    (hadmitted : (r.step now (.start : BreakerEvent α)).2 = .admitted) :
    ∃ a, Shadows r.asked 1 a (r.step now (.start : BreakerEvent α)).1
        (r.step now (.state : BreakerEvent α)).1 ∧
      (r.step now (.start : BreakerEvent α)).1.admission? r.asked = some a := by
  have hbooks := (step_accounted hr now (.start : BreakerEvent α)).books
  simp only [step, start] at hadmitted hbooks ⊢
  cases henter : r.breaker.enter now with
  | mk b answer =>
      rw [henter] at hadmitted hbooks
      cases answer with
      | error e => cases hadmitted
      | ok a =>
          dsimp only at hbooks ⊢
          have hb : b = (r.breaker.refresh now).plus 1 a := Breaker.enter_admitted henter
          have hnew : r.calls.lookup r.asked = none := by
            refine List.lookup_eq_none_iff.mpr fun c hc => ?_
            have := hr.recent c.1 (List.mem_map_of_mem hc)
            simpa using Nat.ne_of_gt this
          refine ⟨a, ⟨hb, ?_, rfl, Nat.lt_succ_self _, fun t => ?_, fun t ht => ?_, ?_⟩, ?_⟩
          · exact (callsWithout_of_lt hr.recent).symm.trans (callsWithout_concat_self _ _ a).symm
          · rw [hb]
            rfl
          · exact List.mem_append_right _ ht
          · intro g hg
            have htag : g ≤ b.generation := hbooks.tags a (by simp) g hg
            rw [hb] at htag
            exact htag
          · change (r.calls ++ [(r.asked, a)]).lookup r.asked = some a
            rw [List.lookup_append, hnew, List.lookup_cons, beq_self_eq_true]
            rfl

/-- The call ends: one run has a request more, and that is all. -/
theorem Shadows.ends (h : Shadows n d a r s) (hunder : r.admission? n = some a) (now : Nat)
    {e : BreakerEvent α} (hends : e.EndsNeutrally n) :
    Shadows n d ⟨none⟩ (r.step now e).1 s ∧ (r.step now e).1.admission? n = none := by
  have hreleased : r.breaker.releaseProbe a = s.breaker.plus d ⟨none⟩ := by
    rw [h.breaker, Breaker.releaseProbe_plus_self]
  have hstep : (r.step now e).1 = (r.endCall n).become (s.breaker.plus d ⟨none⟩) := by
    cases e with
    | finish k result =>
        obtain ⟨rfl, hneutral⟩ := hends
        simp only [BreakerRun.step, BreakerRun.finish, hunder, hneutral, Breaker.settle, hreleased]
    | abandon k =>
        obtain rfl : k = n := hends
        simp only [BreakerRun.step, BreakerRun.abandon, hunder, Breaker.abandon, hreleased]
    | _ => exact hends.elim
  rw [hstep]
  refine ⟨⟨rfl, ?_, h.asked, h.late, fun t => ?_, h.timers, fun g hg => ?_⟩,
    Keyed.lookup_filter_self n r.calls⟩
  · rw [h.calls]
    exact (callsWithout_filter_self n r.calls).symm
  · change t ∈ r.started ++ s.breaker.timers ↔ t ∈ s.started
    rw [List.mem_append, h.started, or_iff_left_of_imp (h.timers t)]
  · cases hg

/-- **Neutral calls leave no trace.**  In any run a call is admitted, and later given up or ended by
an error that does not count against the endpoint; while it was under way no other call was refused
for lack of a place.  Then at every moment from its end on the breaker is the one of the run in which
nobody asked for the call and somebody looked at the state instead: in the state and the failures of
the window, the successes and places of probes, the generation, the beginning of the cool-down, the
timers and all counters but that of the requests.  That one is greater by one until a reset.  The
other calls under way are the same, too. -/
theorem run_forgets_neutral (name : String) (config : BreakerConfig) (timersEnabled : Bool)
    (before during later : List (Nat × BreakerEvent α)) (asked left : Nat)
    (last : BreakerEvent α) :
    let r := (new name config timersEnabled).run before
    let events := during ++ (left, last) :: later
    let full := r.run ((asked, .start) :: events)
    let spared := r.run ((asked, .state) :: without r.asked events)
    (r.step asked (.start : BreakerEvent α)).2 = .admitted →
    (∀ e ∈ during, e.2.ended? ≠ some r.asked) →
    last.EndsNeutrally r.asked →
    (r.step asked (.start : BreakerEvent α)).1.Unhindered during →
    full.breaker = { spared.breaker with
      totalRequests := spared.breaker.totalRequests + keptAfter 1 (during ++ later) } ∧
    spared.calls = callsWithout r.asked full.calls := by
  intro r events full spared hadmitted hduring hlast hplaces
  have hr : r.Accounted := run_accounted (accounted_new name config timersEnabled) before
  have hends : last.ended? = some r.asked := by
    cases last with
    | finish k result => exact congrArg some hlast.1
    | abandon k => exact congrArg some hlast
    | _ => exact hlast.elim
  have hwithout : without r.asked events = without r.asked during ++ without r.asked later := by
    simp [events, without, hends]
  -- The two runs up to the end of the call, at its end, and afterwards.
  obtain ⟨a, hshadows, hunder⟩ := shadows_of_admitted hr hadmitted
  have hs := step_accounted hr asked (.state : BreakerEvent α)
  obtain ⟨hmeanwhile, hstill⟩ := hshadows.run hs
    (fun e he hend => absurd hend (hduring e he)) (fun _ => hplaces)
  have hs' := run_accounted hs (without r.asked during)
  obtain ⟨hended, hgone⟩ := hmeanwhile.ends (hstill.trans hunder) left hlast
  obtain ⟨hafter, -⟩ := hended.run hs' (fun _ _ _ => hgone) (fun hprobe => absurd rfl hprobe)
  have hfull : full =
      ((((r.step asked (.start : BreakerEvent α)).1.run during).step left last).1).run later := by
    simp only [full, events, BreakerRun.run, List.foldl_cons, List.foldl_append]
  have hspared : spared = ((r.step asked (.state : BreakerEvent α)).1.run
      (without r.asked during)).run (without r.asked later) := by
    simp only [spared, hwithout, BreakerRun.run, List.foldl_cons, List.foldl_append]
  rw [hfull, hspared]
  refine ⟨?_, hafter.calls⟩
  rw [hafter.breaker, keptAfter_append, Breaker.plus_of_share (Breaker.share_none _)]

/-- A probe is given up while another one succeeds. -/
theorem run_forgets_neutral_probe :
    let config : BreakerConfig := { resetTimeout := 10, halfOpenMaxAttempts := 2 }
    let r := (new "a" config true).run [(0, (.trip : BreakerEvent Unit))]
    let during : List (Nat × BreakerEvent Unit) := [(10, .start), (11, .finish 1 (.ok ()))]
    let full := r.run ((10, .start) :: (during ++ [(12, .abandon 0)]))
    let spared := r.run [(10, (.state : BreakerEvent Unit)), (10, .start), (11, .finish 0 (.ok ()))]
    (r.step 10 (.start : BreakerEvent Unit)).2 = .admitted ∧
      (∀ e ∈ during, e.2.ended? ≠ some r.asked) ∧
      (BreakerEvent.abandon 0 : BreakerEvent Unit).EndsNeutrally r.asked ∧
      (r.step 10 (.start : BreakerEvent Unit)).1.Unhindered during ∧
      full.breaker = { spared.breaker with
        totalRequests := spared.breaker.totalRequests + 1 } ∧
      full.breaker.state = .halfOpen ∧ full.breaker.halfOpenSuccesses = 1 := by
  intro config r during full spared
  have hadmitted : (r.step 10 (.start : BreakerEvent Unit)).2 = .admitted := rfl
  have hduring : ∀ e ∈ during, e.2.ended? ≠ some r.asked := by decide
  have hlast : (BreakerEvent.abandon 0 : BreakerEvent Unit).EndsNeutrally r.asked := rfl
  have hplaces : (r.step 10 (.start : BreakerEvent Unit)).1.Unhindered during := by
    refine unhindered_cons.mpr ⟨fun _ hrefuses => ?_, unhindered_cons.mpr ⟨nofun, unhindered_nil _⟩⟩
    obtain ⟨-, e, he⟩ := hrefuses
    cases he
  have hforgets := (run_forgets_neutral "a" config true [(0, (.trip : BreakerEvent Unit))] during []
    10 12 (.abandon 0) hadmitted hduring hlast hplaces).1
  have hwithout : without r.asked (during ++ [(12, .abandon 0)]) =
      [(10, .start), (11, .finish 0 (.ok ()))] := rfl
  have hkept : keptAfter 1 (during ++ []) = 1 := rfl
  rw [hwithout, hkept] at hforgets
  exact ⟨hadmitted, hduring, hlast, hplaces, hforgets, by decide, by decide⟩

end BreakerRun

end InferenceRouting
