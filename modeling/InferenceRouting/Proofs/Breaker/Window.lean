import InferenceRouting.Proofs.Breaker.Plain

/-!
# The window of failures

The breaker keeps the times of failures in the order in which they came, and forgets those that are
too old whenever it looks at the window: at every failure, at a look from outside, and at no other
moment.  It takes them off the front only, which is right as long as time does not go backwards.

`failuresSince` follows a run from outside and notes the failures reported since the window was last
cleared: at a reset, when the circuit closes, or by a success reported while it is closed.
`Keeps` ties the window to that history, and `run_trips` says for every run what the count of a
closed circuit is and when it opens.
-/

namespace InferenceRouting

namespace BreakerConfig

/-- In a history in order of time, what is left of the window are the failures not older than the
window, those exactly at its beginning included. -/
theorem recent_eq_filter (c : BreakerConfig) (now : Nat) {history : List Nat}
    (horder : history.Pairwise (· ≤ ·)) :
    c.recent now history = history.filter fun t => now ≤ t + c.monitorWindow := by
  unfold recent
  induction history with
  | nil => rfl
  | cons t rest ih =>
      obtain ⟨hfirst, hrest⟩ := List.pairwise_cons.mp horder
      by_cases hold : c.monitorWindow < now - t
      · have hout : ¬now ≤ t + c.monitorWindow := by omega
        rw [List.dropWhile_cons_of_pos (by simpa using hold),
          List.filter_cons_of_neg (by simpa using hout)]
        exact ih hrest
      · -- the first one that is recent enough: all that follow came later
        have hall : ∀ u ∈ t :: rest, now ≤ u + c.monitorWindow := by
          intro u hu
          rcases List.mem_cons.mp hu with rfl | hu
          · omega
          · have := hfirst u hu
            omega
        rw [List.dropWhile_cons_of_neg (by simpa using hold)]
        exact (List.filter_eq_self.mpr fun u hu => by simpa using hall u hu).symm

/-- The number of failures not older than the window. -/
def countRecent (c : BreakerConfig) (now : Nat) (history : List Nat) : Nat :=
  history.countP fun t => now ≤ t + c.monitorWindow

theorem length_recent (c : BreakerConfig) (now : Nat) {history : List Nat}
    (horder : history.Pairwise (· ≤ ·)) :
    (c.recent now history).length = c.countRecent now history := by
  rw [c.recent_eq_filter now horder, countRecent, List.countP_eq_length_filter]

end BreakerConfig

namespace Breaker

variable {b c : Breaker} {a : Admission} {now : Nat}

theorem failures_refresh (b : Breaker) (now : Nat) : (b.refresh now).failures = b.failures := by
  by_cases hover : b.Overdue now
  · rw [refresh_of_overdue hover, toHalfOpen_eq]
  · rw [refresh_of_not_overdue hover]

/-- Asking for a call leaves the window alone. -/
theorem failures_enter (b : Breaker) (now : Nat) : (b.enter now).1.failures = b.failures := by
  have hjudge (c : Breaker) : (c.judge now).1.failures = c.failures := by
    unfold judge
    split
    · rfl
    · rfl
    · split <;> rfl
  rw [enter_eq, hjudge]
  exact failures_refresh b.countRequest now

theorem failures_fireTimer (b : Breaker) (generation : Nat) :
    (b.fireTimer generation).failures = b.failures := by
  unfold fireTimer
  dsimp only
  split
  · rw [toHalfOpen_eq]
  · rfl

/-- To give the place of a probe back changes nothing but the number of places taken. -/
theorem releaseProbe_eq (b : Breaker) (a : Admission) :
    ∃ n, b.releaseProbe a = { b with halfOpenInFlight := n } := by
  unfold releaseProbe
  split
  · split
    · exact ⟨_, rfl⟩
    · exact ⟨_, rfl⟩
  · exact ⟨_, rfl⟩

/-- However the circuit takes a failure, the window stays as it was counted. -/
theorem failures_react (b : Breaker) (now : Nat) : (b.react now).failures = b.failures := by
  cases hstate : b.state with
  | closed =>
      rw [react_of_closed hstate]
      split
      · rw [toOpen_eq]
      · rfl
  | «open» => rw [react_of_open hstate]
  | halfOpen => rw [react_of_halfOpen hstate, toOpen_eq]

/-- A failure joins the window, in whatever state the circuit is. -/
theorem failures_settle_failure (b : Breaker) (now : Nat) (a : Admission) :
    (b.settle now a .failure).failures = b.config.recent now (b.failures ++ [now]) := by
  obtain ⟨n, hrelease⟩ := releaseProbe_eq b a
  have hsettle : b.settle now a .failure = ((b.releaseProbe a).countFailure now).react now := rfl
  rw [hsettle, failures_react, hrelease]
  rfl

/-- A failure opens a closed circuit when the window, with it, has as many as the threshold. -/
theorem state_settle_failure (h : b.state = .closed) (now : Nat) (a : Admission) :
    (b.settle now a .failure).state ≠ .closed ↔
      b.config.failureThreshold ≤ (b.config.recent now (b.failures ++ [now])).length := by
  obtain ⟨n, hrelease⟩ := releaseProbe_eq b a
  have hsettle : b.settle now a .failure = ((b.releaseProbe a).countFailure now).react now := rfl
  have hclosed : ((b.releaseProbe a).countFailure now).state = .closed := by
    rw [hrelease]
    exact h
  have hcount : ((b.releaseProbe a).countFailure now).failures =
      b.config.recent now (b.failures ++ [now]) := by
    rw [hrelease]
    rfl
  have hconfig : ((b.releaseProbe a).countFailure now).config = b.config := by
    rw [hrelease]
    rfl
  rw [hsettle, react_of_closed hclosed, hcount, hconfig]
  split
  · rename_i hmany
    rw [toOpen_eq]
    exact iff_of_true (by simp) hmany
  · rename_i hfew
    exact iff_of_false (fun hne => hne hclosed) hfew

/-- A success clears the window of a circuit that is closed afterwards, and leaves that of another
alone. -/
theorem failures_settle_success (b : Breaker) (now : Nat) (a : Admission) :
    (b.settle now a .success).failures =
      if (b.settle now a .success).state = .closed then [] else b.failures := by
  obtain ⟨n, hrelease⟩ := releaseProbe_eq b a
  have hsettle : b.settle now a .success = ((b.releaseProbe a).noteSuccess now).credit a := rfl
  have hfailures : ((b.releaseProbe a).noteSuccess now).failures = b.failures := by
    rw [hrelease]
    rfl
  rw [hsettle, ← hfailures]
  generalize (b.releaseProbe a).noteSuccess now = c
  cases hstate : c.state with
  | closed => simp [credit_of_closed hstate, hstate]
  | «open» => simp [credit_of_open hstate, hstate]
  | halfOpen =>
      by_cases hprobe : a.probe = some c.generation
      · rw [credit_of_probe hstate hprobe]
        split
        · simp [toClosed_eq]
        · simp [countSuccess, hstate]
      · simp [credit_of_other hstate hprobe, hstate]

/-- A success keeps a closed circuit closed. -/
theorem state_settle_success (h : b.state = .closed) (now : Nat) (a : Admission) :
    (b.settle now a .success).state = .closed := by
  obtain ⟨n, hrelease⟩ := releaseProbe_eq b a
  have hclosed : ((b.releaseProbe a).noteSuccess now).state = .closed := by
    rw [hrelease]
    exact h
  have hsettle : b.settle now a .success = ((b.releaseProbe a).noteSuccess now).credit a := rfl
  rw [hsettle, credit_of_closed hclosed]
  exact hclosed

/-- Looking at the circuit neither closes it nor ends its being closed. -/
theorem closed_refresh (b : Breaker) (now : Nat) :
    (b.refresh now).state = .closed ↔ b.state = .closed := by
  by_cases hover : b.Overdue now
  · rw [refresh_of_overdue hover, toHalfOpen_eq]
    exact iff_of_false (by simp) (by simp [hover.1])
  · rw [refresh_of_not_overdue hover]

theorem closed_enter (b : Breaker) (now : Nat) :
    (b.enter now).1.state = .closed ↔ b.state = .closed := by
  have hjudge (c : Breaker) : (c.judge now).1.state = c.state := by
    unfold judge
    split
    · rfl
    · rfl
    · split <;> rfl
  rw [enter_eq, hjudge]
  exact closed_refresh b.countRequest now

theorem closed_fireTimer (b : Breaker) (generation : Nat) :
    (b.fireTimer generation).state = .closed ↔ b.state = .closed := by
  unfold fireTimer
  dsimp only
  split
  · rename_i hopen
    rw [toHalfOpen_eq]
    exact iff_of_false (by simp) (by simp [hopen.1])
  · rfl

/-- No failure closes a circuit. -/
theorem closed_of_settle_failure {a : Admission}
    (h : (b.settle now a .failure).state = .closed) : b.state = .closed := by
  obtain ⟨n, hrelease⟩ := releaseProbe_eq b a
  have hstate : ((b.releaseProbe a).countFailure now).state = b.state := by
    rw [hrelease]
    rfl
  have hsettle : b.settle now a .failure = ((b.releaseProbe a).countFailure now).react now := rfl
  rw [hsettle] at h
  rw [← hstate]
  generalize (b.releaseProbe a).countFailure now = c at h
  cases hc : c.state with
  | closed => rfl
  | «open» =>
      rw [react_of_open hc, hc] at h
      exact h
  | halfOpen =>
      rw [react_of_halfOpen hc, toOpen_eq] at h
      cases h

end Breaker

/-- Whether an event opens or closes the circuit by hand, or ends a call with its result. -/
def BreakerEvent.decides {α : Type} : BreakerEvent α → Bool
  | .trip | .reset | .finish .. => true
  | _ => false

namespace BreakerRun

variable {α : Type} {r : BreakerRun} {e : BreakerEvent α} {history : List Nat} {last now : Nat}

/-- The failures since the window was last cleared, after one more event, if they were `history`
before it.  The window is cleared when the circuit closes, by a reset, and by a success that is
reported while the circuit is closed. -/
def noteFailure (r : BreakerRun) (history : List Nat) (now : Nat) (e : BreakerEvent α) :
    List Nat :=
  let next := r.step now e
  if r.breaker.state ≠ .closed ∧ next.1.breaker.state = .closed then []
  else
    match e, next.2 with
    | .reset, _ => []
    | _, .ended (.ok _) => if r.breaker.state = .closed then [] else history
    | _, .ended (.error error) =>
      if error.countsAsEndpointFailure then history ++ [now] else history
    | _, _ => history

/-- The failures since the window was last cleared, after some events. -/
def failuresSince (r : BreakerRun) (history : List Nat) : List (Nat × BreakerEvent α) → List Nat
  | [] => history
  | e :: rest => (r.step e.1 e.2).1.failuresSince (r.noteFailure history e.1 e.2) rest

/-- The window tells as much of the history as is needed from `last` on: at any later time the same
failures are recent in both. -/
structure Keeps (r : BreakerRun) (history : List Nat) (last : Nat) : Prop where
  order : history.Pairwise (· ≤ ·)
  past : ∀ t ∈ history, t ≤ last
  recent : ∀ now, last ≤ now →
    r.breaker.config.recent now r.breaker.failures = r.breaker.config.recent now history

/-- An event that decides nothing leaves a closed circuit closed, and any other not closed. -/
theorem closed_step (r : BreakerRun) (now : Nat) {e : BreakerEvent α} (he : e.decides = false) :
    (r.step now e).1.breaker.state = .closed ↔ r.breaker.state = .closed := by
  have hread : (r.breaker.refresh now).state = .closed ↔ r.breaker.state = .closed :=
    Breaker.closed_refresh r.breaker now
  cases e with
  | start =>
      rw [breaker_start]
      exact Breaker.closed_enter r.breaker now
  | abandon call =>
      simp only [step, abandon]
      split
      · rename_i a ha
        obtain ⟨n, hrelease⟩ := Breaker.releaseProbe_eq r.breaker a
        simp only [become, Breaker.abandon, hrelease]
      · rfl
  | state => exact hread
  | available => exact hread
  | failureCount => rfl
  | report => exact hread
  | ring timer =>
      simp only [step, ring]
      split
      · exact Breaker.closed_fireTimer r.breaker timer.generation
      · rfl
  | stopTimers => rfl
  | trip => cases he
  | reset => cases he
  | finish call result => cases he

/-- An event that decides nothing leaves the window alone, or takes off what is too old. -/
theorem failures_step (r : BreakerRun) (now : Nat) {e : BreakerEvent α} (he : e.decides = false) :
    (r.step now e).1.breaker.failures = r.breaker.failures ∨
      (r.step now e).1.breaker.failures = r.breaker.config.recent now r.breaker.failures := by
  have hread : (r.breaker.refresh now).failures = r.breaker.failures :=
    Breaker.failures_refresh r.breaker now
  cases e with
  | start =>
      rw [breaker_start]
      exact .inl (Breaker.failures_enter r.breaker now)
  | abandon call =>
      simp only [step, abandon]
      split
      · rename_i a ha
        obtain ⟨n, hrelease⟩ := Breaker.releaseProbe_eq r.breaker a
        simp only [become, Breaker.abandon, hrelease, true_or]
      · exact .inl rfl
  | state => exact .inl hread
  | available => exact .inl hread
  | failureCount => exact .inr rfl
  | report =>
      have hconfig : (r.breaker.refresh now).config = r.breaker.config :=
        (Breaker.Turns.refresh r.breaker now).advances.config
      simp only [step, become, Breaker.report, Breaker.prune_eq, hread, hconfig, or_true]
  | ring timer =>
      simp only [step, ring]
      split
      · exact .inl (Breaker.failures_fireTimer r.breaker timer.generation)
      · exact .inl rfl
  | stopTimers => exact .inl rfl
  | trip => cases he
  | reset => cases he
  | finish call result => cases he

/-- An event that decides nothing is no entry of the history. -/
theorem noteFailure_of_other (he : e.decides = false) (history : List Nat) (now : Nat) :
    r.noteFailure history now e = history := by
  have hstays : ¬(r.breaker.state ≠ .closed ∧ (r.step now e).1.breaker.state = .closed) :=
    fun hcloses => hcloses.1 ((closed_step r now he).mp hcloses.2)
  simp only [noteFailure, if_neg hstays]
  cases e with
  | start =>
      simp only [step, start]
      generalize r.breaker.enter now = entered
      obtain ⟨b, _ | _⟩ := entered <;> rfl
  | trip => cases he
  | reset => cases he
  | finish call result => cases he
  | _ => rfl

namespace Keeps

/-- A window that is cleared keeps the history that begins now. -/
theorem cleared {b : BreakerRun} (h : b.breaker.failures = []) (now : Nat) : b.Keeps [] now :=
  ⟨.nil, by simp, fun later _ => by rw [h]⟩

/-- A window that loses only what is too old keeps the same history. -/
theorem aged {s : BreakerRun} (h : r.Keeps history last) (hlast : last ≤ now)
    (hconfig : s.breaker.config = r.breaker.config)
    (hfailures : s.breaker.failures = r.breaker.failures ∨
      s.breaker.failures = r.breaker.config.recent now r.breaker.failures) :
    s.Keeps history now := by
  refine ⟨h.order, fun t ht => Nat.le_trans (h.past t ht) hlast, fun later hlater => ?_⟩
  have hrecent := h.recent later (Nat.le_trans hlast hlater)
  rw [hconfig]
  rcases hfailures with hsame | hpruned
  · rw [hsame]
    exact hrecent
  · rw [hpruned, r.breaker.config.recent_recent hlater]
    exact hrecent

/-- With one more failure the same are recent in both. -/
theorem recent_concat {later : Nat} (h : r.Keeps history last) (hlater : last ≤ later) (t : Nat) :
    r.breaker.config.recent later (r.breaker.failures ++ [t]) =
      r.breaker.config.recent later (history ++ [t]) := by
  have happend (l : List Nat) := r.breaker.config.recent_append (Nat.le_refl later) l [t]
  calc r.breaker.config.recent later (r.breaker.failures ++ [t])
      = r.breaker.config.recent later
          (r.breaker.config.recent later r.breaker.failures ++ [t]) := (happend _).symm
    _ = r.breaker.config.recent later
          (r.breaker.config.recent later history ++ [t]) := by rw [h.recent later hlater]
    _ = r.breaker.config.recent later (history ++ [t]) := happend _

/-- A failure that is reported now comes last. -/
theorem order_concat (h : r.Keeps history last) (hlast : last ≤ now) :
    (history ++ [now]).Pairwise (· ≤ ·) := by
  refine List.pairwise_append.mpr ⟨h.order, List.pairwise_singleton _ _, fun t ht u hu => ?_⟩
  rw [List.mem_singleton.mp hu]
  exact Nat.le_trans (h.past t ht) hlast

/-- A failure that joins the window joins the history. -/
theorem failed {s : BreakerRun} (h : r.Keeps history last) (hlast : last ≤ now)
    (hconfig : s.breaker.config = r.breaker.config)
    (hfailures : s.breaker.failures =
      r.breaker.config.recent now (r.breaker.failures ++ [now])) :
    s.Keeps (history ++ [now]) now := by
  refine ⟨h.order_concat hlast, fun t ht => ?_, fun later hlater => ?_⟩
  · rcases List.mem_append.mp ht with hold | hnew
    · exact Nat.le_trans (h.past t hold) hlast
    · exact Nat.le_of_eq (List.mem_singleton.mp hnew)
  · rw [hconfig, hfailures, r.breaker.config.recent_recent hlater]
    exact h.recent_concat (Nat.le_trans hlast hlater) now

end Keeps

/-- What the end of a call makes of the breaker. -/
theorem step_finish {call : Nat} {a : Admission} (ha : r.admission? call = some a) (now : Nat)
    (result : Except RoutingError α) :
    (r.step now (.finish call result)).1.breaker = r.breaker.settle now a (.ofResult result) ∧
      (r.step now (.finish call result)).2 = .ended result := by
  simp only [step, finish, ha]
  exact ⟨rfl, trivial⟩

theorem step_finish_of_none {call : Nat} (ha : r.admission? call = none) (now : Nat)
    (result : Except RoutingError α) :
    r.step now (.finish call result) = (r, .nothing) := by
  simp only [step, finish, ha]

/-- A call that ends keeps the window and the history together. -/
theorem keeps_finish (h : r.Keeps history last) (hlast : last ≤ now) (call : Nat)
    (result : Except RoutingError α) :
    (r.step now (.finish call result)).1.Keeps (r.noteFailure history now (.finish call result))
      now := by
  have hconfig := (step_turns r now (.finish call result)).advances.config
  cases ha : r.admission? call with
  | none =>
      have hstays : ¬(r.breaker.state ≠ .closed ∧ r.breaker.state = .closed) :=
        fun hcloses => hcloses.1 hcloses.2
      simp only [noteFailure, step_finish_of_none ha, if_neg hstays]
      exact h.aged hlast rfl (.inl rfl)
  | some a =>
      obtain ⟨hbreaker, hended⟩ := step_finish ha now result
      cases result with
      | ok value =>
          have hwindow := Breaker.failures_settle_success r.breaker now a
          have hverdict : r.breaker.settle now a .success =
              (r.step now (.finish call (.ok value : Except RoutingError α))).1.breaker :=
            hbreaker.symm
          rw [hverdict] at hwindow
          simp only [noteFailure, hended]
          by_cases hclosed : (r.step now
              (.finish call (.ok value : Except RoutingError α))).1.breaker.state = .closed
          · rw [if_pos hclosed] at hwindow
            by_cases hbefore : r.breaker.state = .closed
            · rw [if_neg fun hcloses => hcloses.1 hbefore, if_pos hbefore]
              exact .cleared hwindow now
            · rw [if_pos ⟨hbefore, hclosed⟩]
              exact .cleared hwindow now
          · have hbefore : r.breaker.state ≠ .closed := fun hbefore =>
              hclosed (hverdict ▸ Breaker.state_settle_success hbefore now a)
            rw [if_neg hclosed] at hwindow
            rw [if_neg fun hcloses => hclosed hcloses.2, if_neg hbefore]
            exact h.aged hlast hconfig (.inl hwindow)
      | error error =>
          by_cases hcounts : error.countsAsEndpointFailure = true
          · have hverdict : r.breaker.settle now a .failure = (r.step now
                (.finish call (.error error : Except RoutingError α))).1.breaker := by
              rw [hbreaker, Verdict.ofResult, if_pos hcounts]
            have hstays : ¬(r.breaker.state ≠ .closed ∧ (r.step now
                (.finish call (.error error : Except RoutingError α))).1.breaker.state = .closed) :=
              fun hcloses => hcloses.1 (Breaker.closed_of_settle_failure (hverdict ▸ hcloses.2))
            simp only [noteFailure, hended, if_neg hstays, if_pos hcounts]
            refine h.failed hlast hconfig ?_
            rw [← hverdict]
            exact Breaker.failures_settle_failure r.breaker now a
          · obtain ⟨n, hrelease⟩ := Breaker.releaseProbe_eq r.breaker a
            have hverdict : (r.step now
                (.finish call (.error error : Except RoutingError α))).1.breaker =
                { r.breaker with halfOpenInFlight := n } := by
              rw [hbreaker, Verdict.ofResult, if_neg hcounts]
              exact hrelease
            have hstays : ¬(r.breaker.state ≠ .closed ∧
                (r.step now (.finish call
                  (.error error : Except RoutingError α))).1.breaker.state = .closed) := by
              rw [hverdict]
              exact fun hcloses => hcloses.1 hcloses.2
            simp only [noteFailure, hended, if_neg hstays, if_neg hcounts]
            exact h.aged hlast hconfig (.inl (by rw [hverdict]))

/-- **Step theorem.**  The window goes on keeping the history. -/
theorem step_keeps (h : r.Keeps history last) (hlast : last ≤ now) (e : BreakerEvent α) :
    (r.step now e).1.Keeps (r.noteFailure history now e) now := by
  have hconfig := (step_turns r now e).advances.config
  by_cases he : e.decides = false
  · rw [noteFailure_of_other he]
    exact h.aged hlast hconfig (failures_step r now he)
  cases e with
  | trip =>
      have hopened : (r.step now (.trip : BreakerEvent α)).1.breaker = r.breaker.toOpen now := rfl
      have hstays : ¬(r.breaker.state ≠ .closed ∧
          (r.step now (.trip : BreakerEvent α)).1.breaker.state = .closed) := by
        rw [hopened, Breaker.toOpen_eq]
        exact fun hcloses => by cases hcloses.2
      simp only [noteFailure, if_neg hstays]
      refine h.aged hlast hconfig (.inl ?_)
      rw [hopened, Breaker.toOpen_eq]
  | reset =>
      have hcleared : r.noteFailure history now (.reset : BreakerEvent α) = [] := by
        simp only [noteFailure, ite_self]
      rw [hcleared]
      refine .cleared ?_ now
      simp only [step, become, Breaker.reset_eq]
  | finish call result => exact keeps_finish h hlast call result
  | _ => exact absurd rfl he

theorem run_keeps (h : r.Keeps history last) (events : List (Nat × BreakerEvent α))
    (horder : (last :: (events.map (·.1) ++ [now])).Pairwise (· ≤ ·)) :
    (r.run events).Keeps (r.failuresSince history events) now := by
  induction events generalizing r history last with
  | nil => exact h.aged ((List.pairwise_cons.mp horder).1 now (by simp)) rfl (.inl rfl)
  | cons e rest ih =>
      obtain ⟨hlast, horder'⟩ := List.pairwise_cons.mp horder
      exact ih (step_keeps h (hlast e.1 (by simp)) e.2) horder'

/-- A closed circuit opens by hand, or by a failure that makes the window as full as the
threshold. -/
theorem opens_iff (h : r.Keeps history last) (hlast : last ≤ now)
    (hclosed : r.breaker.state = .closed) (e : BreakerEvent α) :
    (r.step now e).1.breaker.state ≠ .closed ↔
      e = .trip ∨ ∃ call error, e = .finish call (.error error) ∧
        (r.admission? call).isSome ∧ error.countsAsEndpointFailure = true ∧
        r.breaker.config.failureThreshold ≤
          r.breaker.config.countRecent now (history ++ [now]) := by
  by_cases he : e.decides = false
  · have hstays := (closed_step r now he).mpr hclosed
    refine iff_of_false (fun hne => hne hstays) ?_
    rintro (rfl | ⟨call, error, rfl, -⟩) <;> cases he
  cases e with
  | trip =>
      have hopened : (r.step now (.trip : BreakerEvent α)).1.breaker = r.breaker.toOpen now := rfl
      rw [hopened, Breaker.toOpen_eq]
      exact iff_of_true (by simp) (.inl rfl)
  | reset =>
      have hreset : (r.step now (.reset : BreakerEvent α)).1.breaker = r.breaker.reset := rfl
      rw [hreset, Breaker.reset_eq]
      simp
  | finish call result =>
      cases ha : r.admission? call with
      | none =>
          rw [step_finish_of_none ha]
          refine iff_of_false (fun hne => hne hclosed) ?_
          rintro (htrip | ⟨call', error, hevent, hunder, -⟩)
          · cases htrip
          · cases hevent
            rw [ha] at hunder
            cases hunder
      | some a =>
          rw [(step_finish ha now result).1]
          cases result with
          | ok value =>
              have hstays := Breaker.state_settle_success hclosed now a
              exact iff_of_false (fun hne => hne hstays) (by simp)
          | error error =>
              by_cases hcounts : error.countsAsEndpointFailure = true
              · have hfull : (r.breaker.config.recent now (r.breaker.failures ++ [now])).length =
                    r.breaker.config.countRecent now (history ++ [now]) := by
                  rw [h.recent_concat hlast,
                    r.breaker.config.length_recent _ (h.order_concat hlast)]
                simp only [Verdict.ofResult, if_pos hcounts]
                rw [Breaker.state_settle_failure hclosed, hfull]
                constructor
                · intro hmany
                  exact .inr ⟨call, error, rfl, by rw [ha]; rfl, hcounts, hmany⟩
                · rintro (htrip | ⟨call', error', hevent, -, -, hmany⟩)
                  · cases htrip
                  · exact hmany
              · obtain ⟨n, hrelease⟩ := Breaker.releaseProbe_eq r.breaker a
                have hneutral : r.breaker.settle now a .neutral =
                    { r.breaker with halfOpenInFlight := n } := hrelease
                simp only [Verdict.ofResult, if_neg hcounts]
                rw [hneutral]
                refine iff_of_false (fun hne => hne hclosed) ?_
                rintro (htrip | ⟨call', error', hevent, -, hcounts', -⟩)
                · cases htrip
                · cases hevent
                  exact hcounts hcounts'
  | _ => exact absurd rfl he

/-- **The trip law.**  While the circuit is closed, the failures counted are those reported since
the window was last cleared that are not older than the window, one exactly at its beginning
included.  The circuit opens by hand, and else exactly when a failure of the endpoint is reported
with which the count reaches the threshold.  Events come in the order of their times. -/
theorem run_trips (name : String) (config : BreakerConfig) (timersEnabled : Bool)
    (events : List (Nat × BreakerEvent α)) (now : Nat)
    (horder : (events.map (·.1) ++ [now]).Pairwise (· ≤ ·)) :
    let r := (new name config timersEnabled).run events
    let history := (new name config timersEnabled).failuresSince [] events
    r.breaker.state = .closed →
      (r.step now (.failureCount : BreakerEvent α)).2 =
        .failureCount (history.countP fun t => now ≤ t + config.monitorWindow) ∧
      (∃ report, (r.step now (.report : BreakerEvent α)).2 = .report report ∧
        report.failureCount = history.countP fun t => now ≤ t + config.monitorWindow) ∧
      ∀ e : BreakerEvent α,
        ((r.step now e).1.breaker.state ≠ .closed ↔
          e = .trip ∨ ∃ call error, e = .finish call (.error error) ∧
            (r.admission? call).isSome ∧ error.countsAsEndpointFailure = true ∧
            config.failureThreshold ≤
              (history ++ [now]).countP fun t => now ≤ t + config.monitorWindow) := by
  intro r history hclosed
  have hconfig : r.breaker.config = config := (run_settings _ events).2
  have hnew : (new name config timersEnabled).Keeps [] 0 := .cleared rfl 0
  have hkeeps : r.Keeps history now :=
    run_keeps hnew events (List.pairwise_cons.mpr ⟨fun _ _ => Nat.zero_le _, horder⟩)
  have hcount : (r.breaker.config.recent now r.breaker.failures).length =
      history.countP fun t => now ≤ t + config.monitorWindow := by
    rw [hkeeps.recent now (Nat.le_refl now), r.breaker.config.length_recent now hkeeps.order,
      hconfig]
    rfl
  have hread : r.breaker.refresh now = r.breaker := Breaker.refresh_of_ne_open (by simp [hclosed])
  refine ⟨congrArg BreakerOutcome.failureCount hcount, ⟨_, rfl, ?_⟩, fun e => ?_⟩
  · simp only [Breaker.report, hread]
    exact hcount
  · rw [opens_iff hkeeps (Nat.le_refl now) hclosed e, hconfig]
    rfl

/-- Four calls, of which the first three fail. -/
def threeFailures : List (Nat × BreakerEvent Unit) :=
  [(0, .start), (0, .start), (0, .start), (0, .start),
   (1, .finish 0 (.error (.callFailed none "late"))),
   (4, .finish 1 (.error (.callFailed none "late"))),
   (12, .finish 2 (.error (.callFailed none "late")))]

/-- Of three failures the first has left the window when the third is reported, and the circuit
stays closed; it opens at the fourth, when the second is exactly at the beginning of the window. -/
theorem run_trips_at_the_edge :
    let r := (new "a" { failureThreshold := 3, monitorWindow := 10 } true).run threeFailures
    let fourth : BreakerEvent Unit := .finish 3 (.error (.callFailed none "late"))
    (threeFailures.map Prod.fst ++ [14]).Pairwise (· ≤ ·) ∧ r.breaker.state = .closed ∧
      (r.step 14 (.failureCount : BreakerEvent Unit)).2 = .failureCount 2 ∧
      (r.step 14 fourth).1.breaker.state ≠ .closed := by
  have horder : (threeFailures.map Prod.fst ++ [14]).Pairwise (· ≤ ·) := by decide
  have hclosed : ((new "a" { failureThreshold := 3, monitorWindow := 10 } true).run
      threeFailures).breaker.state = .closed := by decide +kernel
  obtain ⟨hcount, -, hopens⟩ := run_trips "a" { failureThreshold := 3, monitorWindow := 10 } true
    threeFailures 14 horder hclosed
  have htwo : ((new "a" { failureThreshold := 3, monitorWindow := 10 } true).failuresSince []
      threeFailures).countP (fun t => 14 ≤ t + 10) = 2 := by decide +kernel
  have hthree : 3 ≤ ((new "a" { failureThreshold := 3, monitorWindow := 10 } true).failuresSince []
      threeFailures ++ [14]).countP (fun t => 14 ≤ t + 10) := by decide +kernel
  have hunder : (((new "a" { failureThreshold := 3, monitorWindow := 10 } true).run
      threeFailures).admission? 3).isSome := by decide +kernel
  refine ⟨horder, hclosed, hcount.trans (congrArg BreakerOutcome.failureCount htwo), ?_⟩
  exact (hopens _).mpr (.inr ⟨3, _, rfl, hunder, rfl, hthree⟩)

end BreakerRun

end InferenceRouting
