import InferenceRouting.Proofs.Breaker.Window
import InferenceRouting.Proofs.Number.Rounding

/-!
# The totals of a breaker

A breaker counts the calls asked for, those it rejects and those that end with a failure of the
endpoint, and a reset begins all three counts anew.  A call is counted when it is asked for and its
failure when it ends, so a reset in between leaves the failure on the new books and the call on the
old ones.

`Lifetime` is what has become of the calls since the last reset, as seen from outside.  The books
balance with it after every step (`Balanced`), and `run_balances_with_strays` says for every run how
far the failures and rejections can exceed the calls, and when the failure rate is a percentage.
-/

namespace InferenceRouting

namespace Breaker

variable {b : Breaker} {a : Admission} {now : Nat}

/-- What a breaker counts over its lifetime: calls, failures and rejections. -/
def totals (b : Breaker) : Nat × Nat × Nat :=
  (b.totalRequests, b.totalFailures, b.rejectedRequests)

theorem totals_toOpen (b : Breaker) (now : Nat) : (b.toOpen now).totals = b.totals := by
  rw [toOpen_eq]
  rfl

theorem totals_refresh (b : Breaker) (now : Nat) : (b.refresh now).totals = b.totals := by
  by_cases hover : b.Overdue now
  · rw [refresh_of_overdue hover, toHalfOpen_eq]
    rfl
  · rw [refresh_of_not_overdue hover]

theorem totals_releaseProbe (b : Breaker) (a : Admission) : (b.releaseProbe a).totals = b.totals := by
  obtain ⟨n, hrelease⟩ := releaseProbe_eq b a
  rw [hrelease]
  rfl

theorem totals_fireTimer (b : Breaker) (generation : Nat) :
    (b.fireTimer generation).totals = b.totals := by
  unfold fireTimer
  dsimp only
  split
  · rw [toHalfOpen_eq]
    rfl
  · rfl

/-- A call is counted when it is asked for, and once more when it is rejected. -/
theorem totals_enter (b : Breaker) (now : Nat) :
    (b.enter now).1.totals = (b.totalRequests + 1, b.totalFailures,
      b.rejectedRequests + (b.enter now).2.toBool.not.toNat) := by
  have hjudge (c : Breaker) : (c.judge now).1.totals = (c.totalRequests, c.totalFailures,
      c.rejectedRequests + (c.judge now).2.toBool.not.toNat) := by
    unfold judge
    split
    · rfl
    · rfl
    · split <;> rfl
  have hcount := totals_refresh b.countRequest now
  simp only [totals, countRequest, Prod.mk.injEq] at hcount
  obtain ⟨hrequests, hfailures, hrejected⟩ := hcount
  rw [enter_eq, hjudge]
  simp only [countRequest, hrequests, hfailures, hrejected]

/-- A success is not counted. -/
theorem totals_settle_success (b : Breaker) (now : Nat) (a : Admission) :
    (b.settle now a .success).totals = b.totals := by
  have hcredit (c : Breaker) : (c.credit a).totals = c.totals := by
    unfold credit
    split
    · rfl
    · split
      · dsimp only
        split
        · rw [toClosed_eq]
          rfl
        · rfl
      · rfl
    · rfl
  calc (b.settle now a .success).totals
      = (((b.releaseProbe a).noteSuccess now).credit a).totals := rfl
    _ = (b.releaseProbe a).totals := hcredit _
    _ = b.totals := totals_releaseProbe b a

/-- A failure is counted when it is reported, whatever has happened since the call was asked for. -/
theorem totals_settle_failure (b : Breaker) (now : Nat) (a : Admission) :
    (b.settle now a .failure).totals =
      (b.totalRequests, b.totalFailures + 1, b.rejectedRequests) := by
  have hreact (c : Breaker) : (c.react now).totals = c.totals := by
    unfold react
    split
    · split
      · exact totals_toOpen c now
      · rfl
    · exact totals_toOpen c now
    · rfl
  have hrelease := totals_releaseProbe b a
  simp only [totals, Prod.mk.injEq] at hrelease
  obtain ⟨hrequests, hfailures, hrejected⟩ := hrelease
  calc (b.settle now a .failure).totals
      = (((b.releaseProbe a).countFailure now).react now).totals := rfl
    _ = ((b.releaseProbe a).countFailure now).totals := hreact _
    _ = ((b.releaseProbe a).totalRequests, (b.releaseProbe a).totalFailures + 1,
          (b.releaseProbe a).rejectedRequests) := rfl
    _ = (b.totalRequests, b.totalFailures + 1, b.rejectedRequests) := by
        rw [hrequests, hfailures, hrejected]

end Breaker

/-- **The failure rate is a percentage** as long as there are no more failures than calls, in the
arithmetic of doubles. -/
theorem BreakerReport.percentage_mem {failures requests : Nat} (h : failures ≤ requests) :
    0 ≤ (percentage failures requests).value ∧ (percentage failures requests).value ≤ 100 := by
  have hzero : 0 ≤ (Binary64.zero false).value ∧ (Binary64.zero false).value ≤ 100 := by
    simp [Binary64.value, Binary64.magnitude, Binary64.zero]
  unfold percentage
  split
  · exact hzero
  rename_i hsome
  dsimp only
  generalize hrate : (do
    let quotient ← (← Binary64.ofNat? failures).div (← Binary64.ofNat? requests)
    quotient.mul (← Binary64.ofNat? 100)) = rate
  cases rate with
  | none => exact hzero
  | some rate =>
      simp only [Option.bind_eq_bind, Option.bind_eq_some_iff] at hrate
      obtain ⟨f, hf, r, hr, quotient, hquotient, hundred, hhundred, hrate⟩ := hrate
      have hpos := Binary64.magnitude_ofNat_pos (Nat.pos_of_ne_zero hsome) hr
      obtain ⟨f', hf', -, hle⟩ := Binary64.ofRatio_mono Nat.one_pos Nat.one_pos
        (Nat.mul_le_mul_right 1 h) false false hr
      obtain rfl := Option.some.inj (hf'.symm.trans hf)
      obtain ⟨hone, hsign⟩ := Binary64.magnitude_div_le_one hle hpos hquotient
      obtain ⟨hmost, hsign'⟩ := Binary64.magnitude_mul_le hone hhundred
        (Binary64.magnitude_hundred hhundred) hrate
      have hpositive : rate.negative = false := by
        rw [hsign', hsign, Binary64.negative_ofNat hf, Binary64.negative_ofNat hr,
          Binary64.negative_ofNat hhundred]
        rfl
      simp only [Option.getD_some, Binary64.value, hpositive, Bool.false_eq_true, if_false]
      exact ⟨rate.magnitude_nonneg, by exact_mod_cast hmost⟩

namespace BreakerRun

/-- What has become of the calls since the last reset. -/
structure Lifetime where
  /-- Calls with smaller numbers were asked for before the last reset. -/
  since : Nat := 0
  /-- How many of the calls admitted since then are over without a failure of the endpoint. -/
  spared : Nat := 0
  /-- How many failures of the endpoint have been reported since then by calls asked for before. -/
  strays : Nat := 0

variable {α : Type} {r : BreakerRun} {l : Lifetime} {now call : Nat} {a : Admission}

/-- The lifetime after a call is over. -/
def Lifetime.ended (l : Lifetime) (call : Nat) (v : Verdict) : Lifetime :=
  if l.since ≤ call then if v = .failure then l else { l with spared := l.spared + 1 }
  else if v = .failure then { l with strays := l.strays + 1 } else l

/-- The lifetime after one more event, if it was `l` before. -/
def noteLifetime (r : BreakerRun) (l : Lifetime) : BreakerEvent α → Lifetime
  | .reset => { since := r.asked }
  | .finish call result =>
    if (r.admission? call).isSome then l.ended call (.ofResult result) else l
  | .abandon call => if (r.admission? call).isSome then l.ended call .neutral else l
  | _ => l

/-- The lifetime after some events. -/
def lifetime (r : BreakerRun) (l : Lifetime) : List (Nat × BreakerEvent α) → Lifetime
  | [] => l
  | e :: rest => (r.step e.1 e.2).1.lifetime (r.noteLifetime l e.2) rest

/-- The number of calls under way that were asked for since the last reset. -/
def underWay (r : BreakerRun) (l : Lifetime) : Nat :=
  r.calls.countP fun c => l.since ≤ c.1

/-- The books of the breaker balance: each call since the last reset has failed, was rejected, is
under way or was spared, and a stray failure is on the books without its call. -/
structure Balanced (r : BreakerRun) (l : Lifetime) : Prop where
  since_le : l.since ≤ r.asked
  balance : r.breaker.totalRequests + l.strays =
    r.breaker.totalFailures + r.breaker.rejectedRequests + r.underWay l + l.spared

/-- An event that neither begins nor ends a call and is no reset leaves the books alone. -/
theorem Balanced.same {s : BreakerRun} (h : r.Balanced l)
    (htotals : s.breaker.totals = r.breaker.totals) (hcalls : s.calls = r.calls)
    (hasked : s.asked = r.asked) : s.Balanced l := by
  simp only [Breaker.totals, Prod.mk.injEq] at htotals
  obtain ⟨hrequests, hfailures, hrejected⟩ := htotals
  refine ⟨hasked ▸ h.since_le, ?_⟩
  unfold underWay
  rw [hrequests, hfailures, hrejected, hcalls]
  exact h.balance

/-- A call that is over is under way no more. -/
theorem Accounted.underWay_endCall (h : r.Accounted) (ha : r.admission? call = some a)
    (l : Lifetime) :
    r.underWay l = (r.endCall call).underWay l + if l.since ≤ call then 1 else 0 := by
  have hperm : r.calls.Perm ((call, a) :: (r.endCall call).calls) :=
    Keyed.perm_cons_filter h.numbers (Keyed.mem_of_lookup ha)
  unfold underWay
  rw [hperm.countP_eq, List.countP_cons]
  simp only [decide_eq_true_eq]

/-- **The end of a call.**  It moves the call on the books, or puts a stray failure on them. -/
theorem Balanced.ended (h : r.Balanced l) (hr : r.Accounted) (ha : r.admission? call = some a)
    {b : Breaker} {v : Verdict}
    (hb : b.totals = (r.breaker.totalRequests,
      r.breaker.totalFailures + (if v = .failure then 1 else 0), r.breaker.rejectedRequests)) :
    ((r.endCall call).become b).Balanced (l.ended call v) := by
  have hbalance := h.balance
  rw [hr.underWay_endCall ha l] at hbalance
  simp only [Breaker.totals, Prod.mk.injEq] at hb
  obtain ⟨hrequests, hfailures, hrejected⟩ := hb
  have hsince : (l.ended call v).since = l.since := by
    unfold Lifetime.ended
    split <;> split <;> rfl
  refine ⟨hsince ▸ h.since_le, ?_⟩
  have hunder : ((r.endCall call).become b).underWay (l.ended call v) =
      (r.endCall call).underWay l := by
    unfold underWay
    rw [hsince]
    rfl
  rw [hunder]
  simp only [become, hrequests, hfailures, hrejected]
  unfold Lifetime.ended
  split <;> split <;> simp_all <;> omega

/-- The next call is on the books, admitted or rejected. -/
theorem Balanced.start (h : r.Balanced l) (now : Nat) :
    (r.step now (.start : BreakerEvent α)).1.Balanced l := by
  have htotals := Breaker.totals_enter r.breaker now
  have hsince := h.since_le
  have hbalance := h.balance
  simp only [step, BreakerRun.start]
  generalize r.breaker.enter now = entered at htotals
  obtain ⟨b, outcome⟩ := entered
  simp only [Breaker.totals, Prod.mk.injEq] at htotals
  obtain ⟨hrequests, hfailures, hrejected⟩ := htotals
  cases outcome with
  | ok a =>
      refine ⟨Nat.le_succ_of_le hsince, ?_⟩
      simp only [become, underWay, List.countP_append, List.countP_singleton] at hbalance ⊢
      rw [hrequests, hfailures, hrejected]
      simp only [hsince, Except.toBool, decide_true, if_true, Bool.not_true, Bool.toNat_false]
      omega
  | error error =>
      refine ⟨Nat.le_succ_of_le hsince, ?_⟩
      simp only [become, underWay] at hbalance ⊢
      rw [hrequests, hfailures, hrejected]
      simp only [Except.toBool, Bool.not_false, Bool.toNat_true]
      omega

/-- **Step theorem.**  The books go on balancing. -/
theorem Balanced.step (h : r.Balanced l) (hr : r.Accounted) (now : Nat) (e : BreakerEvent α) :
    (r.step now e).1.Balanced (r.noteLifetime l e) := by
  have hread : (r.breaker.refresh now).totals = r.breaker.totals :=
    Breaker.totals_refresh r.breaker now
  cases e with
  | start => exact h.start now
  | finish call result =>
      cases ha : r.admission? call with
      | none =>
          simp only [noteLifetime, step_finish_of_none ha, ha]
          exact h
      | some a =>
          simp only [noteLifetime, BreakerRun.step, finish, ha, Option.isSome_some, if_true]
          refine h.ended hr ha ?_
          cases Verdict.ofResult result with
          | success => exact Breaker.totals_settle_success r.breaker now a
          | failure => exact Breaker.totals_settle_failure r.breaker now a
          | neutral => exact Breaker.totals_releaseProbe r.breaker a
  | abandon call =>
      cases ha : r.admission? call with
      | none =>
          simp only [noteLifetime, BreakerRun.step, abandon, ha]
          exact h
      | some a =>
          simp only [noteLifetime, BreakerRun.step, abandon, ha, Option.isSome_some, if_true]
          exact h.ended hr ha (Breaker.totals_releaseProbe r.breaker a)
  | reset =>
      -- no call under way has been asked for since
      refine ⟨Nat.le_refl _, ?_⟩
      have hnone : (r.step now (.reset : BreakerEvent α)).1.underWay { since := r.asked } = 0 := by
        refine List.countP_eq_zero.mpr fun c hc => ?_
        have := hr.recent c.1 (List.mem_map_of_mem hc)
        simp only [decide_eq_true_eq]
        omega
      simp only [noteLifetime, hnone]
      simp only [BreakerRun.step, become, Breaker.reset_eq]
  | trip => exact h.same (Breaker.totals_toOpen r.breaker now) rfl rfl
  | state => exact h.same hread rfl rfl
  | available => exact h.same hread rfl rfl
  | failureCount => exact h.same rfl rfl rfl
  | report => exact h.same hread rfl rfl
  | ring timer =>
      simp only [noteLifetime, BreakerRun.step, ring]
      split
      · exact h.same (Breaker.totals_fireTimer r.breaker timer.generation) rfl rfl
      · exact h
  | stopTimers => exact h.same rfl rfl rfl

theorem Balanced.run (h : r.Balanced l) (hr : r.Accounted) (events : List (Nat × BreakerEvent α)) :
    (r.run events).Balanced (r.lifetime l events) := by
  induction events generalizing r l with
  | nil => exact h
  | cons e rest ih => exact ih (h.step hr e.1 e.2) (step_accounted hr e.1 e.2)

/-- **How far failures can outnumber calls.**  In every run each call counted has failed, was
rejected, is under way or is over without a failure, and a failure of a call asked for before the
last reset is counted beside them.  So failures and rejections are no more than the calls exactly as
long as these stray failures are no more than the calls that have not failed, and as long as that is
so the failure rate lies between 0 and 100. -/
theorem run_balances_with_strays (name : String) (config : BreakerConfig) (timersEnabled : Bool)
    (events : List (Nat × BreakerEvent α)) (now : Nat) :
    let r := (new name config timersEnabled).run events
    let l := (new name config timersEnabled).lifetime {} events
    ∃ report, (r.step now (.report : BreakerEvent α)).2 = .report report ∧
      report.totalRequests + l.strays =
        report.totalFailures + report.rejectedRequests + r.underWay l + l.spared ∧
      (report.totalFailures + report.rejectedRequests ≤ report.totalRequests ↔
        l.strays ≤ r.underWay l + l.spared) ∧
      (l.strays ≤ r.underWay l + l.spared →
        0 ≤ report.failureRate.value ∧ report.failureRate.value ≤ 100) := by
  intro r l
  have hnew : (new name config timersEnabled).Balanced {} := ⟨Nat.le_refl _, rfl⟩
  have hbalance := (hnew.run (accounted_new name config timersEnabled) events).balance
  have htotals := Breaker.totals_refresh r.breaker now
  simp only [Breaker.totals, Prod.mk.injEq] at htotals
  obtain ⟨hrequests, hfailures, hrejected⟩ := htotals
  refine ⟨(r.breaker.report now).2, rfl, ?_⟩
  have hbooks : (r.breaker.report now).2.totalRequests + l.strays =
      (r.breaker.report now).2.totalFailures + (r.breaker.report now).2.rejectedRequests +
        r.underWay l + l.spared := by
    simp only [Breaker.report, Breaker.prune, hrequests, hfailures, hrejected]
    exact hbalance
  refine ⟨hbooks, by omega, fun hstrays => ?_⟩
  exact BreakerReport.percentage_mem (by omega)

/-- A call that is asked for before a reset and fails after it, while two others are under way. -/
def oneStray : List (Nat × BreakerEvent Unit) :=
  [(0, .start), (1, .reset), (2, .start), (2, .start),
   (3, .finish 0 (.error (.callFailed (some 500) "boom")))]

theorem run_balances_with_strays_one :
    let r := (new "a" {} true).run oneStray
    let l := (new "a" {} true).lifetime {} oneStray
    l.strays = 1 ∧ l.strays ≤ r.underWay l + l.spared ∧
      ∃ report, (r.step 4 (.report : BreakerEvent Unit)).2 = .report report ∧
        report.totalFailures + report.rejectedRequests ≤ report.totalRequests ∧
        report.failureRate.value ≤ 100 := by
  have hone : ((new "a" {} true).lifetime {} oneStray).strays = 1 := by decide +kernel
  have hfew : ((new "a" {} true).lifetime {} oneStray).strays ≤
      ((new "a" {} true).run oneStray).underWay ((new "a" {} true).lifetime {} oneStray) +
        ((new "a" {} true).lifetime {} oneStray).spared := by decide +kernel
  obtain ⟨report, hreport, -, hbalance, hrate⟩ := run_balances_with_strays "a" {} true oneStray 4
  exact ⟨hone, hfew, report, hreport, hbalance.mpr hfew, (hrate hfew).2⟩

/-- Two calls that are asked for before a reset and fail after it, and one that succeeds between. -/
def twoStrays : List (Nat × BreakerEvent Unit) :=
  [(0, .start), (0, .start), (0, .reset), (0, .start), (0, .finish 2 (.ok ())),
   (0, .finish 0 (.error (.callFailed (some 500) "boom"))),
   (0, .finish 1 (.error (.callFailed (some 500) "boom")))]

/-- After a reset one call is counted and two failures, which makes a failure rate of 200 percent. -/
theorem stray_failures_outnumber :
    let b := ((new "a" {} true).run twoStrays).breaker
    b.totalRequests = 1 ∧ b.rejectedRequests = 0 ∧ b.totalFailures = 2 ∧
      (b.report 0).2.failureRate.value = 200 := by
  have hrate : (((new "a" {} true).run twoStrays).breaker.report 0).2.failureRate =
      ⟨false, 200 * 2 ^ 45, -45⟩ := by decide +kernel
  refine ⟨by decide +kernel, by decide +kernel, by decide +kernel, ?_⟩
  simp only [hrate]
  norm_num [Binary64.value, Binary64.magnitude, zpow_neg]

end BreakerRun

end InferenceRouting
