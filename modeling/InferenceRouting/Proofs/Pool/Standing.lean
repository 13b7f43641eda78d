import InferenceRouting.Proofs.Pool.Ownership

/-!
# Where a caller stands

A caller of a pool may have an acquisition under way and may hold a lease.  An event is about one
caller, or about none, and spares all others (`step_spares`).  What becomes of the caller itself can
be read off the outcome (`Replies`): it holds a lease afterwards if it held one before or if one has
been granted, a grant ends its acquisition, and a refusal is either one that says nothing about the
address, or the error with which a connection to it could not be opened.
-/

namespace InferenceRouting

/-- Whether the error is raised before a call to an endpoint is attempted, by its breaker or by the
pool. -/
def RoutingError.isRejection : RoutingError → Bool
  | .circuitOpen .. | .acquisitionTimeout .. | .poolClosed => true
  | _ => false

/-- A rejection says nothing about the endpoint. -/
theorem RoutingError.not_counts_of_isRejection {e : RoutingError} (h : e.isRejection = true) :
    e.countsAsEndpointFailure = false := by
  cases e <;> first | rfl | cases h

namespace PoolRun

variable {κ : Type} {r s t : PoolRun κ} {c caller : Nat} {a : Acquisition}
  {o : PoolRun κ × PoolOutcome κ} {P : RoutingError → Prop}

/-- A caller stands in the second run as it does in the first. -/
structure Spares (r s : PoolRun κ) (c : Nat) : Prop where
  acquisition : s.acquisition? c = r.acquisition? c
  lease : s.lease? c = r.lease? c

/-- What a caller is left with, by the outcome it is given, when a connection can only fail to open
with these faults. -/
structure Replies (r : PoolRun κ) (caller : Nat) (P : RoutingError → Prop)
    (o : PoolRun κ × PoolOutcome κ) : Prop where
  spares : ∀ c, c ≠ caller → r.Spares o.1 c
  lease : o.1.lease? caller = (r.lease? caller).or o.2.lease?
  settled : o.2.lease?.isSome → o.1.acquisition? caller = none
  refused : ∀ e, o.2 = .refused e → e.isRejection = true ∨ P e

theorem Spares.refl (r : PoolRun κ) (c : Nat) : r.Spares r c :=
  ⟨rfl, rfl⟩

theorem Spares.trans (h : r.Spares s c) (h' : s.Spares t c) : r.Spares t c :=
  ⟨h'.acquisition.trans h.acquisition, h'.lease.trans h.lease⟩

theorem acquisition?_endAcquisition (r : PoolRun κ) (caller : Nat) :
    (r.endAcquisition caller).acquisition? caller = none :=
  Keyed.find?_filter_self caller r.acquisitions

theorem acquisition?_await (r : PoolRun κ) (a : Acquisition) :
    (r.await a).acquisition? a.caller = some a := by
  have hnone := r.acquisition?_endAcquisition a.caller
  simp only [acquisition?, endAcquisition] at hnone
  simp only [acquisition?, await, List.find?_append, hnone, Option.none_or]
  simp

/-- The end of an acquisition spares the others, whatever becomes of the pool. -/
theorem endAcquisition_spares (r : PoolRun κ) (q : Pool κ) (h : c ≠ caller) :
    r.Spares (({ r with pool := q } : PoolRun κ).endAcquisition caller) c :=
  ⟨Keyed.find?_filter_of_ne h r.acquisitions, rfl⟩

/-- What a caller waits for is nothing to the others. -/
theorem await_spares (r : PoolRun κ) (q : Pool κ) (h : c ≠ a.caller) :
    r.Spares (({ r with pool := q } : PoolRun κ).await a) c := by
  refine ⟨?_, rfl⟩
  have hne : (a.caller == c) = false := beq_false_of_ne (Ne.symm h)
  simp only [acquisition?, await, List.find?_append, List.find?_cons, hne, List.find?_nil,
    Option.or_none]
  exact Keyed.find?_filter_of_ne h r.acquisitions

/-- A grant spares the others. -/
theorem grant_spares (r : PoolRun κ) (q : Pool κ) (now : Nat) (l : Lease κ)
    (h : c ≠ a.caller) : r.Spares (({ r with pool := q } : PoolRun κ).grant now a l).1 c := by
  refine ⟨Keyed.find?_filter_of_ne h r.acquisitions, ?_⟩
  have hne : (c == a.caller) = false := beq_false_of_ne h
  simp only [lease?, grant, List.lookup_append, List.lookup_cons, hne, List.lookup_nil,
    Option.or_none]

namespace Replies

/-- Nothing has come of the event. -/
theorem quiet (r : PoolRun κ) (caller : Nat) : r.Replies caller P (r, .nothing) where
  spares c _ := Spares.refl r c
  lease := by simp [PoolOutcome.lease?]
  settled h := by simp [PoolOutcome.lease?] at h
  refused e h := by cases h

/-- The caller has to wait. -/
theorem await {q : Pool κ} {out : PoolOutcome κ} (ha : a.caller = caller)
    (hlease : out.lease? = none) (hrefused : ∀ e, out ≠ .refused e) :
    r.Replies caller P (({ r with pool := q } : PoolRun κ).await a, out) where
  spares c hc := r.await_spares q (ha ▸ hc)
  lease := by simp [hlease, lease?, PoolRun.await, endAcquisition]
  settled h := by simp [hlease] at h
  refused e h := absurd h (hrefused e)

/-- The caller is refused. -/
theorem refuse {q : Pool κ} {e : RoutingError}
    (he : e.isRejection = true ∨ P e) :
    r.Replies caller P (({ r with pool := q } : PoolRun κ).endAcquisition caller, .refused e) where
  spares c hc := r.endAcquisition_spares q hc
  lease := by simp [PoolOutcome.lease?, lease?, endAcquisition]
  settled h := by simp [PoolOutcome.lease?] at h
  refused e' h := by
    cases h
    exact he

/-- The caller is granted a lease. -/
theorem grant {q : Pool κ} (ha : a.caller = caller) (now : Nat) (l : Lease κ) :
    r.Replies caller P (({ r with pool := q } : PoolRun κ).grant now a l) where
  spares c hc := r.grant_spares q now l (ha ▸ hc)
  lease := by
    subst ha
    simp [PoolOutcome.lease?, lease?, PoolRun.grant, List.lookup_append]
  settled _ := ha ▸ ({ r with pool := q } : PoolRun κ).acquisition?_endAcquisition a.caller
  refused e h := by cases h

end Replies

/-- What becomes of a caller that asks for a connection. -/
theorem acquire_replies (r : PoolRun κ) (now caller : Nat) (baseUrl : Option String) :
    r.Replies caller P (r.acquire now caller baseUrl) := by
  unfold acquire
  dsimp only
  split
  · exact .quiet r caller
  split
  · exact {
      spares := fun c _ => Spares.refl r c
      lease := by simp [PoolOutcome.lease?]
      settled := fun h => by simp [PoolOutcome.lease?] at h
      refused := fun e h => by
        cases h
        exact .inl rfl }
  have hwait : ∀ (q : Pool κ) (phase : AcquirePhase) (out : PoolOutcome κ), out.lease? = none →
      (∀ e, out ≠ .refused e) → r.Replies caller P (({ r with pool := q } : PoolRun κ).await
        ⟨caller, baseUrl.getD r.pool.config.defaultBaseUrl, now, phase⟩, out) :=
    fun q phase out => .await rfl
  split
  · rename_i s _
    exact Replies.grant (a := ⟨caller, _, now, .opening⟩) rfl now (Pool.lease s)
  · split
    · exact hwait _ _ .queued rfl nofun
    · split
      · exact hwait _ .opening (.open _) rfl nofun
      · split
        · exact hwait _ .opening (.open _) rfl nofun
        · exact hwait _ _ .queued rfl nofun

/-- What becomes of a caller for which a connection has been opened, or could not be. -/
theorem opened_replies (r : PoolRun κ) (now caller : Nat) {result : Except RoutingError κ}
    (hresult : ∀ e, result = .error e → P e) :
    r.Replies caller P (r.opened now caller result) := by
  unfold opened
  split
  · rename_i a hfound
    obtain ⟨-, rfl⟩ := mem_of_acquisition? hfound
    split
    · rename_i connection _
      cases hclosed : r.pool.closed with
      | true =>
          simp only [Pool.commitLeased, hclosed, if_true]
          exact .refuse (.inl rfl)
      | false =>
          simp only [Pool.commitLeased, hclosed, Bool.false_eq_true, if_false]
          exact .grant rfl now _
    · rename_i e _
      exact .refuse (.inr (hresult e rfl))
    · exact .quiet r _
  · exact .quiet r caller

/-- What becomes of a caller that is given what its ticket was handed. -/
theorem collectFor_replies {now ticket : Nat} (ho : r.collectFor now a ticket = some o) :
    r.Replies a.caller P o := by
  obtain ⟨d, -, rfl⟩ := exists_of_collectFor ho
  cases d with
  | connection l => exact .grant rfl now l
  | room => exact .await rfl rfl nofun
  | closed => exact .refuse (.inl rfl)

/-- What becomes of a caller that looks for what it was handed. -/
theorem collect_replies (r : PoolRun κ) (now caller : Nat) :
    r.Replies caller P (r.collect now caller) := by
  unfold collect
  split
  · rename_i a hfound
    obtain ⟨-, rfl⟩ := mem_of_acquisition? hfound
    split
    · rename_i ticket _
      cases ho : r.collectFor now a ticket with
      | none => exact .quiet r _
      | some o => exact collectFor_replies ho
    · exact .quiet r _
  · exact .quiet r caller

/-- What becomes of a caller that has waited long enough. -/
theorem expire_replies (r : PoolRun κ) (now caller : Nat) :
    r.Replies caller P (r.expire now caller) := by
  unfold expire
  split
  · rename_i a hfound
    obtain ⟨-, rfl⟩ := mem_of_acquisition? hfound
    split
    · rename_i ticket _
      split
      · rename_i o ho
        exact collectFor_replies ho
      · exact .refuse (.inl rfl)
    · exact .quiet r _
  · exact .quiet r caller

/-- A caller without an acquisition looks in vain. -/
theorem collect_of_acquisition?_eq_none (h : r.acquisition? caller = none) (now : Nat) :
    r.collect now caller = (r, .nothing) := by
  simp only [collect, h]

/-- A caller without an acquisition has nothing to wait for. -/
theorem expire_of_acquisition?_eq_none (h : r.acquisition? caller = none) (now : Nat) :
    r.expire now caller = (r, .nothing) := by
  simp only [expire, h]

/-- Whoever gives its connection back holds none any more. -/
theorem lease?_release (r : PoolRun κ) (now caller : Nat) :
    (r.release now caller).lease? caller = none := by
  unfold release
  split
  · assumption
  · exact Keyed.lookup_filter_self caller r.holders

/-- Giving a connection back is nothing to what is asked for. -/
theorem acquisition?_release (r : PoolRun κ) (now caller c : Nat) :
    (r.release now caller).acquisition? c = r.acquisition? c := by
  unfold release
  split <;> rfl

/-- Giving a connection back spares the others. -/
theorem release_spares (r : PoolRun κ) (now : Nat) (h : c ≠ caller) :
    r.Spares (r.release now caller) c := by
  unfold release
  split
  · exact Spares.refl r c
  · exact ⟨rfl, Keyed.lookup_filter_of_ne h r.holders⟩

/-- Whoever goes away keeps the lease it holds. -/
theorem lease?_abandon (r : PoolRun κ) (now caller c : Nat) :
    (r.abandon now caller).lease? c = r.lease? c := by
  unfold abandon
  split
  · rfl
  · dsimp only
    split
    · rfl
    · split <;> rfl

/-- Going away spares the others. -/
theorem abandon_spares (r : PoolRun κ) (now : Nat) (h : c ≠ caller) :
    r.Spares (r.abandon now caller) c := by
  unfold abandon
  split
  · exact Spares.refl r c
  · dsimp only
    split
    · exact r.endAcquisition_spares _ h
    · split
      · exact r.endAcquisition_spares _ h
      · exact r.endAcquisition_spares _ h

/-- What an event does that is about no caller, it does to the pool and the sweeps alone. -/
theorem step_callers (r : PoolRun κ) (now : Nat) {e : PoolEvent κ} (h : e.caller? = none) :
    (r.step now e).1.acquisitions = r.acquisitions ∧ (r.step now e).1.holders = r.holders := by
  have hfill : ∀ id, (r.fill id).1.acquisitions = r.acquisitions ∧
      (r.fill id).1.holders = r.holders := by
    intro id
    unfold fill
    split <;> exact ⟨rfl, rfl⟩
  cases e with
  | sweep id =>
      simp only [step, sweep]
      split
      · exact ⟨rfl, rfl⟩
      · split <;> exact ⟨rfl, rfl⟩
  | warm id =>
      simp only [step]
      split
      · exact ⟨rfl, rfl⟩
      · exact hfill id
  | probed id results =>
      simp only [step, probed]
      split <;> exact ⟨rfl, rfl⟩
  | refill id =>
      simp only [step, refill]
      split
      · exact hfill id
      · exact ⟨rfl, rfl⟩
  | warmed id result =>
      simp only [step, warmed]
      split
      · split <;> exact ⟨rfl, rfl⟩
      · exact ⟨rfl, rfl⟩
      · exact ⟨rfl, rfl⟩
  | abandonSweep id =>
      simp only [step, abandonSweep]
      split <;> exact ⟨rfl, rfl⟩
  | shutdown => exact ⟨rfl, rfl⟩
  | _ => cases h

/-- **What an event leaves alone.**  An event that is not about a caller spares it. -/
theorem step_spares (r : PoolRun κ) (now : Nat) {e : PoolEvent κ} (h : e.caller? ≠ some c) :
    r.Spares (r.step now e).1 c := by
  have hother : ∀ {caller : Nat}, e.caller? = some caller → c ≠ caller :=
    fun he hc => h (hc ▸ he)
  have hnone (he : e.caller? = none) : r.Spares (r.step now e).1 c := by
    obtain ⟨hacquisitions, hholders⟩ := r.step_callers now he
    exact ⟨by simp only [acquisition?, hacquisitions], by simp only [lease?, hholders]⟩
  cases e with
  | acquire caller baseUrl =>
      exact (r.acquire_replies (P := fun _ => True) now caller baseUrl).spares c (hother rfl)
  | opened caller result =>
      exact (r.opened_replies (P := fun _ => True) now caller fun _ _ => trivial).spares c
        (hother rfl)
  | collect caller =>
      exact (r.collect_replies (P := fun _ => True) now caller).spares c (hother rfl)
  | expire caller =>
      exact (r.expire_replies (P := fun _ => True) now caller).spares c (hother rfl)
  | abandon caller => exact r.abandon_spares now (hother rfl)
  | release caller => exact r.release_spares now (hother rfl)
  | flag caller =>
      simp only [step, flag]
      split <;> exact ⟨rfl, rfl⟩
  | _ => exact hnone rfl

end PoolRun

end InferenceRouting
