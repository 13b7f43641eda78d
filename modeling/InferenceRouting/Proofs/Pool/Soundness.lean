import InferenceRouting.Proofs.Pool.Upkeep
import InferenceRouting.Proofs.Pool.Callers

/-!
# A pool with everything under way

The books of the pool agree with what is under way: the reservations that are not handed over are
those of the acquisitions and sweeps that open a connection, and the leases that are not handed over
are those the callers hold (`Sound`).  Every event keeps this (`step_sound`), so it is true after
any run of a new pool (`run_sound`).
-/

namespace InferenceRouting.PoolRun

variable {κ : Type} {r : PoolRun κ} {a : Acquisition}

/-- Whether an acquisition opens a connection. -/
def isOpening (a : Acquisition) : Bool :=
  a.phase == .opening

/-- The connections being opened, for callers and for sweeps. -/
def openings (r : PoolRun κ) : Nat :=
  r.acquisitions.countP isOpening + r.sweeps.countP (·.2 == .opening)

/-- The leases callers hold. -/
def leases (r : PoolRun κ) : List (Lease κ) :=
  r.holders.map (·.2)

/-- The books of the pool agree with what is under way. -/
structure Sound (r : PoolRun κ) : Prop extends Attended r where
  settled : r.pool.Settled r.openings r.leases

/-- Ending the opening of a connection. -/
theorem openings_finish_opening (h : r.Attended) (ha : a ∈ r.acquisitions)
    (hphase : a.phase = .opening) : r.openings = (r.endAcquisition a.caller).openings + 1 := by
  have hcount := (h.perm_endAcquisition ha).countP_eq isOpening
  rw [List.countP_cons_of_pos (by simp [isOpening, hphase])] at hcount
  simp only [openings, hcount, endAcquisition]
  omega

/-- Ending the wait for a turn. -/
theorem openings_finish_queued (h : r.Attended) (ha : a ∈ r.acquisitions) {ticket : Nat}
    (hphase : a.phase = .queued ticket) : r.openings = (r.endAcquisition a.caller).openings := by
  have hcount := (h.perm_endAcquisition ha).countP_eq isOpening
  rw [List.countP_cons_of_neg (by simp [isOpening, hphase])] at hcount
  simp only [openings, hcount, endAcquisition]

/-- A caller without an acquisition has none to end. -/
theorem endAcquisition_of_free {caller : Nat} (hfree : caller ∉ r.callers) :
    r.endAcquisition caller = r := by
  have hsame : r.acquisitions.filter (·.caller ≠ caller) = r.acquisitions :=
    Keyed.filter_ne_of_notMem fun hin => hfree (List.mem_append_left _ hin)
  unfold endAcquisition
  rw [hsame]

/-- Who is not busy has nothing under way. -/
theorem free_of_isBusy {caller : Nat} (h : r.isBusy caller = false) : caller ∉ r.callers := by
  simp only [isBusy, acquisition?, lease?, Bool.or_eq_false_iff, Option.isSome_eq_false_iff,
    Option.isNone_iff_eq_none] at h
  obtain ⟨hacquisition, hlease⟩ := h
  intro hin
  rcases List.mem_append.mp hin with hin | hin
  · obtain ⟨a, ha, rfl⟩ := List.mem_map.mp hin
    have hnone := List.find?_eq_none.mp hacquisition a ha
    simp at hnone
  · exact Keyed.notMem_of_lookup_eq_none hlease hin

/-- The acquisition of a caller is under way. -/
theorem mem_of_acquisition? {caller : Nat} (h : r.acquisition? caller = some a) :
    a ∈ r.acquisitions ∧ a.caller = caller :=
  Keyed.of_find?_eq_some h

/-- A caller without a lease has nothing under way when its acquisition has ended. -/
theorem notMem_callers_endAcquisition {caller : Nat} (hfree : caller ∉ r.holders.map (·.1)) :
    caller ∉ (r.endAcquisition caller).callers := by
  intro hin
  rcases List.mem_append.mp hin with hin | hin
  · obtain ⟨a, ha, heq⟩ := List.mem_map.mp hin
    have hne := (List.mem_filter.mp ha).2
    simp [heq] at hne
  · exact hfree hin

/-- An acquisition that ends with a lease. -/
theorem grant_sound (h : (r.endAcquisition a.caller).Attended)
    (hfree : a.caller ∉ r.holders.map (·.1)) {l : Lease κ}
    (hpool : r.pool.Settled (r.endAcquisition a.caller).openings (l :: r.leases)) (now : Nat) :
    (r.grant now a l).1.Sound := by
  have hserved : r.pool.Serves (r.pool.recordWait now a.started) := Pool.Serves.same rfl
  have hcaller : a.caller ∉ (r.endAcquisition a.caller).callers :=
    notMem_callers_endAcquisition hfree
  have hperm : (l :: r.leases).Perm (r.grant now a l).1.leases := by
    have hlast : (l :: r.leases).Perm (r.leases ++ [l]) := (List.perm_append_singleton _ _).symm
    simpa [leases, grant] using hlast
  exact ⟨(h.serves hserved).hold hcaller l,
    (hpool.recordWait now a.started).toSound.perm hperm, hpool.full⟩

/-- An acquisition that goes on to open a connection. -/
theorem await_sound (h : (r.endAcquisition a.caller).Attended)
    (hfree : a.caller ∉ r.holders.map (·.1)) (hphase : a.phase = .opening)
    (hpool : r.pool.Settled ((r.endAcquisition a.caller).openings + 1) r.leases) :
    (r.await a).Sound := by
  have hopenings : (r.await a).openings = (r.endAcquisition a.caller).openings + 1 := by
    have hone : [a].countP isOpening = 1 := by simp [isOpening, hphase]
    simp only [openings, await, endAcquisition, List.countP_append, hone]
    omega
  have hcaller : a.caller ∉ (r.endAcquisition a.caller).callers :=
    notMem_callers_endAcquisition hfree
  exact ⟨h.begin_opening hcaller hphase, hopenings ▸ hpool⟩

/-- A place is reserved for an acquisition that opens a connection. -/
theorem Sound.settled_opening (h : r.Sound) (ha : a ∈ r.acquisitions)
    (hphase : a.phase = .opening) :
    r.pool.Settled ((r.endAcquisition a.caller).openings + 1) r.leases := by
  rw [← openings_finish_opening h.toAttended ha hphase]
  exact h.settled

/-- An acquisition that opens a connection may be given up. -/
theorem Sound.cancel_opening (h : r.Sound) (ha : a ∈ r.acquisitions)
    (hphase : a.phase = .opening) :
    (({ r with pool := r.pool.dropReservation } : PoolRun κ).endAcquisition a.caller).Sound :=
  ⟨(h.finish_opening ha hphase).serves (Pool.dropReservation_serves _),
    (h.settled_opening ha hphase).dropReservation⟩

/-- Picking up what was handed over. -/
theorem Sound.pickUp (h : r.Sound) {ticket : Nat} {d : Delivery κ}
    (hd : r.pool.inbox.lookup ticket = some d) :
    ({ r.pool with inbox := r.pool.inbox.filter (·.1 ≠ ticket) } : Pool κ).Settled
      (r.openings + d.isRoom.toNat) (d.lease?.toList ++ r.leases) := by
  obtain ⟨pre, post, hsplit, hrest⟩ := Pool.exists_handed h.distinct hd
  rw [hrest]
  exact ⟨h.settled.pickUp hsplit, h.settled.full⟩

/-- An acquisition that looks for what it was handed. -/
theorem Sound.collectFor (h : r.Sound) (ha : a ∈ r.acquisitions) {ticket : Nat}
    (hphase : a.phase = .queued ticket) {now : Nat} {o : PoolRun κ × PoolOutcome κ}
    (ho : r.collectFor now a ticket = some o) : o.1.Sound := by
  have hopenings := openings_finish_queued h.toAttended ha hphase
  obtain ⟨d, hd, rfl⟩ := exists_of_collectFor ho
  have hpool := h.pickUp hd
  have hfinish := h.finish_handed ha hphase hd
  have hfree := h.notMem_holders ha
  rw [hopenings] at hpool
  cases d with
  | connection l => exact grant_sound hfinish hfree hpool now
  | room => exact await_sound hfinish hfree rfl hpool
  | closed => exact ⟨hfinish, hpool⟩

theorem Sound.abandon (h : r.Sound) (now caller : Nat) : (r.abandon now caller).Sound := by
  unfold PoolRun.abandon
  split
  · exact h
  · rename_i a hfound
    obtain ⟨ha, rfl⟩ := mem_of_acquisition? hfound
    dsimp only
    split
    · rename_i hphase
      exact h.cancel_opening ha hphase
    · rename_i ticket hphase
      have hopenings := openings_finish_queued h.toAttended ha hphase
      split
      · rename_i d hd
        have hpool := h.pickUp hd
        rw [hopenings] at hpool
        exact ⟨(h.finish_handed ha hphase hd).serves (Pool.reclaim_serves _ now d),
          hpool.reclaim now⟩
      · rename_i hd
        have hpool := h.settled.leave ticket r.pool.meters
        rw [hopenings] at hpool
        exact ⟨h.finish_queued ha hphase hd r.pool.meters, hpool⟩

theorem Sound.collect (h : r.Sound) (now caller : Nat) : (r.collect now caller).1.Sound := by
  unfold PoolRun.collect
  split
  · rename_i a hfound
    obtain ⟨ha, -⟩ := mem_of_acquisition? hfound
    split
    · rename_i ticket hphase
      cases ho : r.collectFor now a ticket with
      | none => exact h
      | some o => exact h.collectFor ha hphase ho
    · exact h
  · exact h

theorem Sound.expire (h : r.Sound) (now caller : Nat) : (r.expire now caller).1.Sound := by
  unfold PoolRun.expire
  split
  · rename_i a hfound
    obtain ⟨ha, rfl⟩ := mem_of_acquisition? hfound
    split
    · rename_i ticket hphase
      split
      · rename_i o ho
        exact h.collectFor ha hphase ho
      · rename_i hnone
        have hd := lookup_of_collectFor hnone
        have hpool := h.settled.leave ticket
          { r.pool.meters with timeouts := r.pool.meters.timeouts + 1 }
        rw [openings_finish_queued h.toAttended ha hphase] at hpool
        exact ⟨h.finish_queued ha hphase hd _, hpool⟩
    · exact h
  · exact h

theorem Sound.opened (h : r.Sound) (now caller : Nat) (result : Except RoutingError κ) :
    (r.opened now caller result).1.Sound := by
  unfold PoolRun.opened
  split
  · rename_i a hfound
    obtain ⟨ha, rfl⟩ := mem_of_acquisition? hfound
    split
    · rename_i connection hphase
      have hpool := h.settled_opening ha hphase
      have hfinish := h.finish_opening ha hphase
      have hserved := Pool.commitLeased_serves r.pool now a.baseUrl connection
      rcases hpool.commitLeased now a.baseUrl connection with
        ⟨q, l, hcommit, -, hq⟩ | ⟨q, hcommit, hq⟩
      · rw [hcommit] at hserved ⊢
        have hattended := hfinish.serves (q := q) hserved
        exact grant_sound (r := { r with pool := q }) hattended (h.notMem_holders ha) hq now
      · rw [hcommit] at hserved ⊢
        exact ⟨hfinish.serves hserved, hq⟩
    · rename_i e hphase
      exact h.cancel_opening ha hphase
    · exact h
  · exact h

/-- The leases apart from that of a caller. -/
theorem Sound.exists_held (h : r.Sound) {caller : Nat} {l : Lease κ}
    (hl : r.lease? caller = some l) :
    (l :: ({ r with holders := r.holders.filter (·.1 ≠ caller) } : PoolRun κ).leases).Perm
      r.leases := by
  obtain ⟨-, hn, -⟩ := List.nodup_append.mp h.callers
  have hperm := Keyed.perm_cons_filter hn (Keyed.mem_of_lookup hl)
  exact (hperm.map Prod.snd).symm

theorem Sound.release (h : r.Sound) (now caller : Nat) : (r.release now caller).Sound := by
  unfold PoolRun.release
  split
  · exact h
  · rename_i l hl
    have hperm := (h.exists_held hl).symm
    have hpool : r.pool.Settled r.openings _ := ⟨h.settled.perm hperm, h.settled.full⟩
    exact ⟨(h.unhold caller).serves (Pool.release_serves _ now l.id), hpool.release now⟩

theorem Sound.flag (h : r.Sound) (caller : Nat) : (r.flag caller).Sound := by
  unfold PoolRun.flag
  split
  · exact h
  · rename_i l hl
    have hheld : l ∈ r.leases := List.mem_map_of_mem (Keyed.mem_of_lookup hl)
    have hserved : r.pool.Serves (r.pool.markUnhealthy l.id) := Pool.Serves.same rfl
    exact ⟨h.serves hserved, h.settled.markUnhealthy hheld⟩

/-- Ending a sweep that opens a connection. -/
theorem openings_endSweep_opening (h : r.Attended) {id : Nat}
    (hphase : r.sweeps.lookup id = some .opening) :
    r.openings = (r.endSweep id).openings + 1 := by
  have hcount := (Keyed.perm_cons_filter h.sweeps (Keyed.mem_of_lookup hphase)).countP_eq
    (·.2 == .opening)
  rw [List.countP_cons_of_pos (by simp)] at hcount
  simp only [openings, hcount, endSweep]
  omega

/-- Ending a sweep that waits for something else, or none. -/
theorem openings_endSweep (h : r.Attended) {id : Nat}
    (hphase : r.sweeps.lookup id ≠ some .opening) : r.openings = (r.endSweep id).openings := by
  have hcount : r.sweeps.countP (·.2 == .opening) =
      (r.sweeps.filter (·.1 ≠ id)).countP (·.2 == .opening) := by
    rw [List.countP_filter]
    apply List.countP_congr
    intro s hs
    have hne : s.2 = .opening → s.1 ≠ id := by
      intro hopening heq
      obtain ⟨i, phase⟩ := s
      cases hopening
      cases heq
      exact hphase (Keyed.lookup_eq_some h.sweeps hs)
    by_cases hopening : s.2 = .opening
    · simp [hopening, hne hopening]
    · simp [hopening]
  simp only [openings, endSweep, hcount]

/-- A sweep may wait for something. -/
theorem Attended.awaitSweep (h : r.Attended) (id : Nat) (phase : SweepPhase) :
    (r.awaitSweep id phase).Attended := by
  refine h.sweep ?_
  have hn : ((r.sweeps.filter (·.1 ≠ id)).map (·.1)).Nodup :=
    h.sweeps.sublist (List.filter_sublist.map _)
  have hperm : ((r.sweeps.filter (·.1 ≠ id) ++ [(id, phase)]).map (·.1)).Perm
      (id :: (r.sweeps.filter (·.1 ≠ id)).map (·.1)) := by
    simp
  refine hperm.nodup_iff.mpr (List.nodup_cons.mpr ⟨?_, hn⟩)
  intro hin
  obtain ⟨s, hs, heq⟩ := List.mem_map.mp hin
  have hne := (List.mem_filter.mp hs).2
  simp [heq] at hne

theorem Attended.endSweep (h : r.Attended) (id : Nat) : (r.endSweep id).Attended :=
  h.sweep (h.sweeps.sublist (List.filter_sublist.map _))

/-- A place is reserved for a sweep that opens a connection. -/
theorem Sound.settled_warming (h : r.Sound) {id : Nat}
    (hphase : r.sweeps.lookup id = some .opening) :
    r.pool.Settled ((r.endSweep id).openings + 1) r.leases := by
  rw [← openings_endSweep_opening h.toAttended hphase]
  exact h.settled

/-- No place is reserved for a sweep that waits for something else. -/
theorem Sound.settled_endSweep (h : r.Sound) {id : Nat}
    (hphase : r.sweeps.lookup id ≠ some .opening) :
    r.pool.Settled (r.endSweep id).openings r.leases := by
  rw [← openings_endSweep h.toAttended hphase]
  exact h.settled

/-- A sweep that goes on to open a connection. -/
theorem awaitSweep_opening_sound (h : r.Attended) {id : Nat}
    (hpool : r.pool.Settled ((r.endSweep id).openings + 1) r.leases) :
    (r.awaitSweep id .opening).Sound := by
  have hone : [(id, SweepPhase.opening)].countP (·.2 == .opening) = 1 := by simp
  have hopenings : (r.awaitSweep id .opening).openings = (r.endSweep id).openings + 1 := by
    simp only [openings, PoolRun.awaitSweep, PoolRun.endSweep, List.countP_append, hone]
    omega
  exact ⟨h.awaitSweep id .opening, hopenings ▸ hpool⟩

/-- A sweep that goes on to wait for something else. -/
theorem awaitSweep_sound (h : r.Attended) {id : Nat}
    (hpool : r.pool.Settled (r.endSweep id).openings r.leases) {phase : SweepPhase}
    (hphase : phase ≠ .opening) : (r.awaitSweep id phase).Sound := by
  have hnone : [(id, phase)].countP (·.2 == .opening) = 0 := by simp [hphase]
  have hopenings : (r.awaitSweep id phase).openings = (r.endSweep id).openings := by
    simp only [openings, PoolRun.awaitSweep, PoolRun.endSweep, List.countP_append, hnone]
    omega
  exact ⟨h.awaitSweep id phase, hopenings ▸ hpool⟩

/-- A sweep that opens a connection may be given up. -/
theorem Sound.cancel_warming (h : r.Sound) {id : Nat}
    (hphase : r.sweeps.lookup id = some .opening) :
    (({ r with pool := r.pool.dropReservation } : PoolRun κ).endSweep id).Sound :=
  ⟨(h.toAttended.endSweep id).serves (Pool.dropReservation_serves _),
    (h.settled_warming hphase).dropReservation⟩

theorem Sound.fill (h : r.Sound) {id : Nat} (hphase : r.sweeps.lookup id ≠ some .opening) :
    (r.fill id).1.Sound := by
  have hpool := h.settled_endSweep hphase
  unfold PoolRun.fill
  split
  · rename_i q hq
    exact awaitSweep_opening_sound (h.serves (Pool.reserveWarm?_serves hq)) (hpool.reserveWarm? hq)
  · exact ⟨h.toAttended.endSweep id, hpool⟩

theorem Sound.sweep (h : r.Sound) (now id : Nat) : (r.sweep now id).1.Sound := by
  unfold PoolRun.sweep
  split
  · exact h
  · rename_i hnew
    have hphase : r.sweeps.lookup id ≠ some .opening := by
      intro hopening
      rw [hopening] at hnew
      exact hnew rfl
    split
    · exact h
    · rename_i q candidates hq
      exact awaitSweep_sound (h.serves (Pool.beginSweep?_serves hq))
        ((h.settled_endSweep hphase).beginSweep? hq) (by decide)

theorem Sound.probed (h : r.Sound) (id : Nat) (results : List (Nat × Bool)) :
    (r.probed id results).1.Sound := by
  unfold PoolRun.probed
  split
  · rename_i hprobing
    have hphase : r.sweeps.lookup id ≠ some .opening := by simp [hprobing]
    exact awaitSweep_sound (h.serves (Pool.applyProbes_serves _ results))
      ((h.settled_endSweep hphase).applyProbes results) (by decide)
  · exact h

theorem Sound.refill (h : r.Sound) (id : Nat) : (r.refill id).1.Sound := by
  unfold PoolRun.refill
  split
  · rename_i hrefilling
    exact h.fill (by simp [hrefilling])
  · exact h

/-- The opening of a connection for a sweep that ends. -/
theorem Sound.warmed (h : r.Sound) (now id : Nat) (result : Except RoutingError κ) :
    (r.warmed now id result).1.Sound := by
  unfold PoolRun.warmed
  split
  · rename_i connection hphase
    have hserved := Pool.commitIdle_serves r.pool now r.pool.config.defaultBaseUrl connection
    have hcommitted := (h.settled_warming hphase).commitIdle now r.pool.config.defaultBaseUrl
      connection
    split
    · rename_i q hcommit
      rw [hcommit] at hserved hcommitted
      exact awaitSweep_sound (h.serves hserved) hcommitted (by decide)
    · rename_i q hcommit
      rw [hcommit] at hserved hcommitted
      exact ⟨(h.serves hserved).endSweep id, hcommitted⟩
  · rename_i hphase
    exact h.cancel_warming hphase
  · exact h

theorem Sound.abandonSweep (h : r.Sound) (id : Nat) : (r.abandonSweep id).Sound := by
  unfold PoolRun.abandonSweep
  split
  · rename_i hphase
    exact h.cancel_warming hphase
  · rename_i hprobing
    exact ⟨h.toAttended.endSweep id, h.settled_endSweep (by simp [hprobing])⟩
  · exact h

/-- A caller that joins the queue of a full pool without an idle connection. -/
theorem Sound.joinQueue (h : r.Sound) {caller : Nat} (hfree : caller ∉ r.callers)
    (hc : r.pool.closed = false) (hbusy : ∀ s ∈ r.pool.slots, s.inUse = true)
    (hfull : r.pool.size = r.pool.config.maxSize) (now : Nat) (url : String) :
    (r.joinQueue now caller url).1.Sound := by
  let a : Acquisition := ⟨caller, url, now, .queued (r.pool.lastId + 1)⟩
  have hqueued := h.toAttended.begin_queued (a := a) hfree rfl
  have hjoined := (h.settled.join hc hbusy
    (r.pool.waiters ++ [(⟨r.pool.lastId + 1, url⟩ : Waiter)])).age (Nat.le_succ r.pool.lastId)
  have hsame : r.acquisitions.filter (·.caller ≠ caller) = r.acquisitions :=
    congrArg PoolRun.acquisitions (endAcquisition_of_free hfree)
  have hopenings : [a].countP isOpening = 0 := by simp [isOpening, a]
  unfold PoolRun.joinQueue await endAcquisition
  dsimp only
  rw [hsame]
  refine ⟨hqueued, ⟨?_, fun _ => hfull⟩⟩
  simp only [openings, List.countP_append]
  rw [hopenings]
  exact hjoined

/-- A caller that begins to open a connection, in a pool nobody waits for. -/
theorem beginOpening_sound (h : r.Attended) {caller : Nat} (hfree : caller ∉ r.callers)
    (hpool : r.pool.Sound r.openings r.leases) (hwaiters : r.pool.waiters = [])
    (hroom : r.pool.size < r.pool.config.maxSize) (now : Nat) (url : String) :
    (r.beginOpening now caller url).1.Sound := by
  let a : Acquisition := ⟨caller, url, now, .opening⟩
  let q : Pool κ := { r.pool with pending := r.pool.pending + 1 }
  have hserved : r.pool.Serves q :=
    Pool.Serves.same rfl
  have hreserved : q.Settled (r.openings + 1) r.leases :=
    ⟨hpool.reserve hroom, fun hw => absurd hwaiters hw⟩
  have hsame : ({ r with pool := q } : PoolRun κ).endAcquisition caller = { r with pool := q } :=
    endAcquisition_of_free hfree
  refine await_sound (r := { r with pool := q }) (a := a) ?_ ?_ rfl ?_
  · rw [hsame]
    exact h.serves hserved
  · exact fun hin => hfree (List.mem_append_right _ hin)
  · rw [hsame]
    exact hreserved

/-- An acquisition that begins. -/
theorem Sound.acquire (h : r.Sound) (now caller : Nat) (baseUrl : Option String) :
    (r.acquire now caller baseUrl).1.Sound := by
  unfold PoolRun.acquire
  dsimp only
  split
  · exact h
  rename_i hbusy
  split
  · exact h
  rename_i hopen
  have hfree := free_of_isBusy (Bool.eq_false_iff.mpr hbusy)
  have hc : r.pool.closed = false := Bool.eq_false_iff.mpr hopen
  generalize baseUrl.getD r.pool.config.defaultBaseUrl = url
  let q : Pool κ := { r.pool with totalRequests := r.pool.totalRequests + 1 }
  have hcounted : ({ r with pool := q } : PoolRun κ).Sound :=
    ⟨h.serves (Pool.Serves.same rfl),
      h.settled.count _ _ _ _, h.settled.full⟩
  split
  · rename_i s hfor
    obtain ⟨hs, huse, -⟩ := Pool.of_idleFor? hfor
    have hserved : q.Serves (q.checkout now s.id) :=
      Pool.Serves.same rfl
    have hsame : ({ r with pool := q.checkout now s.id } : PoolRun κ).endAcquisition caller =
        { r with pool := q.checkout now s.id } := endAcquisition_of_free hfree
    refine grant_sound (r := { r with pool := q.checkout now s.id })
      (a := ⟨caller, url, now, .opening⟩) ?_ ?_ ?_ now
    · rw [hsame]
      exact hcounted.serves hserved
    · exact fun hin => hfree (List.mem_append_right _ hin)
    · rw [hsame]
      exact hcounted.settled.checkout hs huse now
  · rename_i hfor
    split
    · rename_i hqueue
      have hwaiters : q.waiters ≠ [] := by simpa using hqueue
      exact hcounted.joinQueue hfree hc (hcounted.settled.busy hwaiters)
        (hcounted.settled.full hwaiters) now url
    · rename_i hqueue
      have hwaiters : q.waiters = [] := by simpa using hqueue
      split
      · rename_i hroom
        exact beginOpening_sound hcounted.toAttended hfree hcounted.settled.toSound hwaiters hroom
          now url
      · rename_i hfull
        split
        · rename_i s hother
          obtain ⟨hs, huse⟩ := Pool.of_idleElsewhere? hother
          have hserved : q.Serves (q.evict s.id .rebalance) :=
            Pool.Serves.same rfl
          have hidle : ∀ t ∈ q.slots, t.id = s.id → t.inUse = false := fun t ht heq => by
            have hsame := Keyed.eq_of_mem hcounted.settled.distinct hs ht heq
            exact hsame ▸ huse
          have hsize : (q.evict s.id .rebalance).size + 1 = q.size :=
            Pool.size_evict hcounted.settled.toSound hs .rebalance
          have hfits : q.size ≤ q.config.maxSize := hcounted.settled.fits
          have hroom : (q.evict s.id .rebalance).size < q.config.maxSize := by omega
          exact beginOpening_sound (hcounted.serves hserved) hfree
            (hcounted.settled.evict hidle .rebalance) hwaiters hroom now url
        · rename_i hother
          have hidle := hcounted.settled.busy_of_none hfor hother
          have hfits := hcounted.settled.fits
          exact hcounted.joinQueue hfree hc hidle (Nat.le_antisymm hfits (Nat.le_of_not_lt hfull))
            now url

/-- **Step theorem.**  Every event keeps the books of the pool in agreement with what is under
way. -/
theorem step_sound (h : r.Sound) (now : Nat) (e : PoolEvent κ) : (r.step now e).1.Sound := by
  cases e with
  | acquire caller baseUrl => exact h.acquire now caller baseUrl
  | opened caller result => exact h.opened now caller result
  | collect caller => exact h.collect now caller
  | expire caller => exact h.expire now caller
  | abandon caller => exact h.abandon now caller
  | release caller => exact h.release now caller
  | flag caller => exact h.flag caller
  | sweep id => exact h.sweep now id
  | warm id =>
      simp only [step]
      split
      · exact h
      · rename_i hnew
        apply h.fill
        intro hopening
        rw [hopening] at hnew
        exact hnew rfl
  | probed id results => exact h.probed id results
  | refill id => exact h.refill id
  | warmed id result => exact h.warmed now id result
  | abandonSweep id => exact h.abandonSweep id
  | shutdown => exact ⟨h.serves (Pool.shutdown_serves _), h.settled.shutdown⟩

/-- **Run theorem.**  The books agree with what is under way after any events. -/
theorem run_sound (h : r.Sound) (events : List (Nat × PoolEvent κ)) : (r.run events).Sound := by
  induction events generalizing r with
  | nil => exact h
  | cons e rest ih => exact ih (step_sound h e.1 e.2)

/-- Nothing is under way in a new pool. -/
theorem sound_new {config : PoolConfig} {p : Pool κ} (hp : Pool.new config = .ok p) :
    ({ pool := p } : PoolRun κ).Sound := by
  have hempty : p.tickets = [] := by
    unfold Pool.new at hp
    split at hp
    · cases hp
    · cases hp
      rfl
  refine ⟨⟨List.nodup_nil, List.nodup_nil, ?_, ?_, ?_, ?_⟩, Pool.Settled.new hp⟩
  · rw [hempty]
    exact List.nodup_nil
  · rw [hempty]
    exact .refl _
  · rw [hempty]
    exact fun t ht => absurd ht List.not_mem_nil
  · exact fun a ha => absurd ha List.not_mem_nil

end InferenceRouting.PoolRun
