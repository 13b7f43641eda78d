import InferenceRouting.Proofs.Pool.Standing
import InferenceRouting.Proofs.Pool.Turnover

/-!
# Unhealthy connections

A connection may be found unhealthy while it is in use, by the caller that holds it or by a probe
that began while it was idle.  It stays in the pool, flagged, until its owner gives it up, and is
closed then.  Until then it is in use, so it is neither reused nor handed over: who is granted it
had been handed it before it was flagged.  `Withdrawn` says this of a run, from the time at which a
slot is flagged.
-/

namespace InferenceRouting

namespace Pool

variable {κ : Type} {p q : Pool κ} {opened : List (Nat × κ)} {id : Nat}

/-- A flagged slot stays flagged. -/
theorem Turns.keeps_flag (h : p.Turns opened q) (hid : id ≤ p.lastId)
    (hflagged : ∀ s ∈ p.slots, s.id = id → s.Flagged) : ∀ t ∈ q.slots, t.id = id → t.Flagged := by
  intro t ht heq
  rcases h.flagged t ht with hnew | ⟨s, hs, hsame, hkept⟩
  · have hfresh := h.lt_of_mem hnew
    omega
  · exact hkept (hflagged s hs (hsame.trans heq))

/-- No connection is handed over while its slot is flagged. -/
theorem Turns.keeps_handed (h : p.Turns opened q) (hid : id ≤ p.lastId)
    (hflagged : ∀ s ∈ p.slots, s.id = id → s.Flagged) {ticket : Nat} {l : Lease κ}
    (hl : (ticket, Delivery.connection l) ∈ q.inbox) (heq : l.id = id) :
    (ticket, Delivery.connection l) ∈ p.inbox := by
  rcases h.handed ticket l hl with hold | hnew | ⟨s, hs, hsame, hfit⟩
  · exact hold
  · have hfresh := h.lt_of_mem hnew
    omega
  · exact absurd (hflagged s hs (hsame.trans heq)) hfit

/-- A probe takes no slot into use, and none out of it. -/
theorem applyProbe_inUse {i : Nat} {alive : Bool} {t : PoolSlot κ}
    (ht : t ∈ (p.applyProbe i alive).slots) :
    ∃ s ∈ p.slots, s.id = t.id ∧ s.inUse = t.inUse := by
  have hset (healthy : Bool) (ht : t ∈ (p.setSlot i fun s => { s with healthy }).slots) :
      ∃ s ∈ p.slots, s.id = t.id ∧ s.inUse = t.inUse := by
    obtain ⟨s, hs, rfl⟩ := List.mem_map.mp ht
    refine ⟨s, hs, ?_⟩
    split <;> exact ⟨rfl, rfl⟩
  unfold applyProbe at ht
  split at ht
  · exact ⟨t, ht, rfl, rfl⟩
  · split at ht
    · split at ht
      · exact ⟨t, ht, rfl, rfl⟩
      · exact hset true ht
    · split at ht
      · exact hset false ht
      · exact ⟨t, (List.mem_filter.mp ht).1, rfl, rfl⟩

/-- A failed probe flags the slot if it is in use. -/
theorem applyProbe_flagged (huse : ∀ s ∈ p.slots, s.id = id → s.inUse = true) :
    ∀ t ∈ (p.applyProbe id false).slots, t.id = id → t.Flagged := by
  intro t ht heq
  unfold applyProbe at ht
  split at ht
  · rename_i hnone
    have hne := List.find?_eq_none.mp hnone t ht
    simp [heq] at hne
  · rename_i s hfound
    obtain ⟨hs, hid⟩ := Keyed.of_find?_eq_some hfound
    simp only [Bool.false_eq_true, if_false, huse s hs hid, if_true] at ht
    obtain ⟨u, hu, rfl⟩ := List.mem_map.mp ht
    by_cases hu' : u.id = id
    · simp only [hu', if_true] at heq ⊢
      exact ⟨huse u hu hu', rfl⟩
    · rw [if_neg hu'] at heq
      exact absurd heq hu'

/-- The results of the probes flag a slot in use of which one failed. -/
theorem applyProbes_flagged (hn : (p.slots.map (·.id)).Nodup) (hid : id ≤ p.lastId)
    (huse : ∀ s ∈ p.slots, s.id = id → s.inUse = true) {results : List (Nat × Bool)}
    (hfailed : (id, false) ∈ results) :
    ∀ t ∈ (p.applyProbes results).slots, t.id = id → t.Flagged := by
  have hrest (rest : List (Nat × Bool)) (q : Pool κ) (hn : (q.slots.map (·.id)).Nodup)
      (hid : id ≤ q.lastId) (hflagged : ∀ s ∈ q.slots, s.id = id → s.Flagged) :
      ∀ t ∈ (q.applyProbes rest).slots, t.id = id → t.Flagged :=
    (applyProbes_turns hn rest).keeps_flag hid hflagged
  induction results generalizing p with
  | nil => cases hfailed
  | cons result rest ih =>
      have hone := applyProbe_turns hn result.1 result.2
      have hn' := hone.distinct hn
      have hid' := Nat.le_trans hid hone.lastId
      rcases List.mem_cons.mp hfailed with rfl | hlater
      · exact hrest rest _ hn' hid' (applyProbe_flagged huse)
      · refine ih hn' hid' ?_ hlater
        intro t ht heq
        obtain ⟨s, hs, hsame, huse'⟩ := applyProbe_inUse ht
        exact huse' ▸ huse s hs (hsame.trans heq)

/-- Giving back an unhealthy connection closes it. -/
theorem release_of_unhealthy (hn : (p.slots.map (·.id)).Nodup) {s : PoolSlot κ} (hs : s ∈ p.slots)
    (hunhealthy : s.healthy = false) (now : Nat) :
    s.id ∉ (p.release now s.id).slots.map (·.id) ∧
      (p.release now s.id).meters.evicted .unhealthy = p.meters.evicted .unhealthy + 1 := by
  obtain ⟨pre, post, hslots, hne⟩ := Keyed.exists_split hn hs
  have hclosed : p.release now s.id =
      ((p.setSlot s.id fun s => { s with lastUsedAt := now }).evict s.id
        .unhealthy).grantRoom.publish := by
    unfold release
    rw [slot?_eq hslots hne]
    simp [hunhealthy]
  rw [hclosed, grantRoom_eq]
  refine ⟨notMem_evict _ s.id .unhealthy, ?_⟩
  simp [publish, grantTo, evict, countEviction, removeSlot, setSlot]

end Pool

namespace PoolRun

variable {κ : Type} {r s : PoolRun κ} {e : PoolEvent κ} {id now caller : Nat} {l : Lease κ}

/-- With an event the connection of a slot in use is found unhealthy, by the caller that holds it or
by a probe. -/
def Flags (r : PoolRun κ) (e : PoolEvent κ) (id : Nat) : Prop :=
  match e with
  | .flag caller => ∃ l, r.lease? caller = some l ∧ l.id = id
  | .probed sweep results => r.sweeps.lookup sweep = some .probing ∧ (id, false) ∈ results ∧
      ∃ s ∈ r.pool.slots, s.id = id ∧ s.inUse = true
  | _ => False

/-- A lease that is owned is that of a slot in use as long as its owner keeps it. -/
theorem step_keeps (h : r.Sound) (hl : l ∈ r.owners) (hkeeps : ¬r.GivesUp e l)
    (hopen : (r.step now e).1.pool.closed = false) :
    ∃ s ∈ (r.step now e).1.pool.slots, s.inUse = true ∧ Pool.lease s = l :=
  (step_sound h now e).settled.of_owned hopen
    (((step_traced h now e).kept l hl).resolve_right hkeeps)

/-- What is found unhealthy is flagged. -/
theorem step_flags (h : r.Sound) (hflags : r.Flags e id)
    (hopen : (r.step now e).1.pool.closed = false) :
    ∃ s ∈ (r.step now e).1.pool.slots, s.id = id ∧ s.Flagged := by
  have hc := (step_queueStep h.toAttended now e).closed hopen
  cases e with
  | flag caller =>
      obtain ⟨l, hl, rfl⟩ := hflags
      have hheld : l ∈ r.leases := List.mem_map_of_mem (Keyed.mem_of_lookup hl)
      obtain ⟨s, hs, huse, rfl⟩ := h.settled.of_owned hc (List.mem_append_left _ hheld)
      simp only [step, flag, hl]
      exact ⟨{ s with healthy := false }, List.mem_map.mpr ⟨s, hs, if_pos rfl⟩, rfl, huse, rfl⟩
  | probed sweep results =>
      obtain ⟨hprobing, hfailed, s, hs, rfl, huse⟩ := hflags
      have howned : Pool.lease s ∈ r.owners := (h.settled.owned hc).mem_iff.mpr
        (List.mem_map_of_mem (List.mem_filter.mpr ⟨hs, huse⟩))
      obtain ⟨t, ht, -, hlease⟩ := step_keeps (e := .probed sweep results) h howned
        (fun hgives => hgives) hopen
      have hid : t.id = s.id := congrArg Lease.id hlease
      refine ⟨t, ht, hid, ?_⟩
      simp only [step, probed, hprobing] at ht
      refine Pool.applyProbes_flagged h.settled.distinct (h.settled.recent s hs) ?_ hfailed t ht hid
      intro u hu heq
      rw [Keyed.eq_of_mem h.settled.distinct hs hu heq]
      exact huse
  | _ => exact hflags.elim

/-- Who is granted a connection that it receives had been handed it. -/
theorem handed_of_receive {ticket : Nat} {a : Acquisition} {d : Delivery κ}
    (hd : r.pool.inbox.lookup ticket = some d)
    (hl : ((r.pickUp ticket).receive now a d).2 = .granted l) :
    (ticket, Delivery.connection l) ∈ r.pool.inbox := by
  cases d with
  | connection k =>
      cases hl
      exact Keyed.mem_of_lookup hd
  | room => cases hl
  | closed => cases hl

/-- A connection that is granted was idle, has been opened for the caller, or had been handed to
it. -/
theorem granted_from (h : r.Sound) (hc : r.pool.closed = false)
    (hl : (r.step now e).2 = .granted l) :
    (∃ s ∈ r.pool.slots, s.inUse = false ∧ Pool.lease s = l) ∨ l.id = r.pool.lastId + 1 ∨
      ∃ a ∈ r.acquisitions, ∃ ticket, e.caller? = some a.caller ∧ a.phase = .queued ticket ∧
        (ticket, Delivery.connection l) ∈ r.pool.inbox := by
  obtain ⟨caller, hcaller, -⟩ := (step_traced h now e).granted l hl
  cases e with
  | acquire caller baseUrl =>
      simp only [step, acquire] at hl
      split at hl
      · cases hl
      split at hl
      · cases hl
      split at hl
      · rename_i s hfor
        obtain ⟨hs, huse, -⟩ := Pool.of_idleFor? hfor
        cases hl
        exact .inl ⟨s, hs, huse, rfl⟩
      · split at hl
        · cases hl
        · split at hl
          · cases hl
          · split at hl <;> cases hl
  | opened caller result =>
      simp only [step, opened] at hl
      split at hl
      · split at hl
        · simp only [Pool.commitLeased, hc, Bool.false_eq_true, if_false] at hl
          cases hl
          exact .inr (.inl rfl)
        · cases hl
        · cases hl
      · cases hl
  | collect caller =>
      simp only [step] at hl
      rcases r.collect_cases now caller with ⟨-, heq⟩ | ⟨a, ticket, d, hfound, hphase, hd, heq⟩
      · rw [heq] at hl
        cases hl
      · rw [heq] at hl
        obtain ⟨ha, rfl⟩ := mem_of_acquisition? hfound
        exact .inr (.inr ⟨a, ha, ticket, rfl, hphase, handed_of_receive hd hl⟩)
  | expire caller =>
      simp only [step] at hl
      rcases r.expire_cases now caller with
        ⟨-, heq⟩ | ⟨a, ticket, hfound, hphase, ⟨d, hd, heq⟩ | ⟨-, heq⟩⟩
      · rw [heq] at hl
        cases hl
      · rw [heq] at hl
        obtain ⟨ha, rfl⟩ := mem_of_acquisition? hfound
        exact .inr (.inr ⟨a, ha, ticket, rfl, hphase, handed_of_receive hd hl⟩)
      · rw [heq] at hl
        cases hl
  | abandon caller => cases hl
  | release caller => cases hl
  | flag caller => cases hl
  | _ => cases hcaller

/-- Who is left when an acquisition has ended was there before. -/
theorem mem_of_endAcquisition {a : Acquisition} (ha : a ∈ (r.endAcquisition caller).acquisitions) :
    a ∈ r.acquisitions :=
  (List.mem_filter.mp ha).1

/-- Who is there when somebody waits was there before, or is the one who waits. -/
theorem mem_of_await {a b : Acquisition} (ha : a ∈ (r.await b).acquisitions) :
    a ∈ r.acquisitions ∨ a = b := by
  rcases List.mem_append.mp ha with ha | ha
  · exact .inl (mem_of_endAcquisition ha)
  · exact .inr (List.mem_singleton.mp ha)

section

variable {a : Acquisition} {ticket : Nat} (hphase : a.phase = .queued ticket)

include hphase

/-- Who opens a connection does not wait for its turn. -/
theorem await_opening_queued {b : Acquisition} (hb : b.phase = .opening)
    (ha : a ∈ (r.await b).acquisitions) : a ∈ r.acquisitions := by
  rcases mem_of_await ha with ha | rfl
  · exact ha
  · rw [hb] at hphase
    cases hphase

/-- Who receives something waits for its turn no more. -/
theorem receive_queued {b : Acquisition} {t : Nat} {d : Delivery κ}
    (ha : a ∈ ((r.pickUp t).receive now b d).1.acquisitions) : a ∈ r.acquisitions := by
  cases d with
  | connection l => exact mem_of_endAcquisition (r := r.pickUp t) ha
  | room =>
      exact await_opening_queued (r := r.pickUp t) (b := { b with phase := .opening }) hphase rfl ha
  | closed => exact mem_of_endAcquisition (r := r.pickUp t) ha

/-- Who asks for a connection may have to wait, with a new ticket. -/
theorem acquire_queued {baseUrl : Option String}
    (ha : a ∈ (r.acquire now caller baseUrl).1.acquisitions) :
    a ∈ r.acquisitions ∨ r.pool.lastId < ticket := by
  have hjoin {url : String}
      (ha : a ∈ (r.await ⟨caller, url, now, .queued (r.pool.lastId + 1)⟩).acquisitions) :
      a ∈ r.acquisitions ∨ r.pool.lastId < ticket := by
    rcases mem_of_await ha with ha | rfl
    · exact .inl ha
    · cases hphase
      exact .inr (Nat.lt_succ_self _)
  have hopening {url : String} (ha : a ∈ (r.await ⟨caller, url, now, .opening⟩).acquisitions) :
      a ∈ r.acquisitions :=
    await_opening_queued hphase rfl ha
  simp only [acquire] at ha
  split at ha
  · exact .inl ha
  split at ha
  · exact .inl ha
  split at ha
  · exact .inl (mem_of_endAcquisition (r := r) ha)
  · split at ha
    · exact hjoin ha
    · split at ha
      · exact .inl (hopening ha)
      · split at ha
        · exact .inl (hopening ha)
        · exact hjoin ha

omit hphase in
/-- Opening a connection ends an acquisition at most. -/
theorem opened_queued {result : Except RoutingError κ}
    (ha : a ∈ (r.opened now caller result).1.acquisitions) : a ∈ r.acquisitions := by
  unfold opened at ha
  split at ha
  · split at ha
    · split at ha <;> exact mem_of_endAcquisition (r := r) ha
    · exact mem_of_endAcquisition (r := r) ha
    · exact ha
  · exact ha

theorem collect_queued (ha : a ∈ (r.collect now caller).1.acquisitions) : a ∈ r.acquisitions := by
  rcases r.collect_cases now caller with ⟨-, heq⟩ | ⟨b, t, d, -, -, -, heq⟩
  · rw [heq] at ha
    exact ha
  · rw [heq] at ha
    exact receive_queued hphase ha

theorem expire_queued (ha : a ∈ (r.expire now caller).1.acquisitions) : a ∈ r.acquisitions := by
  rcases r.expire_cases now caller with ⟨-, heq⟩ | ⟨b, t, -, -, ⟨d, -, heq⟩ | ⟨-, heq⟩⟩
  · rw [heq] at ha
    exact ha
  · rw [heq] at ha
    exact receive_queued hphase ha
  · rw [heq] at ha
    exact mem_of_endAcquisition ha

omit hphase in
/-- Going away ends an acquisition at most. -/
theorem abandon_queued (ha : a ∈ (r.abandon now caller).acquisitions) : a ∈ r.acquisitions := by
  unfold abandon at ha
  split at ha
  · exact ha
  · split at ha
    · exact mem_of_endAcquisition (r := r) ha
    · split at ha <;> exact mem_of_endAcquisition (r := r) ha

/-- Who waits for its turn has done so before, or has got a new ticket. -/
theorem step_queued (ha : a ∈ (r.step now e).1.acquisitions) :
    a ∈ r.acquisitions ∨ r.pool.lastId < ticket := by
  by_cases hcaller : e.caller? = none
  · rw [(r.step_callers now hcaller).1] at ha
    exact .inl ha
  cases e with
  | acquire caller baseUrl => exact acquire_queued hphase ha
  | opened caller result => exact .inl (opened_queued ha)
  | collect caller => exact .inl (collect_queued hphase ha)
  | expire caller => exact .inl (expire_queued hphase ha)
  | abandon caller => exact .inl (abandon_queued ha)
  | release caller =>
      simp only [step, release] at ha
      split at ha <;> exact .inl ha
  | flag caller =>
      simp only [step, flag] at ha
      split at ha <;> exact .inl ha
  | _ => exact absurd rfl hcaller

end

/-- From one state on a slot is flagged while it is in the pool, and what is handed over of it was
so in that state, to somebody that waited then. -/
structure Withdrawn (base r : PoolRun κ) (id : Nat) : Prop where
  flagged : ∀ s ∈ r.pool.slots, s.id = id → s.Flagged
  lastId : base.pool.lastId ≤ r.pool.lastId
  handed : ∀ ticket l, (ticket, Delivery.connection l) ∈ r.pool.inbox → l.id = id →
    (ticket, Delivery.connection l) ∈ base.pool.inbox
  queued : ∀ a ∈ r.acquisitions, ∀ ticket, a.phase = .queued ticket →
    ticket ≤ base.pool.lastId → a ∈ base.acquisitions

namespace Withdrawn

variable {base : PoolRun κ}

/-- A slot is withdrawn when it is flagged. -/
theorem of_flagged (h : base.Sound) {slot : PoolSlot κ} (hslot : slot ∈ base.pool.slots)
    (hflagged : slot.Flagged) : Withdrawn base base slot.id := by
  refine ⟨?_, Nat.le_refl _, fun ticket l hl _ => hl, fun a ha ticket _ _ => ha⟩
  intro s hs hid
  rw [Keyed.eq_of_mem h.settled.distinct hslot hs hid]
  exact hflagged

/-- **Step theorem.**  With no event does a withdrawn slot come back. -/
theorem step (hw : Withdrawn base r id) (h : r.Sound) (hid : id ≤ base.pool.lastId) (now : Nat)
    (e : PoolEvent κ) (hopen : (r.step now e).1.pool.closed = false) :
    Withdrawn base (r.step now e).1 id := by
  have hturns := turns_of_open h now e hopen
  have hid' := Nat.le_trans hid hw.lastId
  refine ⟨hturns.keeps_flag hid' hw.flagged, Nat.le_trans hw.lastId hturns.lastId, ?_, ?_⟩
  · intro ticket l hl heq
    exact hw.handed ticket l (hturns.keeps_handed hid' hw.flagged hl heq) heq
  · intro a ha ticket hphase hticket
    rcases step_queued hphase ha with ha | hnew
    · exact hw.queued a ha ticket hphase hticket
    · exact absurd (Nat.lt_of_le_of_lt hw.lastId hnew) (Nat.not_lt_of_le hticket)

/-- **Run theorem.**  Whatever happens to an open pool, a withdrawn slot does not come back. -/
theorem run (hw : Withdrawn base r id) (h : r.Sound) (hid : id ≤ base.pool.lastId)
    (events : List (Nat × PoolEvent κ)) (hopen : (r.run events).pool.closed = false) :
    Withdrawn base (r.run events) id := by
  induction events generalizing r with
  | nil => exact hw
  | cons e rest ih =>
      have hnext := step_sound h e.1 e.2
      exact ih (hw.step h hid e.1 e.2 (open_of_run hnext rest hopen)) hnext hopen

/-- Who is granted a withdrawn connection had been handed it before it was flagged. -/
theorem granted (hw : Withdrawn base r id) (hbase : base.Sound) (h : r.Sound)
    (hid : id ≤ base.pool.lastId) (hc : r.pool.closed = false)
    (hl : (r.step now e).2 = .granted l) (heq : l.id = id) :
    ∃ a ∈ base.acquisitions, ∃ ticket, e.caller? = some a.caller ∧ a.phase = .queued ticket ∧
      (ticket, Delivery.connection l) ∈ base.pool.inbox := by
  rcases granted_from h hc hl with ⟨s, hs, huse, rfl⟩ | hnew | ⟨a, ha, ticket, he, hphase, hin⟩
  · have hflag := (hw.flagged s hs heq).1
    rw [huse] at hflag
    cases hflag
  · have hlast := hw.lastId
    omega
  · have hold := hw.handed ticket l hin heq
    have hticket : ticket ≤ base.pool.lastId :=
      hbase.recent ticket (List.mem_append_right _ (List.mem_map_of_mem hold))
    exact ⟨a, hw.queued a ha ticket hphase hticket, ticket, he, hphase, hold⟩

/-- When its owner gives it up a withdrawn connection is closed. -/
theorem givenUp (hw : Withdrawn base r id) (h : r.Sound) (hc : r.pool.closed = false)
    (hgives : r.GivesUp e l) (heq : l.id = id) (now : Nat) :
    id ∉ (r.step now e).1.pool.slots.map (·.id) ∧
      (r.step now e).1.pool.meters.evicted .unhealthy =
        r.pool.meters.evicted .unhealthy + 1 := by
  subst heq
  have hclosed (hl : l ∈ r.leases ++ r.pool.handed) (inbox : List (Nat × Delivery κ)) :
      l.id ∉ (({ r.pool with inbox } : Pool κ).release now l.id).slots.map (·.id) ∧
        (({ r.pool with inbox } : Pool κ).release now l.id).meters.evicted .unhealthy =
          r.pool.meters.evicted .unhealthy + 1 := by
    obtain ⟨s, hs, -, rfl⟩ := h.settled.of_owned hc hl
    exact Pool.release_of_unhealthy (p := { r.pool with inbox }) h.settled.distinct hs
      (hw.flagged s hs rfl).2 now
  cases e with
  | release caller =>
      have hl : r.lease? caller = some l := hgives
      have hheld : l ∈ r.leases := List.mem_map_of_mem (Keyed.mem_of_lookup hl)
      simp only [PoolRun.step, PoolRun.release, hl]
      exact hclosed (List.mem_append_left _ hheld) r.pool.inbox
  | abandon caller =>
      obtain ⟨a, ticket, hfound, hphase, hd⟩ := hgives
      have hhanded : l ∈ r.pool.handed :=
        List.mem_filterMap.mpr ⟨_, Keyed.mem_of_lookup hd, rfl⟩
      simp only [PoolRun.step, PoolRun.abandon, hfound, hphase, hd, Pool.reclaim]
      exact hclosed (List.mem_append_right _ hhanded) _
  | _ => exact hgives.elim

end Withdrawn

/-- **Unhealthy connections.**  An idle connection is healthy.  What is found unhealthy while it is
in use is flagged, and as long as the pool is open it stays in use and flagged until its owner gives
it up, which closes it.  Nobody that asks for a connection later is granted it: it may only be
picked up by a caller it had been handed to, and by none if a caller held it already. -/
theorem run_withdraws_unhealthy (config : PoolConfig) (hmax : 1 ≤ config.maxSize)
    (hmin : config.minSize ≤ config.maxSize) :
    ∃ p : Pool κ, Pool.new config = .ok p ∧ ∀ events : List (Nat × PoolEvent κ),
      let r := ({ pool := p } : PoolRun κ).run events
      (∀ s ∈ r.pool.slots, s.inUse = false → s.healthy = true) ∧
        (∀ now e id, r.Flags e id → (r.step now e).1.pool.closed = false →
          ∃ s ∈ (r.step now e).1.pool.slots, s.id = id ∧ s.Flagged) ∧
        ∀ s ∈ r.pool.slots, s.Flagged → ∀ later : List (Nat × PoolEvent κ),
          let t := r.run later
          t.pool.closed = false →
            (∀ u ∈ t.pool.slots, u.id = s.id → u.Flagged) ∧
            (∀ now e l, (t.step now e).2 = .granted l → l.id = s.id →
              (∀ k ∈ r.leases, k.id ≠ s.id) ∧
                ∃ a ∈ r.acquisitions, ∃ ticket, e.caller? = some a.caller ∧
                  a.phase = .queued ticket ∧ (ticket, Delivery.connection l) ∈ r.pool.inbox) ∧
            ∀ now e l, t.GivesUp e l → l.id = s.id →
              s.id ∉ (t.step now e).1.pool.slots.map (·.id) ∧
                (t.step now e).1.pool.meters.evicted .unhealthy =
                  t.pool.meters.evicted .unhealthy + 1 := by
  obtain ⟨p, hp, hrun⟩ := exists_run (κ := κ) config hmax hmin
  refine ⟨p, hp, fun events => ?_⟩
  obtain ⟨h, -⟩ := hrun events
  intro r
  refine ⟨h.settled.healthy, fun now e id hflags hopen => step_flags h hflags hopen, ?_⟩
  intro s hs hflagged later t hopen
  have hlast := h.settled.recent s hs
  have hnext : t.Sound := run_sound h later
  have hw : Withdrawn r t s.id := (Withdrawn.of_flagged h hs hflagged).run h hlast later hopen
  refine ⟨hw.flagged, ?_, fun now e l hgives heq => hw.givenUp hnext hopen hgives heq now⟩
  intro now e l hl heq
  obtain ⟨a, ha, ticket, he, hphase, hin⟩ := hw.granted h hnext hlast hopen hl heq
  refine ⟨?_, a, ha, ticket, he, hphase, hin⟩
  -- a connection that somebody holds is not handed over as well
  intro k hk hsame
  have hn := h.settled.nodup_owned (open_of_run h later hopen)
  rw [List.map_append] at hn
  have hhanded : l ∈ r.pool.handed := List.mem_filterMap.mpr ⟨_, hin, rfl⟩
  exact (List.nodup_append.mp hn).2.2 k.id (List.mem_map_of_mem hk) l.id
    (List.mem_map_of_mem hhanded) (hsame.trans heq.symm)

/-- In a pool of one place a connection that its holder found unhealthy is closed when it is given
back, although another caller waits for one to the same address. -/
theorem run_withdraws_unhealthy_waited_for :
    ∃ p : Pool Unit, Pool.new { maxSize := 1, minSize := 0 } = .ok p ∧
      let r := ({ pool := p } : PoolRun Unit).run
        [(0, .acquire 1 (some "a")), (0, .opened 1 (.ok ())), (1, .flag 1)]
      let t := r.run [(2, .acquire 2 (some "a"))]
      r.pool.slots = [⟨1, "a", (), true, false, 0⟩] ∧ t.pool.waiters = [⟨2, "a"⟩] ∧
        (∀ now e l, (t.step now e).2 = .granted l → l.id ≠ 1) ∧
        1 ∉ (t.step 3 (.release 1)).1.pool.slots.map (·.id) ∧
        (t.step 3 (.release 1)).1.pool.meters.evicted .unhealthy = 1 := by
  obtain ⟨p, hp, hrun⟩ := run_withdraws_unhealthy (κ := Unit) { maxSize := 1, minSize := 0 }
    (by decide) (by decide)
  obtain ⟨-, -, hwithdrawn⟩ := hrun
    [(0, .acquire 1 (some "a")), (0, .opened 1 (.ok ())), (1, .flag 1)]
  cases hp
  obtain ⟨-, hgranted, hgives⟩ := hwithdrawn ⟨1, "a", (), true, false, 0⟩ List.mem_cons_self
    ⟨rfl, rfl⟩ [(2, .acquire 2 (some "a"))] rfl
  refine ⟨_, rfl, rfl, rfl, ?_, hgives 3 (.release 1) ⟨1, "a", ()⟩ rfl rfl⟩
  intro now e l hl heq
  exact (hgranted now e l hl heq).1 ⟨1, "a", ()⟩ List.mem_cons_self rfl

end PoolRun

end InferenceRouting
