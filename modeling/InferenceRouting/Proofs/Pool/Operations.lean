import InferenceRouting.Proofs.Pool.Stock
import InferenceRouting.Proofs.Pool.Service

/-!
# What the operations of a pool do to its books

One theorem for each operation: from which books it leads to which (`Settled`).  Where an operation
makes room or frees a connection, the queue is served at once, so that afterwards nobody waits for
what is there.
-/

namespace InferenceRouting.Pool

variable {κ : Type} {p : Pool κ} {n : Nat} {held : List (Lease κ)} {pre post : List (PoolSlot κ)}
  {s : PoolSlot κ}

theorem slot?_eq (hslots : p.slots = pre ++ s :: post) (hid : ∀ t ∈ pre ++ post, t.id ≠ s.id) :
    p.slot? s.id = some s := by
  unfold slot?
  rw [hslots]
  exact Keyed.find?_eq hid

theorem setSlot_eq (hslots : p.slots = pre ++ s :: post) (hid : ∀ t ∈ pre ++ post, t.id ≠ s.id)
    (f : PoolSlot κ → PoolSlot κ) :
    p.setSlot s.id f = { p with slots := pre ++ f s :: post } := by
  unfold setSlot
  rw [hslots, Keyed.map_ite f hid]

/-- There is nothing to change in a pool without slots. -/
theorem setSlot_of_empty (hempty : p.slots = []) (id : Nat) (f : PoolSlot κ → PoolSlot κ) :
    p.setSlot id f = p := by
  cases p
  simp_all [setSlot]

theorem evict_eq (hslots : p.slots = pre ++ s :: post) (hid : ∀ t ∈ pre ++ post, t.id ≠ s.id)
    (reason : EvictionReason) :
    p.evict s.id reason = { p with slots := pre ++ post }.countEviction reason := by
  unfold evict removeSlot
  rw [hslots, Keyed.filter_ne hid]

/-- The books of a pool whose slots are given. -/
theorem Sound.of_slots {slots : List (PoolSlot κ)} (hslots : p.slots = slots)
    (h : p.Sound n held) : ({ p with slots } : Pool κ).Sound n held :=
  hslots ▸ h

theorem Sound.countEviction (h : p.Sound n held) (reason : EvictionReason) :
    (p.countEviction reason).Sound n held :=
  h.count _ _ _ _

theorem Settled.publish (h : p.Settled n held) : p.publish.Settled n held :=
  ⟨h.toSound.count _ _ _ _, h.full⟩

/-- **Giving room away.**  Afterwards nobody waits while there is room. -/
theorem Sound.grantRoom (h : p.Sound n held) : p.grantRoom.Settled n held := by
  have hgo : ∀ (ws : List Waiter) (p : Pool κ), p.waiters = ws → p.Sound n held →
      (grantRoom.go p ws).Sound n held := by
    intro ws
    induction ws with
    | nil => exact fun _ _ h => h
    | cons w rest ih =>
        intro p hw h
        unfold grantRoom.go
        split
        · rename_i hroom
          have hleft := h.leave (hw ▸ List.sublist_cons_self w rest)
          exact ih _ rfl ((hleft.reserve hroom).hand (d := .room) w)
        · exact h
  refine ⟨hgo p.waiters p rfl h, ?_⟩
  intro hw
  have hfits := h.fits
  rw [grantRoom_eq] at hw ⊢
  have hleft : p.grants < p.waiters.length := by
    refine Nat.lt_of_not_le fun hall => hw ?_
    exact List.drop_eq_nil_of_le hall
  simp only [grants] at hleft
  simp only [size, grantTo, grants] at hleft hfits ⊢
  omega

/-- A connection nobody holds is offered: without its slot the books are in order. -/
theorem Sound.offer (h : ({ p with slots := pre ++ post } : Pool κ).Sound n held)
    (hslots : p.slots = pre ++ s :: post) (hid : ∀ t ∈ pre ++ post, t.id ≠ s.id)
    (hc : p.closed = false) (hlast : s.id ≤ p.lastId) (hhealthy : s.healthy = true)
    (hfits : p.size ≤ p.config.maxSize) (hfull : p.waiters ≠ [] → p.size = p.config.maxSize)
    (now : Nat) : (p.offer now s.id).Settled n held := by
  have hsize : p.size = ({ p with slots := pre ++ post } : Pool κ).size + 1 := by
    simp only [size, hslots, List.length_append, List.length_cons]
    omega
  have hroom : ({ p with slots := pre ++ post } : Pool κ).size < p.config.maxSize := by omega
  unfold Pool.offer
  rw [slot?_eq hslots hid]
  dsimp only
  split
  · rename_i hwaiters
    rw [setSlot_eq hslots hid]
    have hidle := h.putIdle (s := { s with inUse := false }) hc hroom hid hlast rfl hhealthy
      hwaiters
    exact ⟨hidle, fun hw => absurd hwaiters hw⟩
  · rename_i w rest hwaiters
    have hleft : ({ p with waiters := rest, slots := pre ++ post } : Pool κ).Sound n held :=
      h.leave (hwaiters ▸ List.sublist_cons_self w rest)
    split
    · have hleased := hleft.putLeased (p := { p with waiters := rest })
        (s := { s with inUse := true, lastUsedAt := now }) hc hroom hid hlast rfl
      have hhanded := hleased.hand (d := .connection (lease s)) w
      have hout : ({ p with waiters := rest } : Pool κ).checkout now s.id =
          { p with
            waiters := rest
            slots := pre ++ { s with inUse := true, lastUsedAt := now } :: post } :=
        setSlot_eq (p := { p with waiters := rest }) hslots hid _
      rw [hout]
      refine ⟨hhanded, fun _ => ?_⟩
      have hfull := hfull (by simp [hwaiters])
      simp only [size, Pool.deliver, hslots, List.length_append, List.length_cons] at hfull ⊢
      exact hfull
    · have hevict : ({ p with waiters := rest } : Pool κ).evict s.id .handoff =
          { p with waiters := rest, slots := pre ++ post }.countEviction .handoff :=
        evict_eq (p := { p with waiters := rest }) hslots hid _
      rw [hevict]
      have hreserved := (hleft.countEviction .handoff).reserve hroom
      exact (hreserved.hand (d := .room) w).grantRoom

/-- A slot in use goes back to the pool. -/
theorem Settled.release {l : Lease κ} (h : p.Settled n (l :: held)) (now : Nat) :
    (p.release now l.id).Settled n held := by
  cases hc : p.closed with
  | true =>
      have hempty := (h.emptied hc).1
      have hnone : p.release now l.id = p := by simp [Pool.release, slot?, hempty]
      rw [hnone]
      exact { h with owned := fun hopen => absurd (hc.symm.trans hopen) (by decide) }
  | false =>
      obtain ⟨s, hs, huse, rfl⟩ := h.of_owned hc (List.mem_append_left _ List.mem_cons_self)
      obtain ⟨pre, post, hslots, hid⟩ := h.exists_split hs
      have hrest := (h.toSound.of_slots hslots).takeLeased huse
      let t : PoolSlot κ := { s with lastUsedAt := now }
      let q : Pool κ := { p with slots := pre ++ t :: post }
      have htouch : p.setSlot s.id (fun s => { s with lastUsedAt := now }) = q :=
        setSlot_eq hslots hid _
      have hsize : q.size = p.size := by
        simp only [size, q, hslots, List.length_append, List.length_cons]
      have hfound : p.slot? (lease s).id = some s := slot?_eq hslots hid
      unfold Pool.release
      rw [hfound]
      dsimp only [lease]
      rw [htouch]
      refine Settled.publish ?_
      split
      · have hevict : q.evict s.id .unhealthy =
            { p with slots := pre ++ post }.countEviction .unhealthy :=
          evict_eq (p := q) (s := t) rfl hid .unhealthy
        rw [hevict]
        exact (hrest.countEviction .unhealthy).grantRoom
      · rename_i hkeep
        have hhealthy : s.healthy = true := by
          simpa [q, hc] using hkeep
        exact Sound.offer (p := q) (s := t) hrest rfl hid hc (h.recent s hs) hhealthy
          (hsize ▸ h.fits) (hsize ▸ h.full) now

theorem Settled.dropReservation (h : p.Settled (n + 1) held) :
    p.dropReservation.Settled n held :=
  h.unreserve.grantRoom

theorem Settled.reclaim {d : Delivery κ}
    (h : p.Settled (n + d.isRoom.toNat) (d.lease?.toList ++ held)) (now : Nat) :
    (p.reclaim now d).Settled n held := by
  cases d with
  | connection l => exact h.release now
  | room => exact h.dropReservation
  | closed => exact h

/-- A slot may change in the pool, but for what it says of its lease. -/
theorem Settled.modify (h : p.Settled n held) (hslots : p.slots = pre ++ s :: post)
    (hid : ∀ t ∈ pre ++ post, t.id ≠ s.id) (f : PoolSlot κ → PoolSlot κ)
    (hlease : lease (f s) = lease s) (huse : (f s).inUse = s.inUse)
    (hhealthy : (f s).inUse = false → (f s).healthy = true) :
    (p.setSlot s.id f).Settled n held := by
  rw [setSlot_eq hslots hid]
  refine ⟨(h.toSound.of_slots hslots).modify (f s) hlease huse hhealthy, ?_⟩
  intro hw
  have hfull := h.full hw
  simp only [size, hslots, List.length_append, List.length_cons] at hfull ⊢
  exact hfull

/-- A connection may be flagged by the one that holds it. -/
theorem Settled.markUnhealthy {l : Lease κ} (h : p.Settled n held) (hl : l ∈ held) :
    (p.markUnhealthy l.id).Settled n held := by
  cases hc : p.closed with
  | true =>
      have hempty := (h.emptied hc).1
      have hnone : p.markUnhealthy l.id = p := setSlot_of_empty hempty _ _
      rw [hnone]
      exact h
  | false =>
      obtain ⟨s, hs, huse, rfl⟩ := h.of_owned hc (List.mem_append_left _ hl)
      obtain ⟨pre, post, hslots, hid⟩ := h.exists_split hs
      exact h.modify hslots hid _ rfl rfl fun hidle => absurd (huse.symm.trans hidle) (by decide)

/-- The pool when an opened connection has come for the place reserved for it, with the id it is to
get. -/
def arrival (p : Pool κ) : Pool κ :=
  { p with
    pending := p.pending - 1
    lastId := p.lastId + 1
    meters := { p.meters with created := p.meters.created + 1 } }

/-- There is room for a connection that has come for a reserved place, under a new id. -/
theorem Settled.arrival (h : p.Settled (n + 1) held) :
    ({ p.arrival with slots := p.slots ++ [] } : Pool κ).Sound n held ∧
      ({ p.arrival with slots := p.slots ++ [] } : Pool κ).size < p.config.maxSize ∧
      (∀ t ∈ p.slots ++ [], t.id ≠ p.lastId + 1) ∧ p.arrival.size + 1 = p.size := by
  have hpending := h.pending_pos
  have hfits := h.fits
  refine ⟨?_, ?_, ?_, ?_⟩
  · have hcounted := h.unreserve.count { p.meters with created := p.meters.created + 1 }
      p.totalRequests p.totalWait p.waitSamples
    exact (hcounted.age (Nat.le_succ _)).of_slots (List.append_nil _).symm
  · simp only [size, Pool.arrival, List.append_nil] at hfits ⊢
    omega
  · intro t ht
    have hrecent := h.recent t (by simpa using ht)
    omega
  · simp only [size, Pool.arrival]
    omega

/-- An opened connection takes the place reserved for it, and the caller it was opened for holds it;
after a shutdown the place is given back. -/
theorem Settled.commitLeased (h : p.Settled (n + 1) held) (now : Nat) (url : String)
    (connection : κ) :
    (∃ q l, p.commitLeased now url connection = (q, .ok l) ∧ l.baseUrl = url ∧
      q.Settled n (l :: held)) ∨
    ∃ q, p.commitLeased now url connection = (q, .error .poolClosed) ∧ q.Settled n held := by
  cases hc : p.closed with
  | true =>
      have hclosed : p.commitLeased now url connection =
          ({ p with
              pending := p.pending - 1
              meters := { p.meters with created := p.meters.created + 1 } },
            .error .poolClosed) := if_pos hc
      exact .inr ⟨_, hclosed, h.unreserve.count _ _ _ _, fun hw => absurd (h.emptied hc).2 hw⟩
  | false =>
      obtain ⟨harrival, hroom, hid, hsize⟩ := h.arrival
      let s : PoolSlot κ := ⟨p.lastId + 1, url, connection, true, true, now⟩
      have hopen : p.commitLeased now url connection =
          (({ p.arrival with slots := p.slots ++ [s] } : Pool κ).publish, .ok (lease s)) :=
        if_neg (by simp [hc])
      have hput := harrival.putLeased (s := s) hc hroom hid (Nat.le_refl _) rfl
      refine .inl ⟨_, _, hopen, rfl, Settled.publish ⟨hput, ?_⟩⟩
      intro hw
      have hfull := h.full hw
      simp only [size, List.length_append, List.length_singleton] at hfull hsize ⊢
      have hslots : p.arrival.slots = p.slots := rfl
      have hconfig : p.arrival.config = p.config := rfl
      rw [hslots] at hsize
      rw [hconfig]
      omega

/-- An opened connection takes the place reserved for it and is offered; after a shutdown the place
is given back. -/
theorem Settled.commitIdle (h : p.Settled (n + 1) held) (now : Nat) (url : String)
    (connection : κ) : (p.commitIdle now url connection).1.Settled n held := by
  cases hc : p.closed with
  | true =>
      have hclosed : p.commitIdle now url connection =
          ({ p with
              pending := p.pending - 1
              meters := { p.meters with created := p.meters.created + 1 } }, false) := if_pos hc
      rw [hclosed]
      exact ⟨h.unreserve.count _ _ _ _, fun hw => absurd (h.emptied hc).2 hw⟩
  | false =>
      obtain ⟨harrival, hroom, hid, hsize⟩ := h.arrival
      let s : PoolSlot κ := ⟨p.lastId + 1, url, connection, false, true, now⟩
      let q : Pool κ := { p.arrival with slots := p.slots ++ [s] }
      have hopen : p.commitIdle now url connection = ((q.offer now s.id).publish, true) :=
        if_neg (by simp [hc])
      have hqsize : q.size = p.size := by
        rw [← hsize]
        simp only [size, q, List.length_append, List.length_singleton]
        have hslots : p.arrival.slots = p.slots := rfl
        rw [hslots]
        omega
      rw [hopen]
      exact Settled.publish (Sound.offer (p := q) harrival rfl hid hc (Nat.le_refl _) rfl
        (hqsize ▸ h.fits) (hqsize ▸ h.full) now)

end InferenceRouting.Pool
