import InferenceRouting.Pool.Basic
import InferenceRouting.Proofs.Keyed

/-!
# The books of a pool

Outside the pool are the leases that callers hold and the places reserved for connections being
opened.  `Sound` says how the pool accounts for them: what is held or handed over is what is marked
as in use, and the reservations are what is being opened and the room handed over.

A slot is looked at where it stands: the others are in two lists, before and behind it.  Every
operation is made of a few moves, and each move changes the account in one way.

* `takeIdle` and `takeLeased` take a slot out; `putIdle` and `putLeased` put one in.
* `reserve` and `unreserve` change the number of reservations.
* `hand` hands something over, and `pickUp` takes it from there.
* `leave` and `join` change the queue.
-/

namespace InferenceRouting

namespace Delivery

variable {κ : Type}

/-- The connection handed over, if it is one. -/
def lease? : Delivery κ → Option (Lease κ)
  | .connection l => some l
  | _ => none

/-- Whether it is room that is handed over. -/
def isRoom : Delivery κ → Bool
  | .room => true
  | _ => false

end Delivery

namespace Pool

variable {κ : Type}

/-- The leases of the slots in use. -/
def leased (slots : List (PoolSlot κ)) : List (Lease κ) :=
  (slots.filter (·.inUse)).map lease

/-- The leases handed over and not yet picked up. -/
def handed (p : Pool κ) : List (Lease κ) :=
  p.inbox.filterMap (·.2.lease?)

/-- The number of times room was handed over and not yet picked up. -/
def rooms (p : Pool κ) : Nat :=
  p.inbox.countP (·.2.isRoom)

/-- The pool accounts for `openings` connections being opened and for the leases in `held`. -/
structure Sound (p : Pool κ) (openings : Nat) (held : List (Lease κ)) : Prop where
  distinct : (p.slots.map (·.id)).Nodup
  recent : ∀ s ∈ p.slots, s.id ≤ p.lastId
  fits : p.size ≤ p.config.maxSize
  reserved : p.pending = openings + p.rooms
  owned : p.closed = false → (held ++ p.handed).Perm (leased p.slots)
  healthy : ∀ s ∈ p.slots, s.inUse = false → s.healthy = true
  busy : p.waiters ≠ [] → ∀ s ∈ p.slots, s.inUse = true
  emptied : p.closed = true → p.slots = [] ∧ p.waiters = []

/-- The books between two steps: nobody waits while there is room. -/
structure Settled (p : Pool κ) (openings : Nat) (held : List (Lease κ)) : Prop
    extends Sound p openings held where
  full : p.waiters ≠ [] → p.size = p.config.maxSize

/-- An idle slot has no lease. -/
theorem leased_idle {s : PoolSlot κ} (hs : s.inUse = false) (pre post : List (PoolSlot κ)) :
    leased (pre ++ s :: post) = leased (pre ++ post) := by
  simp [leased, hs]

/-- A slot in use has one lease. -/
theorem leased_inUse {s : PoolSlot κ} (hs : s.inUse = true) (pre post : List (PoolSlot κ)) :
    (leased (pre ++ s :: post)).Perm (lease s :: leased (pre ++ post)) := by
  have hsplit : leased (pre ++ s :: post) = leased pre ++ lease s :: leased post := by
    simp [leased, hs]
  have hrest : leased (pre ++ post) = leased pre ++ leased post := by
    simp [leased]
  rw [hsplit, hrest]
  exact List.perm_middle

namespace Sound

variable {p : Pool κ} {n : Nat} {held : List (Lease κ)} {pre post : List (PoolSlot κ)}
  {s : PoolSlot κ} {l : Lease κ}

/-- Counting what happens changes nothing in the books. -/
theorem count (h : p.Sound n held) (meters : PoolMeters) (requests wait samples : Nat) :
    ({ p with
      meters
      totalRequests := requests
      totalWait := wait
      waitSamples := samples } : Pool κ).Sound n held :=
  ⟨h.distinct, h.recent, h.fits, h.reserved, h.owned, h.healthy, h.busy, h.emptied⟩

theorem perm (h : p.Sound n held) {held' : List (Lease κ)} (hperm : held.Perm held') :
    p.Sound n held' :=
  ⟨h.distinct, h.recent, h.fits, h.reserved,
    fun hc => (hperm.symm.append_right _).trans (h.owned hc), h.healthy, h.busy, h.emptied⟩

/-- A lease that is held or handed over is that of a slot in use. -/
theorem of_owned (h : p.Sound n held) (hc : p.closed = false) (hl : l ∈ held ++ p.handed) :
    ∃ s ∈ p.slots, s.inUse = true ∧ lease s = l := by
  have hleased : l ∈ leased p.slots := (h.owned hc).mem_iff.mp hl
  obtain ⟨s, hs, rfl⟩ := List.mem_map.mp hleased
  exact ⟨s, (List.mem_filter.mp hs).1, (List.mem_filter.mp hs).2, rfl⟩

/-- No slot is owned twice. -/
theorem nodup_owned (h : p.Sound n held) (hc : p.closed = false) :
    ((held ++ p.handed).map (·.id)).Nodup := by
  have hids : ((leased p.slots).map (·.id)).Sublist (p.slots.map (·.id)) := by
    unfold leased
    rw [List.map_map]
    exact List.filter_sublist.map _
  exact ((h.owned hc).map _).nodup_iff.mpr (h.distinct.sublist hids)

/-- A pool with a slot is open. -/
theorem closed_eq (h : p.Sound n held) (hs : s ∈ p.slots) : p.closed = false := by
  cases hc : p.closed with
  | false => rfl
  | true =>
      have := (h.emptied hc).1
      rw [this] at hs
      cases hs

theorem exists_split (h : p.Sound n held) (hs : s ∈ p.slots) :
    ∃ pre post, p.slots = pre ++ s :: post ∧ ∀ t ∈ pre ++ post, t.id ≠ s.id :=
  Keyed.exists_split h.distinct hs

/-- Without one of its slots the pool keeps the books of the others. -/
theorem drop (h : ({ p with slots := pre ++ s :: post } : Pool κ).Sound n held)
    {held' : List (Lease κ)}
    (howned : p.closed = false → (held' ++ p.handed).Perm (leased (pre ++ post))) :
    ({ p with slots := pre ++ post } : Pool κ).Sound n held' := by
  have hsub : (pre ++ post).Sublist (pre ++ s :: post) :=
    (List.sublist_cons_self s post).append_left pre
  refine ⟨h.distinct.sublist (hsub.map _), ?_, ?_, h.reserved, howned, ?_, ?_, ?_⟩
  · intro t ht
    exact h.recent t (hsub.subset ht)
  · have hfits := h.fits
    have hlength := hsub.length_le
    simp only [size] at hfits ⊢
    omega
  · intro t ht
    exact h.healthy t (hsub.subset ht)
  · intro hw t ht
    exact h.busy hw t (hsub.subset ht)
  · intro hc
    have hempty := (h.emptied hc).1
    simp at hempty

/-- Taking out an idle slot leaves the leases. -/
theorem takeIdle (h : ({ p with slots := pre ++ s :: post } : Pool κ).Sound n held)
    (hs : s.inUse = false) : ({ p with slots := pre ++ post } : Pool κ).Sound n held :=
  h.drop fun hc => leased_idle hs pre post ▸ h.owned hc

/-- Taking out a slot in use takes its lease with it. -/
theorem takeLeased
    (h : ({ p with slots := pre ++ s :: post } : Pool κ).Sound n (lease s :: held))
    (hs : s.inUse = true) : ({ p with slots := pre ++ post } : Pool κ).Sound n held :=
  h.drop fun hc => ((h.owned hc).trans (leased_inUse hs pre post)).cons_inv

/-- A slot that is put in a pool has an id of its own. -/
theorem put (h : ({ p with slots := pre ++ post } : Pool κ).Sound n held)
    (hc : p.closed = false)
    (hroom : ({ p with slots := pre ++ post } : Pool κ).size < p.config.maxSize)
    (hid : ∀ t ∈ pre ++ post, t.id ≠ s.id) (hlast : s.id ≤ p.lastId)
    {held' : List (Lease κ)}
    (howned : (held' ++ p.handed).Perm (leased (pre ++ s :: post)))
    (hhealthy : s.inUse = false → s.healthy = true)
    (hbusy : p.waiters ≠ [] → s.inUse = true) :
    ({ p with slots := pre ++ s :: post } : Pool κ).Sound n held' := by
  have hmem {t : PoolSlot κ} (ht : t ∈ pre ++ s :: post) : t = s ∨ t ∈ pre ++ post := by
    simpa [or_left_comm] using ht
  refine ⟨?_, ?_, ?_, h.reserved, fun _ => howned, ?_, ?_, ?_⟩
  · have hperm : ((pre ++ s :: post).map (·.id)).Perm (s.id :: (pre ++ post).map (·.id)) :=
      List.perm_middle.map _
    refine hperm.nodup_iff.mpr (List.nodup_cons.mpr ⟨?_, h.distinct⟩)
    intro hin
    obtain ⟨t, ht, heq⟩ := List.mem_map.mp hin
    exact hid t ht heq
  · intro t ht
    rcases hmem ht with rfl | ht
    · exact hlast
    · exact h.recent t ht
  · simp only [size, List.length_append, List.length_cons] at hroom ⊢
    omega
  · intro t ht
    rcases hmem ht with rfl | ht
    · exact hhealthy
    · exact h.healthy t ht
  · intro hw t ht
    rcases hmem ht with rfl | ht
    · exact hbusy hw
    · exact h.busy hw t ht
  · intro hclosed
    exact absurd (hc.symm.trans hclosed) (by decide)

/-- An idle slot may be put in a pool nobody waits for. -/
theorem putIdle (h : ({ p with slots := pre ++ post } : Pool κ).Sound n held)
    (hc : p.closed = false)
    (hroom : ({ p with slots := pre ++ post } : Pool κ).size < p.config.maxSize)
    (hid : ∀ t ∈ pre ++ post, t.id ≠ s.id) (hlast : s.id ≤ p.lastId)
    (hs : s.inUse = false) (hhealthy : s.healthy = true) (hwaiters : p.waiters = []) :
    ({ p with slots := pre ++ s :: post } : Pool κ).Sound n held :=
  h.put hc hroom hid hlast ((leased_idle hs pre post).symm ▸ h.owned hc) (fun _ => hhealthy)
    (fun hw => absurd hwaiters hw)

/-- A slot in use is put in with its lease. -/
theorem putLeased (h : ({ p with slots := pre ++ post } : Pool κ).Sound n held)
    (hc : p.closed = false)
    (hroom : ({ p with slots := pre ++ post } : Pool κ).size < p.config.maxSize)
    (hid : ∀ t ∈ pre ++ post, t.id ≠ s.id) (hlast : s.id ≤ p.lastId)
    (hs : s.inUse = true) :
    ({ p with slots := pre ++ s :: post } : Pool κ).Sound n (lease s :: held) :=
  h.put hc hroom hid hlast
    (((h.owned hc).cons (lease s)).trans (leased_inUse hs pre post).symm)
    (fun hidle => absurd (hs.symm.trans hidle) (by decide)) (fun _ => hs)

/-- A slot may change, but for what it says of its lease. -/
theorem modify (h : ({ p with slots := pre ++ s :: post } : Pool κ).Sound n held)
    (t : PoolSlot κ) (hlease : lease t = lease s) (huse : t.inUse = s.inUse)
    (hhealthy : t.inUse = false → t.healthy = true) :
    ({ p with slots := pre ++ t :: post } : Pool κ).Sound n held := by
  have hid : t.id = s.id := congrArg Lease.id hlease
  have hids : (pre ++ t :: post).map (·.id) = (pre ++ s :: post).map (·.id) := by simp [hid]
  have hleased : leased (pre ++ t :: post) = leased (pre ++ s :: post) := by
    cases hs : s.inUse <;> simp [leased, huse, hs, hlease]
  have hmem {u : PoolSlot κ} (hu : u ∈ pre ++ t :: post) : u = t ∨ u ∈ pre ++ s :: post := by
    rcases List.mem_append.mp hu with hu | hu
    · exact .inr (List.mem_append_left _ hu)
    · rcases List.mem_cons.mp hu with hu | hu
      · exact .inl hu
      · exact .inr (List.mem_append_right _ (List.mem_cons_of_mem _ hu))
  have hs : s ∈ pre ++ s :: post := List.mem_append_right _ List.mem_cons_self
  refine ⟨hids ▸ h.distinct, ?_, ?_, h.reserved, ?_, ?_, ?_, ?_⟩
  · intro u hu
    rcases hmem hu with rfl | hu
    · exact hid ▸ h.recent s hs
    · exact h.recent u hu
  · have hfits := h.fits
    simp only [size, List.length_append, List.length_cons] at hfits ⊢
    exact hfits
  · intro hc
    exact hleased ▸ h.owned hc
  · intro u hu
    rcases hmem hu with rfl | hu
    · exact hhealthy
    · exact h.healthy u hu
  · intro hw u hu
    rcases hmem hu with rfl | hu
    · exact huse.trans (h.busy hw s hs)
    · exact h.busy hw u hu
  · intro hc
    have hempty := (h.emptied hc).1
    simp at hempty

/-- A reservation takes a place. -/
theorem reserve (h : p.Sound n held) (hroom : p.size < p.config.maxSize) :
    ({ p with pending := p.pending + 1 } : Pool κ).Sound (n + 1) held := by
  refine ⟨h.distinct, h.recent, ?_, ?_, h.owned, h.healthy, h.busy, h.emptied⟩
  · simp only [size] at hroom ⊢
    omega
  · have hreserved := h.reserved
    simp only [rooms] at hreserved ⊢
    omega

/-- A reservation that is given back leaves its place. -/
theorem unreserve (h : p.Sound (n + 1) held) :
    ({ p with pending := p.pending - 1 } : Pool κ).Sound n held := by
  refine ⟨h.distinct, h.recent, ?_, ?_, h.owned, h.healthy, h.busy, h.emptied⟩
  · have hfits := h.fits
    simp only [size] at hfits ⊢
    omega
  · have hreserved := h.reserved
    simp only [rooms] at hreserved ⊢
    omega

/-- Places that were reserved exist. -/
theorem pending_pos (h : p.Sound (n + 1) held) : 0 < p.pending := by
  have hreserved := h.reserved
  omega

/-- What is handed over is no longer held, and room that is handed over is a reservation for which
nothing is being opened yet. -/
theorem hand {d : Delivery κ} (h : p.Sound (n + d.isRoom.toNat) (d.lease?.toList ++ held))
    (w : Waiter) : (p.deliver w d).Sound n held := by
  have hhanded : (p.deliver w d).handed = p.handed ++ d.lease?.toList := by
    cases d <;> simp [handed, Pool.deliver, Delivery.lease?]
  have hrooms : (p.deliver w d).rooms = p.rooms + d.isRoom.toNat := by
    cases d <;> simp [rooms, Pool.deliver, Delivery.isRoom]
  refine ⟨h.distinct, h.recent, h.fits, ?_, ?_, h.healthy, h.busy, h.emptied⟩
  · have hreserved := h.reserved
    have hpending : (p.deliver w d).pending = p.pending := rfl
    omega
  · intro hc
    rw [hhanded, ← List.append_assoc]
    exact List.perm_append_comm.trans (List.append_assoc _ held p.handed ▸ h.owned hc)

/-- What is picked up is held, and for room that is picked up something is being opened. -/
theorem pickUp {ipre ipost : List (Nat × Delivery κ)} {t : Nat} {d : Delivery κ}
    (h : p.Sound n held) (hinbox : p.inbox = ipre ++ (t, d) :: ipost) :
    ({ p with inbox := ipre ++ ipost } : Pool κ).Sound (n + d.isRoom.toNat)
      (d.lease?.toList ++ held) := by
  have hhanded : p.handed.Perm
      (d.lease?.toList ++ ({ p with inbox := ipre ++ ipost } : Pool κ).handed) := by
    have hmiddle : p.inbox.Perm ((t, d) :: (ipre ++ ipost)) := hinbox ▸ List.perm_middle
    have hleases := hmiddle.filterMap (·.2.lease?)
    cases d <;> simpa [handed, Delivery.lease?] using hleases
  have hrooms : p.rooms = ({ p with inbox := ipre ++ ipost } : Pool κ).rooms + d.isRoom.toNat := by
    cases d <;> simp [rooms, hinbox, Delivery.isRoom, Nat.add_assoc]
  refine ⟨h.distinct, h.recent, h.fits, ?_, ?_, h.healthy, h.busy, h.emptied⟩
  · have hreserved := h.reserved
    simp only at hrooms ⊢
    omega
  · intro hc
    have hback : (held ++ (d.lease?.toList ++
        ({ p with inbox := ipre ++ ipost } : Pool κ).handed)).Perm (leased p.slots) :=
      (hhanded.symm.append_left held).trans (h.owned hc)
    rw [← List.append_assoc] at hback
    exact (List.perm_append_comm.append_right _).trans hback

/-- Callers may leave the queue. -/
theorem leave (h : p.Sound n held) {waiters : List Waiter} (hsub : waiters.Sublist p.waiters) :
    ({ p with waiters } : Pool κ).Sound n held := by
  refine ⟨h.distinct, h.recent, h.fits, h.reserved, h.owned, h.healthy, ?_, ?_⟩
  · intro hw
    exact h.busy fun hnil => hw (List.sublist_nil.mp (hnil ▸ hsub))
  · intro hc
    exact ⟨(h.emptied hc).1, List.sublist_nil.mp ((h.emptied hc).2 ▸ hsub)⟩

theorem age (h : p.Sound n held) {lastId : Nat} (hlast : p.lastId ≤ lastId) :
    ({ p with lastId } : Pool κ).Sound n held :=
  ⟨h.distinct, fun s hs => Nat.le_trans (h.recent s hs) hlast, h.fits, h.reserved, h.owned,
    h.healthy, h.busy, h.emptied⟩

/-- A caller may join the queue of an open pool without an idle slot. -/
theorem join (h : p.Sound n held) (hc : p.closed = false) (hbusy : ∀ s ∈ p.slots, s.inUse = true)
    (waiters : List Waiter) : ({ p with waiters } : Pool κ).Sound n held :=
  ⟨h.distinct, h.recent, h.fits, h.reserved, h.owned, h.healthy, fun _ => hbusy,
    fun hclosed => absurd (hc.symm.trans hclosed) (by decide)⟩

end Sound

end Pool

end InferenceRouting
