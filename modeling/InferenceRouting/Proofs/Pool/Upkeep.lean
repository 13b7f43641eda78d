import InferenceRouting.Proofs.Pool.Operations

/-!
# Acquisitions, sweeps and the shutdown in the books

What an acquisition does with an idle connection, what a sweep does with idle connections it looked
at some time ago, and what is left in the books after a shutdown.
-/

namespace InferenceRouting.Pool

variable {κ : Type} {p : Pool κ} {n : Nat} {held : List (Lease κ)} {s : PoolSlot κ}

/-- The slot used longest ago is one of the slots, if there is one. -/
theorem mem_of_leastRecent? {slots : List (PoolSlot κ)} (h : leastRecent? slots = some s) :
    s ∈ slots := by
  induction slots generalizing s with
  | nil => cases h
  | cons t rest ih =>
      simp only [leastRecent?] at h
      split at h
      · cases h
        exact List.mem_cons_self
      · rename_i u hu
        split at h
        · cases h
          exact List.mem_cons_self
        · cases h
          exact List.mem_cons_of_mem _ (ih hu)

theorem leastRecent?_eq_none {slots : List (PoolSlot κ)} (h : leastRecent? slots = none) :
    slots = [] := by
  cases slots with
  | nil => rfl
  | cons t rest =>
      simp only [leastRecent?] at h
      split at h
      · cases h
      · split at h <;> cases h

/-- The connection an acquisition may reuse is idle and leads to the address asked for. -/
theorem of_idleFor? {url : String} (h : p.idleFor? url = some s) :
    s ∈ p.slots ∧ s.inUse = false ∧ s.baseUrl = url := by
  have hs := List.find?_some h
  simp only [Bool.and_eq_true, Bool.not_eq_true', beq_iff_eq] at hs
  exact ⟨List.mem_of_find?_eq_some h, hs.1.1, hs.2⟩

theorem of_idleElsewhere? {url : String} (h : p.idleElsewhere? url = some s) :
    s ∈ p.slots ∧ s.inUse = false := by
  have hs := List.mem_filter.mp (mem_of_leastRecent? h)
  simp only [Bool.and_eq_true, Bool.not_eq_true'] at hs
  exact ⟨hs.1, hs.2.1⟩

/-- When an acquisition finds no idle connection, neither to its address nor to another, there is
none. -/
theorem Sound.busy_of_none (h : p.Sound n held) {url : String} (hfor : p.idleFor? url = none)
    (helse : p.idleElsewhere? url = none) : ∀ s ∈ p.slots, s.inUse = true := by
  intro s hs
  cases huse : s.inUse with
  | true => rfl
  | false =>
      by_cases hurl : s.baseUrl = url
      · have hnone := List.find?_eq_none.mp hfor s hs
        simp [huse, h.healthy s hs huse, hurl] at hnone
      · have hnil := leastRecent?_eq_none helse
        have hmem : s ∈ p.slots.filter fun s => !s.inUse && s.baseUrl != url :=
          List.mem_filter.mpr ⟨hs, by simp [huse, hurl]⟩
        rw [hnil] at hmem
        cases hmem

/-- An idle connection may be taken into use. -/
theorem Settled.checkout (h : p.Settled n held) (hs : s ∈ p.slots) (huse : s.inUse = false)
    (now : Nat) : (p.checkout now s.id).Settled n (lease s :: held) := by
  have hc := h.closed_eq hs
  obtain ⟨pre, post, hslots, hid⟩ := h.exists_split hs
  have hfits := h.fits
  have hrest := (h.toSound.of_slots hslots).takeIdle huse
  have hsize : p.size = ({ p with slots := pre ++ post } : Pool κ).size + 1 := by
    simp only [size, hslots, List.length_append, List.length_cons]
    omega
  have hput := hrest.putLeased (s := { s with inUse := true, lastUsedAt := now }) hc (by omega) hid
    (h.recent s hs) rfl
  have hout : p.checkout now s.id =
      { p with slots := pre ++ { s with inUse := true, lastUsedAt := now } :: post } :=
    setSlot_eq hslots hid _
  rw [hout]
  refine ⟨hput, ?_⟩
  intro hw
  have hfull := h.full hw
  simp only [size, hslots, List.length_append, List.length_cons] at hfull ⊢
  exact hfull

/-- A connection may be closed unless it is in use. -/
theorem Sound.evict (h : p.Sound n held) {id : Nat}
    (hidle : ∀ s ∈ p.slots, s.id = id → s.inUse = false) (reason : EvictionReason) :
    (p.evict id reason).Sound n held := by
  by_cases hin : id ∈ p.slots.map (·.id)
  · obtain ⟨s, hs, rfl⟩ := List.mem_map.mp hin
    obtain ⟨pre, post, hslots, hid⟩ := h.exists_split hs
    rw [evict_eq hslots hid]
    exact ((h.of_slots hslots).takeIdle (hidle s hs rfl)).countEviction reason
  · have hsame : p.evict id reason = p.countEviction reason := by
      unfold Pool.evict removeSlot
      rw [Keyed.filter_ne_of_notMem hin]
    rw [hsame]
    exact h.countEviction reason

/-- Closing an idle connection leaves one place. -/
theorem size_evict (h : p.Sound n held) (hs : s ∈ p.slots) (reason : EvictionReason) :
    (p.evict s.id reason).size + 1 = p.size := by
  obtain ⟨pre, post, hslots, hid⟩ := h.exists_split hs
  rw [evict_eq hslots hid]
  simp only [size, countEviction, hslots, List.length_append, List.length_cons]
  omega

theorem insertByAge_perm (t : PoolSlot κ) (slots : List (PoolSlot κ)) :
    (insertByAge t slots).Perm (t :: slots) := by
  induction slots with
  | nil => exact .refl _
  | cons u rest ih =>
      simp only [insertByAge]
      split
      · exact .refl _
      · exact (ih.cons u).trans (.swap t u rest)

/-- The idle slots ordered by age are the idle slots. -/
theorem idleByAge_perm (p : Pool κ) : p.idleByAge.Perm (p.slots.filter fun s => !s.inUse) := by
  have hfold (idle acc : List (PoolSlot κ)) :
      (idle.foldl (fun acc s => insertByAge s acc) acc).Perm (idle ++ acc) := by
    induction idle generalizing acc with
    | nil => exact .refl _
    | cons t rest ih =>
        have hinsert := (insertByAge_perm t acc).append_left rest
        exact ((ih _).trans hinsert).trans List.perm_middle
  have hall := hfold (p.slots.filter fun s => !s.inUse) []
  rwa [List.append_nil] at hall

theorem of_mem_idleByAge (hs : s ∈ p.idleByAge) : s ∈ p.slots ∧ s.inUse = false := by
  simpa using p.idleByAge_perm.mem_iff.mp hs

/-- Retiring idle connections keeps the books. -/
theorem Sound.retire (h : p.Sound n held) (now : Nat) {idle : List (PoolSlot κ)}
    (hidle : ∀ s ∈ idle, ∀ t ∈ p.slots, t.id = s.id → t.inUse = false) :
    (retire now p idle).1.Sound n held := by
  induction idle generalizing p with
  | nil => exact h
  | cons s rest ih =>
      have hrest : ∀ u ∈ rest, ∀ t ∈ p.slots, t.id = u.id → t.inUse = false :=
        fun u hu => hidle u (List.mem_cons_of_mem _ hu)
      simp only [Pool.retire]
      split
      · refine ih (h.evict (hidle s List.mem_cons_self) .idle) ?_
        intro u hu t ht
        exact hrest u hu t (List.mem_filter.mp ht).1
      · exact ih h hrest

/-- The first part of a sweep keeps the books. -/
theorem Settled.beginSweep? (h : p.Settled n held) {now : Nat} {q : Pool κ}
    {candidates : List (Lease κ)} (hq : p.beginSweep? now = some (q, candidates)) :
    q.Settled n held := by
  unfold Pool.beginSweep? at hq
  split at hq
  · cases hq
  · cases hq
    refine (h.retire now ?_).grantRoom
    intro s hs t ht heq
    obtain ⟨hmem, huse⟩ := of_mem_idleByAge hs
    have hsame := Keyed.eq_of_mem h.distinct hmem ht heq
    exact hsame ▸ huse

/-- The result of a probe keeps the books, however old it is. -/
theorem Sound.applyProbe (h : p.Sound n held) (id : Nat) (alive : Bool) :
    (p.applyProbe id alive).Sound n held := by
  unfold Pool.applyProbe
  split
  · exact h
  · rename_i s hfound
    obtain ⟨hs, rfl⟩ := Keyed.of_find?_eq_some hfound
    obtain ⟨pre, post, hslots, hid⟩ := h.exists_split hs
    have hrest := h.of_slots hslots
    split
    · split
      · exact h
      · rw [setSlot_eq hslots hid]
        exact hrest.modify { s with healthy := true } rfl rfl fun _ => rfl
    · split
      · rename_i huse
        unfold Pool.markUnhealthy
        rw [setSlot_eq hslots hid]
        exact hrest.modify { s with healthy := false } rfl rfl fun hidle =>
          absurd (huse.symm.trans hidle) (by decide)
      · rename_i huse
        refine h.evict ?_ .probeFailed
        intro t ht heq
        have hsame := Keyed.eq_of_mem h.distinct hs ht heq
        exact hsame ▸ Bool.eq_false_iff.mpr huse

/-- The second part of a sweep keeps the books, whatever became of the pool meanwhile. -/
theorem Settled.applyProbes (h : p.Settled n held) (results : List (Nat × Bool)) :
    (p.applyProbes results).Settled n held := by
  have hfold (results : List (Nat × Bool)) (p : Pool κ) (h : p.Sound n held) :
      (results.foldl (fun p r => p.applyProbe r.1 r.2) p).Sound n held := by
    induction results generalizing p with
    | nil => exact h
    | cons r rest ih => exact ih _ (h.applyProbe r.1 r.2)
  exact (hfold results p h.toSound).grantRoom.publish

/-- A reservation for a sweep takes a place nobody waits for. -/
theorem Settled.reserveWarm? (h : p.Settled n held) {q : Pool κ} (hq : p.reserveWarm? = some q) :
    q.Settled (n + 1) held := by
  unfold Pool.reserveWarm? at hq
  split at hq
  · cases hq
  · rename_i hguard
    cases hq
    simp only [Bool.or_eq_true, Bool.not_eq_true', List.isEmpty_eq_false_iff, decide_eq_true_eq,
      not_or, Decidable.not_not] at hguard
    obtain ⟨⟨⟨-, hwaiters⟩, -⟩, hroom⟩ := hguard
    exact ⟨h.reserve (Nat.lt_of_not_le hroom), fun hw => absurd hwaiters hw⟩

/-- After a shutdown only what was reserved or handed over before is left. -/
theorem Settled.shutdown (h : p.Settled n held) : p.shutdown.Settled n held := by
  have hrooms : p.shutdown.rooms = p.rooms := by
    simp [rooms, Pool.shutdown, Pool.publish, Delivery.isRoom, Function.comp_def]
  have hfits := h.fits
  refine ⟨⟨List.nodup_nil, ?_, ?_, ?_, ?_, ?_, ?_, fun _ => ⟨rfl, rfl⟩⟩, ?_⟩
  · intro s hs
    cases hs
  · simp only [size, Pool.shutdown, Pool.publish, List.length_nil] at hfits ⊢
    omega
  · exact h.reserved.trans (by rw [hrooms])
  · intro hc
    cases hc
  · intro s hs
    cases hs
  · intro hw
    exact absurd rfl hw
  · intro hw
    exact absurd rfl hw

theorem Settled.recordWait (h : p.Settled n held) (now started : Nat) :
    (p.recordWait now started).Settled n held :=
  ⟨h.count _ _ _ _, h.full⟩

/-- A pool starts empty, if it has room for one connection and for those it keeps. -/
theorem new_eq_ok {config : PoolConfig} (hmax : 1 ≤ config.maxSize)
    (hmin : config.minSize ≤ config.maxSize) : Pool.new (κ := κ) config = .ok { config } := by
  have hsize : ¬(config.maxSize = 0 ∨ config.maxSize < config.minSize) := by omega
  exact if_neg hsize

/-- A new pool has nothing in its books. -/
theorem Settled.new {config : PoolConfig} (hp : Pool.new config = .ok p) : p.Settled 0 [] := by
  unfold Pool.new at hp
  split at hp
  · cases hp
  · cases hp
    exact ⟨⟨List.nodup_nil, by simp, Nat.zero_le _, rfl, fun _ => .nil, by simp, by simp,
      fun _ => ⟨rfl, rfl⟩⟩, fun hw => absurd rfl hw⟩

/-- A caller may leave the queue, and what it does is counted. -/
theorem Settled.leave (h : p.Settled n held) (ticket : Nat) (meters : PoolMeters) :
    ({ p with waiters := p.waiters.filter (·.id ≠ ticket), meters } : Pool κ).Settled n held :=
  ⟨(h.toSound.leave List.filter_sublist).count meters p.totalRequests p.totalWait p.waitSamples,
    fun hw => h.full fun hnil => hw (by rw [hnil]; rfl)⟩

end InferenceRouting.Pool
