import InferenceRouting.Proofs.Pool.Conservation

/-!
# Slots by age

A sweep looks at the idle slots by the time of their last use.  Ids are given in order, and what
leaves a pool leaves the order of the others as it is (`run_stock`), so the slots are always in the
order of their ids (`run_ordered`), and of two that were used at the same time the older one comes
first (`idleByAge_before`).

From a list in this order the slots that a sweep retires are the first ones.  Closing one makes room
by one, so that the loop, which looks at the size anew for each slot, ends after as many as there
are expired ones or too many (`retire_eq`).
-/

namespace InferenceRouting

/-- One slot was used before another, or at the same time but has the smaller id. -/
def PoolSlot.Before {κ : Type} (s t : PoolSlot κ) : Prop :=
  s.lastUsedAt < t.lastUsedAt ∨ s.lastUsedAt = t.lastUsedAt ∧ s.id < t.id

namespace PoolRun

variable {κ : Type} {r : PoolRun κ}

/-- What is in an open pool was there before or has come in, in this order. -/
theorem run_stock (h : r.Sound) (events : List (Nat × PoolEvent κ))
    (hopen : (r.run events).pool.closed = false) :
    (r.run events).pool.stock.Sublist (r.pool.stock ++ r.received events) := by
  induction events generalizing r with
  | nil => exact List.sublist_append_left _ _
  | cons e rest ih =>
      have hnext := step_sound h e.1 e.2
      have hturns := turns_of_open h e.1 e.2 (open_of_run hnext rest hopen)
      have hrest := (ih hnext hopen).trans (hturns.stock.append_right _)
      rwa [List.append_assoc] at hrest

/-- The slots of a pool that was new are in the order of their ids. -/
theorem run_ordered (h : r.Sound) (hnew : r.pool.slots = []) (events : List (Nat × PoolEvent κ))
    (hopen : (r.run events).pool.closed = false) :
    ((r.run events).pool.slots.map (·.id)).Pairwise (· < ·) := by
  have hstock := (run_stock h events hopen).map (·.1)
  have hnone : r.pool.stock = [] := by simp [Pool.stock, hnew]
  rw [hnone, List.nil_append, Pool.stock_ids] at hstock
  exact (received_ordered h events hopen).1.sublist hstock

end PoolRun

namespace Pool

variable {κ : Type} {p : Pool κ} {n now : Nat} {held : List (Lease κ)} {s t : PoolSlot κ}

theorem lastUsedAt_le_of_before (h : s.Before t) : s.lastUsedAt ≤ t.lastUsedAt := by
  rcases h with hlt | ⟨heq, -⟩
  · exact Nat.le_of_lt hlt
  · exact Nat.le_of_eq heq

/-- A slot takes its place behind those used at the same time. -/
theorem insertByAge_before {slots : List (PoolSlot κ)} (hage : slots.Pairwise PoolSlot.Before)
    (hid : ∀ t ∈ slots, t.id < s.id) : (insertByAge s slots).Pairwise PoolSlot.Before := by
  induction slots with
  | nil => exact List.pairwise_singleton _ s
  | cons t rest ih =>
      obtain ⟨hfirst, hrest⟩ := List.pairwise_cons.mp hage
      simp only [insertByAge]
      split
      · rename_i hlt
        refine List.pairwise_cons.mpr ⟨fun u hu => .inl ?_, hage⟩
        rcases List.mem_cons.mp hu with rfl | hu
        · exact hlt
        · exact Nat.lt_of_lt_of_le hlt (lastUsedAt_le_of_before (hfirst u hu))
      · rename_i hle
        refine List.pairwise_cons.mpr ⟨fun u hu => ?_, ih hrest fun u hu =>
          hid u (List.mem_cons_of_mem _ hu)⟩
        rcases List.mem_cons.mp ((insertByAge_perm s rest).mem_iff.mp hu) with rfl | hu
        · rcases Nat.eq_or_lt_of_le (Nat.le_of_not_lt hle) with heq | hlt
          · exact .inr ⟨heq, hid t List.mem_cons_self⟩
          · exact .inl hlt
        · exact hfirst u hu

/-- The idle slots are looked at in the order of their last use, ties in the order of the ids. -/
theorem idleByAge_before (hids : (p.slots.map (·.id)).Pairwise (· < ·)) :
    p.idleByAge.Pairwise PoolSlot.Before := by
  have hfold (idle acc : List (PoolSlot κ)) (hidle : idle.Pairwise fun s t => s.id < t.id)
      (hacc : acc.Pairwise PoolSlot.Before) (hlater : ∀ t ∈ acc, ∀ s ∈ idle, t.id < s.id) :
      (idle.foldl (fun acc s => insertByAge s acc) acc).Pairwise PoolSlot.Before := by
    induction idle generalizing acc with
    | nil => exact hacc
    | cons s rest ih =>
        obtain ⟨hfirst, hrest⟩ := List.pairwise_cons.mp hidle
        refine ih _ hrest
          (insertByAge_before hacc fun t ht => hlater t ht s List.mem_cons_self) ?_
        intro t ht u hu
        rcases List.mem_cons.mp ((insertByAge_perm s acc).mem_iff.mp ht) with rfl | ht
        · exact hfirst u hu
        · exact hlater t ht u (List.mem_cons_of_mem _ hu)
  exact hfold _ [] ((List.pairwise_map.mp hids).filter _) .nil fun t ht => absurd ht
    List.not_mem_nil

/-- What was used later has not been unused for longer. -/
theorem isExpired_of_before (h : s.Before t) (ht : p.isExpired now t = true) :
    p.isExpired now s = true := by
  have hle := lastUsedAt_le_of_before h
  simp only [isExpired, decide_eq_true_eq] at ht ⊢
  omega

/-- Closes the connections of the slots with some ids. -/
def closeAll (p : Pool κ) (ids : List Nat) (reason : EvictionReason) : Pool κ :=
  { p with
    slots := p.slots.filter (·.id ∉ ids)
    meters := { p.meters with
      evicted := fun r =>
        if r = reason then p.meters.evicted r + ids.length else p.meters.evicted r } }

@[simp] theorem closeAll_nil (p : Pool κ) (reason : EvictionReason) : p.closeAll [] reason = p := by
  have hslots : p.slots.filter (·.id ∉ []) = p.slots := List.filter_eq_self.mpr fun s _ => by simp
  have hevicted : (fun r => if r = reason then p.meters.evicted r + ([] : List Nat).length
      else p.meters.evicted r) = p.meters.evicted := by
    funext r
    split <;> rfl
  unfold closeAll
  rw [hslots, hevicted]

/-- Closing one connection after another. -/
theorem closeAll_evict (p : Pool κ) (id : Nat) (ids : List Nat) (reason : EvictionReason) :
    (p.evict id reason).closeAll ids reason = p.closeAll (id :: ids) reason := by
  have hslots : (p.slots.filter (·.id ≠ id)).filter (·.id ∉ ids) =
      p.slots.filter (·.id ∉ id :: ids) := by
    rw [List.filter_filter]
    refine List.filter_congr fun s _ => ?_
    simp [Bool.and_comm]
  have hevicted : (fun r => if r = reason then
      (if r = reason then p.meters.evicted r + 1 else p.meters.evicted r) + ids.length
      else if r = reason then p.meters.evicted r + 1 else p.meters.evicted r) =
      fun r => if r = reason then p.meters.evicted r + (id :: ids).length
        else p.meters.evicted r := by
    funext r
    by_cases hr : r = reason
    · simp only [hr, if_pos, List.length_cons]
      omega
    · simp only [hr, if_false]
  simp only [closeAll, evict, removeSlot, countEviction, hslots, hevicted]

/-- Idle slots of a pool, each once. -/
structure AreIdle (p : Pool κ) (idle : List (PoolSlot κ)) : Prop where
  distinct : (idle.map (·.id)).Nodup
  mem : ∀ s ∈ idle, s ∈ p.slots ∧ s.inUse = false

namespace AreIdle

variable {idle rest : List (PoolSlot κ)}

theorem tail (hidle : p.AreIdle (s :: rest)) : p.AreIdle rest :=
  ⟨(List.nodup_cons.mp hidle.distinct).2, fun t ht => hidle.mem t (List.mem_cons_of_mem _ ht)⟩

theorem sublist {part : List (PoolSlot κ)} (hidle : p.AreIdle idle) (hsub : part.Sublist idle) :
    p.AreIdle part :=
  ⟨hidle.distinct.sublist (hsub.map _), fun t ht => hidle.mem t (hsub.subset ht)⟩

/-- The others are still there when the first one is closed. -/
theorem evict (hidle : p.AreIdle (s :: rest)) (reason : EvictionReason) :
    (p.evict s.id reason).AreIdle rest := by
  obtain ⟨hfresh, -⟩ := List.nodup_cons.mp hidle.distinct
  refine ⟨hidle.tail.distinct, fun t ht => ?_⟩
  obtain ⟨hin, huse⟩ := hidle.tail.mem t ht
  have hne : t.id ≠ s.id := fun heq => hfresh (List.mem_map.mpr ⟨t, ht, heq⟩)
  exact ⟨List.mem_filter.mpr ⟨hin, decide_eq_true hne⟩, huse⟩

theorem evict_sound (hidle : p.AreIdle (s :: rest)) (h : p.Sound n held)
    (reason : EvictionReason) : (p.evict s.id reason).Sound n held := by
  obtain ⟨hin, huse⟩ := hidle.mem s List.mem_cons_self
  refine h.evict (fun t ht heq => ?_) reason
  rw [Keyed.eq_of_mem h.distinct hin ht heq]
  exact huse

end AreIdle

theorem areIdle_idleByAge (hn : (p.slots.map (·.id)).Nodup) : p.AreIdle p.idleByAge :=
  ⟨(p.idleByAge_perm.map (·.id)).nodup_iff.mpr (hn.sublist (List.filter_sublist.map _)),
    fun _ hs => of_mem_idleByAge hs⟩

/-- Of some slots, as many as are expired, but not more than there are too many in the pool. -/
def surplus (p : Pool κ) (now : Nat) (idle : List (PoolSlot κ)) : Nat :=
  min (idle.countP (p.isExpired now)) (p.size - p.config.minSize)

/-- Of slots ordered by age a sweep retires the first ones, and probes the others. -/
theorem retire_eq (h : p.Sound n held) (now : Nat) {idle : List (PoolSlot κ)}
    (hidle : p.AreIdle idle) (hage : idle.Pairwise PoolSlot.Before) :
    retire now p idle =
      (p.closeAll ((idle.take (p.surplus now idle)).map (·.id)) .idle,
        (idle.drop (p.surplus now idle)).map lease) := by
  induction idle generalizing p with
  | nil => simp [retire]
  | cons s rest ih =>
      obtain ⟨hfirst, hrest⟩ := List.pairwise_cons.mp hage
      simp only [retire]
      split
      · rename_i hretired
        rw [Bool.and_eq_true, decide_eq_true_eq] at hretired
        obtain ⟨hexpired, htoo⟩ := hretired
        have hsize := size_evict h (hidle.mem s List.mem_cons_self).1 .idle
        have hmore : p.surplus now (s :: rest) =
            (p.evict s.id .idle).surplus now rest + 1 := by
          have hcount : rest.countP ((p.evict s.id .idle).isExpired now) =
              rest.countP (p.isExpired now) := rfl
          have hmin : (p.evict s.id .idle).config.minSize = p.config.minSize := rfl
          simp only [surplus, List.countP_cons_of_pos hexpired, hcount, hmin]
          omega
        rw [ih (hidle.evict_sound h .idle) (hidle.evict .idle) hrest, hmore, List.take_succ_cons,
          List.drop_succ_cons, List.map_cons, closeAll_evict]
      · rename_i hkept
        -- The first one stays: it is not expired, and then none is, or the pool is not too large.
        have hnone : p.surplus now (s :: rest) = 0 ∧ p.surplus now rest = 0 := by
          rw [Bool.and_eq_true, decide_eq_true_eq, not_and] at hkept
          by_cases hexpired : p.isExpired now s = true
          · have hfew := hkept hexpired
            simp only [surplus]
            omega
          · have hlater : rest.countP (p.isExpired now) = 0 :=
              List.countP_eq_zero.mpr fun t ht hlate =>
                hexpired (isExpired_of_before (hfirst t ht) hlate)
            simp [surplus, List.countP_cons_of_neg hexpired, hlater]
        rw [ih h hidle.tail hrest, hnone.1, hnone.2]
        simp

/-- As many are retired as idle slots are expired, but not more than there are too many. -/
theorem length_retired (p : Pool κ) (now : Nat) :
    (p.idleByAge.take (p.surplus now p.idleByAge)).length = min
      (p.slots.countP fun s => !s.inUse && decide (p.config.maxIdle < now - s.lastUsedAt))
      (p.size - p.config.minSize) := by
  have hlength : p.surplus now p.idleByAge ≤ p.idleByAge.length :=
    Nat.le_trans (Nat.min_le_left _ _) List.countP_le_length
  have hexpired : p.idleByAge.countP (p.isExpired now) = p.slots.countP fun s =>
      !s.inUse && decide (p.config.maxIdle < now - s.lastUsedAt) := by
    rw [p.idleByAge_perm.countP_eq, List.countP_filter]
    exact List.countP_congr fun s _ => by rw [Bool.and_comm]; rfl
  rw [List.length_take_of_le hlength, ← hexpired]
  rfl

end Pool

end InferenceRouting
