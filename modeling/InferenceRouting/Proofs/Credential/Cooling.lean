import InferenceRouting.Credential.Rotation
import Mathlib.Data.List.MinMax

/-!
# When all slots are cooling

A slot cools until a fixed while after its last failure, and is usable from that instant on.  So if
every slot has failed since its last success, there is one instant before which all are cooling and
from which on one is usable: the first at which a slot's cooling ends (`CoolsUntil`).  The answers
about a whole rotation are read off this instant and the time alone (`ensureAvailable_eq`).
-/

namespace InferenceRouting.Credential.Rotation

variable {r : Rotation} {now reset : Nat}

/-- Every slot has a record, and the first cooling to end does so at `reset`. -/
structure CoolsUntil (r : Rotation) (reset : Nat) : Prop where
  recorded : ∀ i < r.size, ∃ t, r.coolingEnd? i = some t ∧ reset ≤ t
  attained : ∃ i < r.size, r.coolingEnd? i = some reset

theorem isCooling_iff (r : Rotation) (now i : Nat) :
    r.isCooling now i = true ↔ ∃ t, r.coolingEnd? i = some t ∧ now < t := by
  unfold isCooling
  cases r.coolingEnd? i with
  | none => simp
  | some t => simp

/-- The instants at which the slots' cooling ends. -/
theorem mem_coolingEnds {t : Nat} :
    t ∈ (List.range r.size).filterMap r.coolingEnd? ↔ ∃ i < r.size, r.coolingEnd? i = some t := by
  simp [List.mem_filterMap]

/-- All slots are cooling before the first is usable again, and not from then on. -/
theorem CoolsUntil.allCooling (h : r.CoolsUntil reset) (now : Nat) :
    r.allCooling now = decide (now < reset) := by
  obtain ⟨i, hi, hend⟩ := h.attained
  have hsome : r.slots.isEmpty = false := by
    cases hslots : r.slots with
    | nil => simp [size, hslots] at hi
    | cons s rest => rfl
  rw [Rotation.allCooling, hsome, Bool.not_false, Bool.true_and, Bool.eq_iff_iff, List.all_eq_true,
    decide_eq_true_iff]
  constructor
  · intro hall
    obtain ⟨t, ht, hlt⟩ := (r.isCooling_iff now i).mp (hall i (List.mem_range.mpr hi))
    obtain rfl : t = reset := Option.some.inj (ht.symm.trans hend)
    exact hlt
  · intro hlt j hj
    obtain ⟨t, ht, hle⟩ := h.recorded j (List.mem_range.mp hj)
    exact (r.isCooling_iff now j).mpr ⟨t, ht, Nat.lt_of_lt_of_le hlt hle⟩

/-- The first of the instants at which the slots' cooling ends. -/
theorem CoolsUntil.min? (h : r.CoolsUntil reset) :
    ((List.range r.size).filterMap r.coolingEnd?).min? = some reset := by
  refine List.min?_eq_some_iff.mpr ⟨mem_coolingEnds.mpr h.attained, fun t ht => ?_⟩
  obtain ⟨i, hi, hend⟩ := mem_coolingEnds.mp ht
  obtain ⟨t', ht', hle⟩ := h.recorded i hi
  obtain rfl : t = t' := Option.some.inj (hend.symm.trans ht')
  exact hle

theorem CoolsUntil.nextReset?_eq (h : r.CoolsUntil reset) (now : Nat) :
    r.nextReset? now = if now < reset then some reset else none := by
  unfold nextReset?
  rw [h.allCooling now, h.min?]
  by_cases hlt : now < reset
  · simp [hlt]
  · simp [hlt]

/-- A rotation that tells when it is usable again has all its slots cooling until then. -/
theorem coolsUntil_of_nextReset? (h : r.nextReset? now = some reset) : r.CoolsUntil reset := by
  unfold nextReset? at h
  split at h
  · rename_i hall
    simp only [Rotation.allCooling, Bool.and_eq_true, List.all_eq_true] at hall
    obtain ⟨hmem, hleast⟩ := List.min?_eq_some_iff.mp h
    refine ⟨fun i hi => ?_, mem_coolingEnds.mp hmem⟩
    obtain ⟨t, ht, -⟩ := (r.isCooling_iff now i).mp (hall.2 i (List.mem_range.mpr hi))
    exact ⟨t, ht, hleast t (mem_coolingEnds.mpr ⟨i, hi, ht⟩)⟩
  · cases h

/-- **When a rotation is usable.**  It is refused until the first slot is usable again, always with
that instant, and not from then on. -/
theorem CoolsUntil.ensureAvailable_eq (h : r.CoolsUntil reset) (now : Nat) :
    r.ensureAvailable now =
      if now < reset then .error (.allCredentialsCooling reset) else .ok () := by
  unfold ensureAvailable
  rw [h.nextReset?_eq now]
  by_cases hlt : now < reset
  · simp only [if_pos hlt]
  · simp only [if_neg hlt]

theorem exists_coolsUntil {e : RoutingError} (h : r.ensureAvailable now = .error e) :
    ∃ reset, e = .allCredentialsCooling reset ∧ r.CoolsUntil reset := by
  unfold ensureAvailable at h
  cases hreset : r.nextReset? now with
  | none =>
      rw [hreset] at h
      cases h
  | some reset =>
      rw [hreset] at h
      cases h
      exact ⟨reset, rfl, coolsUntil_of_nextReset? hreset⟩

end InferenceRouting.Credential.Rotation
