import InferenceRouting.Credential.Rotation

/-!
# The failure records of a rotation

Every slot has one record, and the active place is that of a slot as long as there are any
(`WellFormed`).  A report about the active slot changes the record at the active place and no other;
a recorded outcome changes the record at the place it names and no other.  Where the active place
moves to does not matter for the records.
-/

namespace InferenceRouting.Credential.Rotation

/-- One record per slot, and the active place is that of a slot if there are any. -/
structure WellFormed (r : Rotation) : Prop where
  records_length : r.records.length = r.slots.length
  active_lt : r.slots ≠ [] → r.active < r.slots.length

/-- A fresh rotation is well formed. -/
theorem wellFormed_new (slots : List Slot) (config : RotationConfig) :
    (new slots config).WellFormed where
  records_length := by simp [new]
  active_lt h := List.length_pos_iff.mpr h

/-- There is no record beyond the slots. -/
theorem record?_eq_none {r : Rotation} (h : r.WellFormed) {i : Nat}
    (hi : r.slots.length ≤ i) : r.record? i = none := by
  have hlen : r.records.length ≤ i := h.records_length ▸ hi
  simp [record?, List.getElem?_eq_none hlen]

/-- Replacing one record changes the record at that place and no other. -/
theorem record?_set (r : Rotation) (i j : Nat) (x : Option FailureRecord) :
    ({ r with records := r.records.set i x } : Rotation).record? j =
      if j = i ∧ i < r.records.length then x else r.record? j := by
  simp only [record?, List.getElem?_set]
  by_cases hij : i = j
  · subst hij
    by_cases hi : i < r.records.length
    · simp [hi]
    · simp [hi]
  · have hji : j ≠ i := Ne.symm hij
    simp [hij, hji]

/-- A success clears the record of the active slot and no other. -/
theorem record?_reportSuccess {r : Rotation} (h : r.WellFormed) (j : Nat) :
    r.reportSuccess.record? j = if j = r.active then none else r.record? j := by
  have hset : r.reportSuccess.record? j =
      if j = r.active ∧ r.active < r.records.length then none else r.record? j :=
    record?_set r r.active j none
  rw [hset]
  by_cases hj : j = r.active
  · subst hj
    by_cases hlt : r.active < r.records.length
    · simp [hlt]
    · have hge : r.slots.length ≤ r.active := by
        rw [← h.records_length]
        omega
      simp [hlt, record?_eq_none h hge]
  · simp [hj]

/-- The rotation when a failure of the active slot has been recorded and nothing else. -/
def failed (r : Rotation) (now : Nat) : Rotation :=
  { r with
    consecutive := r.consecutive + 1
    records := r.records.set r.active (some (failedAgain now (r.record? r.active))) }

/-- What a failure does: it is recorded, and then the active place stays or moves on. -/
theorem reportFailure_cases {r : Rotation} (hs : r.slots ≠ []) (now : Nat) (f : Failure) :
    r.reportFailure now f = (r.failed now, false) ∨
      ∃ meters, r.reportFailure now f =
        ({ r.failed now with
            active := (r.failed now).pickNext now, consecutive := 0, meters }, true) := by
  have hempty : r.slots.isEmpty = false := by simpa using hs
  simp only [reportFailure, hempty, Bool.false_eq_true, if_false]
  split
  · exact .inl rfl
  · split
    · exact .inl rfl
    · exact .inr ⟨_, rfl⟩

theorem record?_failed {r : Rotation} (h : r.WellFormed) (hs : r.slots ≠ []) (now j : Nat) :
    (r.failed now).record? j =
      if j = r.active then some (failedAgain now (r.record? r.active)) else r.record? j := by
  have hlt : r.active < r.records.length := h.records_length ▸ h.active_lt hs
  have hset := record?_set r r.active j (some (failedAgain now (r.record? r.active)))
  simp only [hlt, and_true] at hset
  exact hset

/-- A failure adds to the record of the active slot and leaves the others alone. -/
theorem record?_reportFailure {r : Rotation} (h : r.WellFormed) (hs : r.slots ≠ [])
    (now : Nat) (f : Failure) (j : Nat) :
    (r.reportFailure now f).1.record? j =
      if j = r.active then some (failedAgain now (r.record? r.active)) else r.record? j := by
  rw [← record?_failed h hs now j]
  rcases reportFailure_cases hs now f with heq | ⟨meters, heq⟩
  · rw [heq]
  · rw [heq]
    rfl

/-- A failure without slots changes nothing. -/
theorem reportFailure_of_no_slots {r : Rotation} (hs : r.slots = []) (now : Nat) (f : Failure) :
    (r.reportFailure now f).1 = r := by
  simp [reportFailure, hs]

/-- A recorded outcome changes the record at its own place at most. -/
theorem record?_recordOutcome_of_ne (r : Rotation) (now : Nat) {i j : Nat} (failed : Bool)
    (hj : j ≠ i) : (r.recordOutcome now i failed).record? j = r.record? j := by
  cases failed with
  | true => simpa [recordOutcome, hj] using
      record?_set r i j (some (failedAgain now (r.record? i)))
  | false => simpa [recordOutcome, hj] using record?_set r i j none

/-- One more failure never leaves a record as it was. -/
theorem failedAgain_ne (now : Nat) (record : Option FailureRecord) :
    some (failedAgain now record) ≠ record := by
  cases record with
  | none => simp
  | some f =>
      intro h
      have hcount : f.count + 1 = f.count := congrArg FailureRecord.count (Option.some.inj h)
      omega

/-- The scan visits places of slots only. -/
theorem lt_size_of_mem_scan {r : Rotation} {i : Nat} (h : i ∈ r.scan) : i < r.size := by
  obtain ⟨o, ho, rfl⟩ := List.mem_map.mp h
  have hpos : 0 < r.size := by
    have := List.mem_range.mp ho
    omega
  exact Nat.mod_lt _ hpos

/-- The place whose cooling ends first is one of those looked at. -/
theorem mem_of_earliest? {r : Rotation} {l : List Nat} {i : Nat} (h : r.earliest? l = some i) :
    i ∈ l := by
  induction l generalizing i with
  | nil => simp [earliest?] at h
  | cons k rest ih =>
      simp only [earliest?] at h
      cases hrest : r.earliest? rest with
      | none =>
          have hki : k = i := by simpa [hrest] using h
          exact hki ▸ List.mem_cons_self
      | some j =>
          have hj : j ∈ rest := ih hrest
          have hcases : k = i ∨ j = i := by
            simp only [hrest] at h
            split at h
            · split at h
              · exact Or.inl (Option.some.inj h)
              · exact Or.inr (Option.some.inj h)
            · exact Or.inl (Option.some.inj h)
            · exact Or.inr (Option.some.inj h)
          rcases hcases with rfl | rfl
          · exact List.mem_cons_self
          · exact List.mem_cons_of_mem _ hj

/-- The place to move to is that of a slot. -/
theorem pickNext_lt {r : Rotation} (now : Nat) (h : r.active < r.size) :
    r.pickNext now < r.size := by
  unfold pickNext
  cases hfind : r.scan.find? (fun i => !r.isCooling now i) with
  | some i => exact lt_size_of_mem_scan (List.mem_of_find?_eq_some hfind)
  | none =>
      cases hearly : r.earliest? r.scan with
      | some i => exact lt_size_of_mem_scan (mem_of_earliest? hearly)
      | none => exact h

/-- A success keeps a rotation well formed. -/
theorem WellFormed.reportSuccess {r : Rotation} (h : r.WellFormed) :
    r.reportSuccess.WellFormed where
  records_length := by simpa [Rotation.reportSuccess] using h.records_length
  active_lt := h.active_lt

theorem WellFormed.failed {r : Rotation} (h : r.WellFormed) (now : Nat) :
    (r.failed now).WellFormed where
  records_length := by simpa [Rotation.failed] using h.records_length
  active_lt := h.active_lt

/-- A failure keeps a rotation well formed. -/
theorem WellFormed.reportFailure {r : Rotation} (h : r.WellFormed) (now : Nat) (f : Failure) :
    (r.reportFailure now f).1.WellFormed := by
  by_cases hs : r.slots = []
  · rw [reportFailure_of_no_slots hs]
    exact h
  · have hfailed := h.failed now
    rcases reportFailure_cases hs now f with heq | ⟨meters, heq⟩
    · rw [heq]
      exact hfailed
    · rw [heq]
      exact ⟨hfailed.records_length, fun _ => pickNext_lt now (h.active_lt hs)⟩

/-- A recorded outcome keeps a rotation well formed. -/
theorem WellFormed.recordOutcome {r : Rotation} (h : r.WellFormed) (now i : Nat)
    (failed : Bool) : (r.recordOutcome now i failed).WellFormed := by
  cases failed with
  | true => exact ⟨by simpa [Rotation.recordOutcome] using h.records_length, h.active_lt⟩
  | false => exact ⟨by simpa [Rotation.recordOutcome] using h.records_length, h.active_lt⟩

/-- A failure keeps the slots. -/
@[simp]
theorem slots_reportFailure (r : Rotation) (now : Nat) (f : Failure) :
    (r.reportFailure now f).1.slots = r.slots := by
  by_cases hs : r.slots = []
  · rw [reportFailure_of_no_slots hs]
  · rcases reportFailure_cases hs now f with heq | ⟨meters, heq⟩
    · rw [heq]
      rfl
    · rw [heq]
      rfl

end InferenceRouting.Credential.Rotation
