import InferenceRouting.Credential.History
import InferenceRouting.Proofs.Credential.Records

/-!
# The slots take turns

A failure that moves the active place does not ask for the next slot.  It asks for the first one
that is not cooling, and when all are, for the one whose cooling ends first.  As long as only the
active slot is reported on, that is the next slot all the same: behind the active one, in cyclic
order, the others stand in the order of their last failures, those without a failure in front
(`InTurn`).  So the next slot is clear if any is, and its cooling ends first if none is.

A report keeps this order.  It touches the record of the active slot alone, and when the active
place moves on, the slot that it leaves has just failed and stands at the end.  `run_goes_round`
says what this means for a run: the active place moves by one, and no slot has another turn before
every slot has had one.
-/

namespace InferenceRouting.Credential

/-- Whether an event is a report on the active slot. -/
def RotationEvent.isReport : RotationEvent → Bool
  | .success | .failure _ => true
  | .outcome .. | .select _ => false

namespace Rotation

/-- The place that lies `o` steps behind the active one in cyclic order. -/
def place (r : Rotation) (o : Nat) : Nat :=
  (r.active + o) % r.size

/-- Whether an event moves the active place on. -/
def moves (r : Rotation) (now : Nat) : RotationEvent → Bool
  | .failure f => (r.reportFailure now f).2
  | _ => false

/-- The slots that have a turn in the course of some events, beginning with the active one. -/
def turns (r : Rotation) : List (Nat × RotationEvent) → List Nat
  | [] => [r.active]
  | e :: rest =>
    if r.moves e.1 e.2 then r.active :: (r.apply e.1 e.2).turns rest
    else (r.apply e.1 e.2).turns rest

/-- The slot at `i` has no failure on record, or failed last no later than the one at `j`. -/
def NoLater (r : Rotation) (i j : Nat) : Prop :=
  ∀ f, r.record? i = some f → ∃ g, r.record? j = some g ∧ f.lastAt ≤ g.lastAt

/-- Behind the active slot the others stand in the order of their last failures, none of which is
later than `now`. -/
structure InTurn (r : Rotation) (now : Nat) : Prop where
  wellFormed : r.WellFormed
  past : ∀ i f, r.record? i = some f → f.lastAt ≤ now
  ordered : ∀ o o', 1 ≤ o → o < o' → o' < r.size → r.NoLater (r.place o) (r.place o')

variable {r : Rotation} {last now : Nat}

/-! ## Places in cyclic order -/

theorem place_zero (h : r.WellFormed) : r.place 0 = r.active := by
  unfold place
  by_cases hs : r.slots = []
  · simp [size, hs]
  · exact Nat.mod_eq_of_lt (h.active_lt hs)

theorem place_size (h : r.active < r.size) : r.place r.size = r.active := by
  unfold place
  rw [Nat.add_mod_right, Nat.mod_eq_of_lt h]

/-- One comes back to the active place only after a full round. -/
theorem place_ne_active (h : r.active < r.size) {o : Nat} (hpos : 1 ≤ o) (ho : o < r.size) :
    r.place o ≠ r.active := by
  unfold place
  by_cases hlt : r.active + o < r.size
  · rw [Nat.mod_eq_of_lt hlt]
    omega
  · rw [Nat.mod_eq_sub_mod (by omega), Nat.mod_eq_of_lt (by omega)]
    omega

/-- From the next place on, everything lies one step nearer. -/
theorem place_of_next {q : Rotation} (hsize : q.size = r.size) (hactive : q.active = r.place 1)
    (o : Nat) : q.place o = r.place (o + 1) := by
  unfold place at *
  rw [hsize, hactive, Nat.mod_add_mod]
  congr 1
  omega

/-! ## The choice of the next slot -/

/-- Where one slot is cooling, so is every slot that failed no earlier. -/
theorem NoLater.isCooling {i j : Nat} (h : r.NoLater i j) (hi : r.isCooling now i = true) :
    r.isCooling now j = true := by
  unfold Rotation.isCooling coolingEnd? at hi ⊢
  cases hrecord : r.record? i with
  | none => simp [hrecord] at hi
  | some f =>
      obtain ⟨g, hg, hle⟩ := h f hrecord
      simp only [hrecord, hg, Option.map_some, decide_eq_true_eq] at hi ⊢
      omega

/-- Of slots that failed in their order, the cooling of the first ends first. -/
theorem earliest?_of_noLater {i : Nat} {rest : List Nat} (h : ∀ j ∈ rest, r.NoLater i j) :
    r.earliest? (i :: rest) = some i := by
  simp only [earliest?]
  cases hrest : r.earliest? rest with
  | none => rfl
  | some j =>
      have hij := h j (mem_of_earliest? hrest)
      unfold coolingEnd?
      cases hrecord : r.record? i with
      | none => rfl
      | some f =>
          obtain ⟨g, hg, hle⟩ := hij f hrecord
          simp only [hg, Option.map_some]
          exact if_pos (Nat.add_le_add_right hle _)

/-- If the next slot failed no later than any other, it is the one to move to. -/
theorem pickNext_of_noLater (hsize : 0 < r.size)
    (h : ∀ o, 1 ≤ o → o ≤ r.size → r.NoLater (r.place 1) (r.place o)) (now : Nat) :
    r.pickNext now = r.place 1 := by
  obtain ⟨k, hk⟩ : ∃ k, r.size = k + 1 := ⟨r.size - 1, by omega⟩
  have hscan : r.scan = r.place 1 :: (List.range k).map fun o => r.place (o + 2) := by
    simp only [scan, place, hk, List.range_succ_eq_map, List.map_cons, List.map_map]
    rfl
  have hothers : ∀ j ∈ (List.range k).map fun o => r.place (o + 2), r.NoLater (r.place 1) j := by
    intro j hj
    obtain ⟨o, ho, rfl⟩ := List.mem_map.mp hj
    have hlt := List.mem_range.mp ho
    exact h (o + 2) (by omega) (by omega)
  unfold pickNext
  rw [hscan, earliest?_of_noLater hothers]
  cases hcooling : r.isCooling now (r.place 1) with
  | false => simp [hcooling]
  | true =>
      have hnone : (r.place 1 :: (List.range k).map fun o => r.place (o + 2)).find?
          (fun i => !r.isCooling now i) = none := by
        refine List.find?_eq_none.mpr fun j hj => ?_
        have hj' : r.isCooling now j = true := by
          rcases List.mem_cons.mp hj with rfl | hrest
          · exact hcooling
          · exact (hothers j hrest).isCooling hcooling
        simp [hj']
      rw [hnone]
      rfl

/-! ## Reports -/

theorem InTurn.mono (h : r.InTurn last) (hlast : last ≤ now) : r.InTurn now :=
  ⟨h.wellFormed, fun i f hf => Nat.le_trans (h.past i f hf) hlast, h.ordered⟩

/-- A change of the record of the active slot alone leaves the others in their order. -/
theorem InTurn.report {q : Rotation} (h : r.InTurn last) (hlast : last ≤ now)
    (hq : q.WellFormed) (hslots : q.slots = r.slots) (hactive : q.active = r.active)
    (hothers : ∀ j, j ≠ r.active → q.record? j = r.record? j)
    (hrecord : ∀ f, q.record? r.active = some f → f.lastAt ≤ now) : q.InTurn now := by
  have hsize : q.size = r.size := congrArg List.length hslots
  have hplace : ∀ o, q.place o = r.place o := by
    intro o
    unfold place
    rw [hsize, hactive]
  refine ⟨hq, ?_, ?_⟩
  · intro j f hf
    by_cases hj : j = r.active
    · exact hrecord f (hj ▸ hf)
    · rw [hothers j hj] at hf
      exact Nat.le_trans (h.past j f hf) hlast
  · intro o o' hpos hlt hbound
    rw [hsize] at hbound
    have hs : r.slots ≠ [] := List.length_pos_iff.mp (by unfold size at hbound; omega)
    have hlt_size : r.active < r.size := h.wellFormed.active_lt hs
    have hfirst := hothers _ (place_ne_active hlt_size hpos (by omega))
    have hsecond := hothers _ (place_ne_active hlt_size (by omega) hbound)
    intro f hf
    rw [hplace, hfirst] at hf
    rw [hplace, hsecond]
    exact h.ordered o o' hpos hlt hbound f hf

theorem InTurn.reportSuccess (h : r.InTurn last) (hlast : last ≤ now) :
    r.reportSuccess.InTurn now := by
  have hrecord := record?_reportSuccess h.wellFormed
  refine h.report hlast h.wellFormed.reportSuccess rfl rfl ?_ ?_
  · intro j hj
    rw [hrecord, if_neg hj]
  · intro f hf
    rw [hrecord, if_pos rfl] at hf
    cases hf

theorem InTurn.failed (h : r.InTurn last) (hlast : last ≤ now) (hs : r.slots ≠ []) :
    (r.failed now).InTurn now := by
  have hrecord := record?_failed h.wellFormed hs now
  refine h.report hlast (h.wellFormed.failed now) rfl rfl ?_ ?_
  · intro j hj
    rw [hrecord, if_neg hj]
  · intro f hf
    rw [hrecord, if_pos rfl] at hf
    cases hf
    exact Nat.le_refl now

/-- The slot that has just failed has failed last. -/
theorem InTurn.noLater_failed (h : r.InTurn last) (hlast : last ≤ now) (hs : r.slots ≠ [])
    (i : Nat) : (r.failed now).NoLater i r.active := by
  intro f hf
  refine ⟨_, (record?_failed h.wellFormed hs now r.active).trans (if_pos rfl), ?_⟩
  exact (h.failed hlast hs).past i f hf

/-- When the active slot has failed, the slot to move to is the next one. -/
theorem InTurn.pickNext_failed (h : r.InTurn last) (hlast : last ≤ now) (hs : r.slots ≠ []) :
    (r.failed now).pickNext now = r.place 1 := by
  have hq := h.failed hlast hs
  have hlt : r.active < r.size := h.wellFormed.active_lt hs
  refine pickNext_of_noLater (r := r.failed now) (Nat.zero_lt_of_lt hlt) ?_ now
  intro o hpos hle
  by_cases hend : o = r.size
  · -- a full round leads to the slot that has just failed
    subst hend
    have hround : (r.failed now).place r.size = r.active := place_size (r := r.failed now) hlt
    rw [hround]
    exact h.noLater_failed hlast hs _
  · by_cases hone : o = 1
    · subst hone
      exact fun f hf => ⟨f, hf, Nat.le_refl _⟩
    · exact hq.ordered 1 o (Nat.le_refl 1) (by omega) (Nat.lt_of_le_of_ne hle hend)

/-- When the active place moves on, the slot that it leaves stands at the end. -/
theorem InTurn.moved (h : r.InTurn last) (hlast : last ≤ now) (hs : r.slots ≠ [])
    (meters : RotationMeters) :
    ({ r.failed now with active := r.place 1, consecutive := 0, meters } : Rotation).InTurn
      now := by
  have hq := h.failed hlast hs
  have hlt : r.active < r.size := h.wellFormed.active_lt hs
  have hnext : r.place 1 < r.size := Nat.mod_lt _ (Nat.zero_lt_of_lt hlt)
  have hplace := place_of_next (r := r.failed now)
    (q := { r.failed now with active := r.place 1, consecutive := 0, meters }) rfl rfl
  refine ⟨⟨hq.wellFormed.records_length, fun _ => hnext⟩, hq.past, ?_⟩
  intro o o' hpos hlt' hbound
  rw [hplace, hplace]
  by_cases hend : o' + 1 = r.size
  · have hround : (r.failed now).place r.size = r.active := place_size (r := r.failed now) hlt
    rw [hend, hround]
    exact h.noLater_failed hlast hs _
  · have hbound' : o' < r.size := hbound
    exact hq.ordered (o + 1) (o' + 1) (by omega) (by omega) (show o' + 1 < r.size by omega)

/-- **Step theorem.**  A report keeps the slots in turn.  If it moves the active place, then to the
next slot. -/
theorem InTurn.apply (h : r.InTurn last) (hlast : last ≤ now) {e : RotationEvent}
    (he : e.isReport = true) :
    (r.apply now e).InTurn now ∧ (r.apply now e).slots = r.slots ∧
      (r.apply now e).active = if r.moves now e then r.place 1 else r.active := by
  cases e with
  | success => exact ⟨h.reportSuccess hlast, rfl, rfl⟩
  | failure f =>
      have happly : r.apply now (.failure f) = (r.reportFailure now f).1 := rfl
      have hmoves : r.moves now (.failure f) = (r.reportFailure now f).2 := rfl
      rw [happly, hmoves]
      by_cases hs : r.slots = []
      · have hsame : r.reportFailure now f = (r, false) := by simp [reportFailure, hs]
        rw [hsame]
        exact ⟨h.mono hlast, rfl, rfl⟩
      · rcases reportFailure_cases hs now f with heq | ⟨meters, heq⟩
        · rw [heq]
          exact ⟨h.failed hlast hs, rfl, rfl⟩
        · rw [heq, h.pickNext_failed hlast hs]
          exact ⟨h.moved hlast hs meters, rfl, rfl⟩
  | outcome index failed => cases he
  | select index => cases he

/-- Fresh slots have no failures on record. -/
theorem inTurn_new (slots : List Slot) (config : RotationConfig) : (new slots config).InTurn 0 := by
  have hclear : ∀ i, (new slots config).record? i = none := by
    intro i
    simp only [record?, new, List.getElem?_map]
    cases slots[i]? <;> rfl
  refine ⟨wellFormed_new slots config, ?_, ?_⟩
  · intro i f hf
    rw [hclear] at hf
    cases hf
  · intro o o' _ _ _ f hf
    rw [hclear] at hf
    cases hf

/-! ## Runs -/

/-- **Run theorem.**  Reports keep the slots in turn, and the turns go through the places in cyclic
order. -/
theorem InTurn.run (h : r.InTurn last) (events : List (Nat × RotationEvent))
    (hreports : ∀ e ∈ events, e.2.isReport = true)
    (horder : (last :: (events.map (·.1) ++ [now])).Pairwise (· ≤ ·)) :
    (r.run events).InTurn now ∧ (r.run events).slots = r.slots ∧
      ∃ n, r.turns events = (List.range n).map r.place := by
  induction events generalizing r last with
  | nil =>
      have hlast : last ≤ now := (List.pairwise_cons.mp horder).1 now (by simp)
      refine ⟨h.mono hlast, rfl, 1, ?_⟩
      simp [turns, place_zero h.wellFormed]
  | cons e rest ih =>
      obtain ⟨hlast, horder'⟩ := List.pairwise_cons.mp horder
      obtain ⟨hnext, hslots, hactive⟩ :=
        h.apply (hlast e.1 (by simp)) (hreports e List.mem_cons_self)
      have hsize : (r.apply e.1 e.2).size = r.size := congrArg List.length hslots
      obtain ⟨hend, hslots', n, hturns⟩ :=
        ih hnext (fun e he => hreports e (List.mem_cons_of_mem _ he)) horder'
      refine ⟨hend, hslots'.trans hslots, ?_⟩
      cases hmoves : r.moves e.1 e.2 with
      | true =>
          rw [hmoves, if_pos rfl] at hactive
          have hplace : (r.apply e.1 e.2).place = fun o => r.place (o + 1) :=
            funext (place_of_next hsize hactive)
          refine ⟨n + 1, ?_⟩
          calc r.turns (e :: rest)
              = r.active :: (r.apply e.1 e.2).turns rest := by simp [turns, hmoves]
            _ = r.place 0 :: (List.range n).map fun o => r.place (o + 1) := by
                rw [hturns, hplace, place_zero h.wellFormed]
            _ = (List.range (n + 1)).map r.place := by
                rw [List.range_succ_eq_map, List.map_cons, List.map_map]
                rfl
      | false =>
          rw [hmoves, if_neg (by simp)] at hactive
          have hplace : (r.apply e.1 e.2).place = r.place := by
            funext o
            unfold place
            rw [hsize, hactive]
          refine ⟨n, ?_⟩
          rw [← hplace, ← hturns]
          simp [turns, hmoves]

/-- Going through `n` places in cyclic order, one comes by every place before one comes back. -/
theorem exists_between_of_mod_eq {n i j : Nat} (hlt : i < j) (hsame : i % n = j % n) {slot : Nat}
    (hslot : slot < n) : ∃ k, i ≤ k ∧ k < j ∧ k % n = slot := by
  have hpos : 0 < n := Nat.zero_lt_of_lt hslot
  have hround : n ≤ j - i :=
    Nat.le_of_dvd (by omega) (Nat.dvd_of_mod_eq_zero (Nat.sub_mod_eq_zero_of_mod_eq hsame.symm))
  have hstep : (slot + n - i % n) % n < n := Nat.mod_lt _ hpos
  refine ⟨i + (slot + n - i % n) % n, Nat.le_add_right _ _, by omega, ?_⟩
  have hsplit := Nat.div_add_mod i n
  have hmod := Nat.mod_lt i hpos
  have hsum : i + (slot + n - i % n) = slot + n * (i / n + 1) := by
    rw [Nat.mul_add]
    omega
  rw [Nat.add_mod_mod, hsum, Nat.add_mul_mod_self_left, Nat.mod_eq_of_lt hslot]

/-- **The slots take turns.**  From fresh slots on, as long as nothing but successes and failures
of the active slot is reported, in the order of their times: a failure that moves the active place
moves it to the next slot in cyclic order, and between two turns of a slot every slot has a turn,
whatever cools meanwhile. -/
theorem run_goes_round (slots : List Slot) (config : RotationConfig)
    (events : List (Nat × RotationEvent)) (now : Nat)
    (hreports : ∀ e ∈ events, e.2.isReport = true)
    (horder : (events.map (·.1) ++ [now]).Pairwise (· ≤ ·)) :
    let start := new slots config
    let r := start.run events
    (∀ f, (r.reportFailure now f).2 = true →
      (r.reportFailure now f).1.active = (r.active + 1) % slots.length) ∧
    ∀ i j, i < j → j < (start.turns events).length →
      (start.turns events)[i]? = (start.turns events)[j]? →
      ∀ slot < slots.length, ∃ k, i ≤ k ∧ k < j ∧ (start.turns events)[k]? = some slot := by
  intro start r
  obtain ⟨hturn, hslots, n, hturns⟩ := (inTurn_new slots config).run events hreports
    (List.pairwise_cons.mpr ⟨fun _ _ => Nat.zero_le _, horder⟩)
  refine ⟨?_, ?_⟩
  · intro f hmoves
    have hactive := (hturn.apply (e := .failure f) (Nat.le_refl now) rfl).2.2
    have hnext : (r.reportFailure now f).1.active = r.place 1 := hactive.trans (if_pos hmoves)
    have hsize : r.size = slots.length := congrArg List.length hslots
    rw [hnext, place, hsize]
  · intro i j hlt hj hsame slot hslot
    have hlength : (start.turns events).length = n := by
      rw [hturns, List.length_map, List.length_range]
    have hat : ∀ k, k < n → (start.turns events)[k]? = some (k % slots.length) := by
      intro k hk
      have hplace : start.place k = k % slots.length := by
        simp [start, place, new, size]
      rw [hturns, List.getElem?_map, List.getElem?_range hk, Option.map_some, hplace]
    rw [hlength] at hj
    rw [hat i (by omega), hat j hj] at hsame
    obtain ⟨k, hle, hk, hmod⟩ := exists_between_of_mod_eq hlt (Option.some.inj hsame) hslot
    exact ⟨k, hle, hk, by rw [hat k (by omega), hmod]⟩

/-- Three slots are refused one after the other at the same instant, and all of them are cooling.
The next refusal moves the active place from the first slot to the second, as before, and each slot
has had a turn since the first one had its own. -/
theorem run_goes_round_all_cooling :
    let refused : Failure := ⟨some 429, "slow down"⟩
    let slots : List Slot := List.replicate 3 ⟨⟨"sk"⟩, none, .config, 1⟩
    let events : List (Nat × RotationEvent) :=
      [(0, .failure refused), (0, .failure refused), (0, .failure refused)]
    let start := new slots {}
    let r := start.run events
    (∀ e ∈ events, e.2.isReport = true) ∧ (events.map Prod.fst ++ [1]).Pairwise (· ≤ ·) ∧
      r.allCooling 1 = true ∧ (r.reportFailure 1 refused).2 = true ∧
      (r.reportFailure 1 refused).1.active = 1 ∧ start.turns events = [0, 1, 2, 0] ∧
      ∀ slot < 3, ∃ k, 0 ≤ k ∧ k < 3 ∧ (start.turns events)[k]? = some slot := by
  intro refused slots events start r
  have hreports : ∀ e ∈ events, e.2.isReport = true := by decide
  have horder : (events.map Prod.fst ++ [1]).Pairwise (· ≤ ·) := by decide
  obtain ⟨hnext, hround⟩ := run_goes_round slots {} events 1 hreports horder
  have hmoves : (r.reportFailure 1 refused).2 = true := by decide
  exact ⟨hreports, horder, by decide, hmoves,
    (hnext refused hmoves).trans (by decide), by decide,
    hround 0 3 (by decide) (by decide) (by decide)⟩

end Rotation

end InferenceRouting.Credential
