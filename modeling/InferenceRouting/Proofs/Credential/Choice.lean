import InferenceRouting.Proofs.Credential.Cooling
import InferenceRouting.Proofs.Credential.Turns
import Mathlib.Data.List.Induction

/-!
# When the active place moves, and where to

Slots are selected by hand, outcomes are recorded apart from the active slot, and the active slot
succeeds and fails.  Whatever comes, two things are known of a rotation: every failure on record lies
in the past (`Past`), and the count of failures in a row is that of the history (`inARow`).

From the second follows when a failure moves the active place, from the first where to (`Chosen`).
The slot that is left has failed last of all, so it is not taken again, even when all slots cool for
the same while or none cools at all: one that has failed before it is usable when it is, and its
cooling ends no later.  `run_moves_on` puts both together for every run.
-/

namespace InferenceRouting.Credential

/-- Whether an event is a failure of the active slot. -/
def RotationEvent.isFailure : RotationEvent → Bool
  | .failure _ => true
  | .success | .outcome .. | .select _ => false

namespace Rotation

/-- Whether an event ends a series of failures: a success, a move of the active place, or the
selection of a slot. -/
def endsSeries (r : Rotation) (now : Nat) : RotationEvent → Bool
  | .success => true
  | .failure f => (r.reportFailure now f).2
  | .outcome .. => false
  | .select i => decide (i < r.size)

/-- The events of a run, each with whether it ends a series of failures. -/
def series (r : Rotation) : List (Nat × RotationEvent) → List (RotationEvent × Bool)
  | [] => []
  | e :: rest => (e.2, r.endsSeries e.1 e.2) :: (r.apply e.1 e.2).series rest

/-- The number of failures of the active slot since the last success, move or selection. -/
def inARow (r : Rotation) (events : List (Nat × RotationEvent)) : Nat :=
  ((r.series events).reverse.takeWhile fun e => !e.2).countP (·.1.isFailure)

/-- Every place that is looked at has a record: the active one, and all those of the scan. -/
structure InBounds (r : Rotation) : Prop where
  active : r.slots ≠ [] → r.active < r.records.length
  scan : ∀ i ∈ r.scan, i < r.records.length

/-- Every failure on record lies in the past. -/
structure Past (r : Rotation) (now : Nat) : Prop where
  wellFormed : r.WellFormed
  past : ∀ i f, r.record? i = some f → f.lastAt ≤ now

/-- With the records of `q`, the slot `o` places behind the active one is the first in cyclic order
that is not cooling at time `now`; or, when all are, the first of those whose cooling ends first. -/
structure Chosen (r q : Rotation) (now o : Nat) : Prop where
  behind : 1 ≤ o ∧ o < r.size
  usable : (∃ i < r.size, q.isCooling now i = false) → q.isCooling now (r.place o) = false ∧
    ∀ p, 1 ≤ p → p < o → q.isCooling now (r.place p) = true
  soonest : (∀ i < r.size, q.isCooling now i = true) → ∃ t, q.coolingEnd? (r.place o) = some t ∧
    ∀ p, 1 ≤ p → p ≤ r.size → ∃ u, q.coolingEnd? (r.place p) = some u ∧ t ≤ u ∧ (p < o → t < u)

variable {r : Rotation} {last now : Nat}

/-! ## Records -/

theorem WellFormed.inBounds (h : r.WellFormed) : r.InBounds where
  active hs := h.records_length ▸ h.active_lt hs
  scan _ hi := h.records_length ▸ lt_size_of_mem_scan hi

/-- A record that is found after one has been replaced is the new one or was there before. -/
theorem record?_of_set {i j : Nat} {x : Option FailureRecord} {f : FailureRecord}
    (h : ({ r with records := r.records.set i x } : Rotation).record? j = some f) :
    x = some f ∨ r.record? j = some f := by
  rw [record?_set] at h
  split at h
  · exact .inl h
  · exact .inr h

/-- A selection is refused if there is no such place. -/
theorem apply_select (r : Rotation) (now i : Nat) :
    r.apply now (.select i) =
      if i < r.size then { r with active := i, consecutive := 0 } else r := by
  by_cases hi : i < r.size
  · simp [Rotation.apply, select, hi, Nat.not_le.mpr hi]
  · simp [Rotation.apply, select, hi, Nat.le_of_not_lt hi]

/-- A failure on record after an event was there before or has just happened. -/
theorem record?_apply {e : RotationEvent} {j : Nat} {f : FailureRecord}
    (h : (r.apply now e).record? j = some f) : r.record? j = some f ∨ f.lastAt = now := by
  have hset : ∀ (i : Nat) (record : Option FailureRecord),
      ({ r with records := r.records.set i (some (failedAgain now record)) } : Rotation).record? j =
        some f → r.record? j = some f ∨ f.lastAt = now := by
    intro i record hfound
    rcases record?_of_set hfound with hnew | hold
    · exact .inr (Option.some.inj hnew ▸ rfl)
    · exact .inl hold
  have hclear : ∀ i : Nat,
      ({ r with records := r.records.set i none } : Rotation).record? j = some f →
        r.record? j = some f := by
    intro i hfound
    rcases record?_of_set hfound with hnew | hold
    · cases hnew
    · exact hold
  cases e with
  | success => exact .inl (hclear r.active h)
  | failure g =>
      have h : (r.reportFailure now g).1.record? j = some f := h
      by_cases hs : r.slots = []
      · rw [reportFailure_of_no_slots hs] at h
        exact .inl h
      · rcases reportFailure_cases hs now g with heq | ⟨meters, heq⟩
        · rw [heq] at h
          exact hset r.active _ h
        · rw [heq] at h
          exact hset r.active _ h
  | outcome i failed =>
      cases failed with
      | true => exact hset i _ h
      | false => exact .inl (hclear i h)
  | select i =>
      left
      rw [apply_select] at h
      split at h
      · exact h
      · exact h

theorem WellFormed.apply (h : r.WellFormed) (now : Nat) (e : RotationEvent) :
    (r.apply now e).WellFormed := by
  cases e with
  | success => exact h.reportSuccess
  | failure f => exact h.reportFailure now f
  | outcome i failed => exact h.recordOutcome now i failed
  | select i =>
      rw [apply_select]
      split
      · exact ⟨h.records_length, fun _ => ‹i < r.size›⟩
      · exact h

/-- The slots and the tuning stay. -/
theorem settings_apply (r : Rotation) (now : Nat) (e : RotationEvent) :
    ((r.apply now e).slots, (r.apply now e).config) = (r.slots, r.config) := by
  cases e with
  | success => rfl
  | failure f =>
      by_cases hs : r.slots = []
      · simp [Rotation.apply, reportFailure_of_no_slots hs]
      · rcases reportFailure_cases hs now f with heq | ⟨meters, heq⟩
        · simp [Rotation.apply, heq, failed]
        · simp [Rotation.apply, heq, failed]
  | outcome i failed => cases failed <;> rfl
  | select i =>
      rw [apply_select]
      split <;> rfl

/-- **Step theorem.**  As time goes on, the failures on record stay in the past. -/
theorem Past.apply (h : r.Past last) (hlast : last ≤ now) (e : RotationEvent) :
    (r.apply now e).Past now where
  wellFormed := h.wellFormed.apply now e
  past i f hf := by
    rcases record?_apply hf with hold | hnew
    · exact Nat.le_trans (h.past i f hold) hlast
    · exact Nat.le_of_eq hnew

/-! ## Failures in a row -/

/-- A failure moves the active place when there is another slot, and the credential was refused or
limited or has now failed often enough. -/
theorem reportFailure_moves_iff (r : Rotation) (now : Nat) (f : Failure) :
    (r.reportFailure now f).2 = true ↔
      2 ≤ r.size ∧ (f.isUrgent = true ∨ r.config.maxFailures ≤ r.consecutive + 1) := by
  by_cases hs : r.slots = []
  · simp [reportFailure, size, hs]
  · have hempty : r.slots.isEmpty = false := by simpa using hs
    simp only [reportFailure, hempty, Bool.false_eq_true, if_false, size]
    split
    · rename_i hcalm
      simp only [Bool.and_eq_true, Bool.not_eq_true', decide_eq_true_eq] at hcalm
      simp [hcalm.1, hcalm.2]
    · rename_i hcalm
      split
      · simp
        omega
      · refine iff_of_true rfl ⟨by omega, ?_⟩
        cases hurgent : f.isUrgent with
        | true => exact .inl rfl
        | false =>
            simp only [hurgent, Bool.not_false, Bool.true_and, decide_eq_true_eq] at hcalm
            exact .inr (Nat.le_of_not_lt hcalm)

/-- The count of failures in a row, after one more event. -/
theorem consecutive_apply (hs : r.slots ≠ []) (now : Nat) (e : RotationEvent) :
    (r.apply now e).consecutive =
      if r.endsSeries now e then 0 else r.consecutive + if e.isFailure then 1 else 0 := by
  cases e with
  | success => rfl
  | failure f =>
      rcases reportFailure_cases hs now f with heq | ⟨meters, heq⟩
      · simp [Rotation.apply, endsSeries, heq, failed, RotationEvent.isFailure]
      · simp [Rotation.apply, endsSeries, heq]
  | outcome i failed => cases failed <;> rfl
  | select i =>
      by_cases hi : r.size ≤ i
      · have hout : ¬i < r.size := Nat.not_lt_of_le hi
        simp [Rotation.apply, endsSeries, select, hi, hout, RotationEvent.isFailure]
      · have hin : i < r.size := Nat.lt_of_not_le hi
        simp [Rotation.apply, endsSeries, select, hi, hin]

theorem series_concat (r : Rotation) (events : List (Nat × RotationEvent))
    (e : Nat × RotationEvent) :
    r.series (events ++ [e]) = r.series events ++ [(e.2, (r.run events).endsSeries e.1 e.2)] := by
  induction events generalizing r with
  | nil => rfl
  | cons d rest ih => simp [series, ih, Rotation.run]

/-- The failures of the history in a row, after one more event. -/
theorem inARow_concat (r : Rotation) (events : List (Nat × RotationEvent))
    (e : Nat × RotationEvent) :
    r.inARow (events ++ [e]) = if (r.run events).endsSeries e.1 e.2 then 0
      else r.inARow events + if e.2.isFailure then 1 else 0 := by
  unfold inARow
  rw [series_concat, List.reverse_append, List.reverse_singleton, List.singleton_append]
  cases hends : (r.run events).endsSeries e.1 e.2 with
  | true => simp
  | false => simp [List.countP_cons]

/-! ## The choice -/

/-- One comes by every place within a round. -/
theorem exists_place {i : Nat} (hi : i < r.size) : ∃ o, 1 ≤ o ∧ o ≤ r.size ∧ r.place o = i := by
  have hround : (r.active + 1) % r.size = (r.active + 1 + r.size) % r.size :=
    (Nat.add_mod_right _ _).symm
  obtain ⟨k, hle, hlt, hk⟩ := exists_between_of_mod_eq (by omega) hround hi
  refine ⟨k - r.active, by omega, by omega, ?_⟩
  unfold place
  rw [Nat.add_sub_cancel' (by omega), hk]

/-- Of places that all have an end of their cooling, one whose cooling ends first is found, and it
ends before that of all places in front of it. -/
theorem earliest?_spec {ends : Nat → Nat} {l : List Nat}
    (hends : ∀ j ∈ l, r.coolingEnd? j = some (ends j)) (hl : l ≠ []) :
    ∃ k i : Nat, r.earliest? l = some i ∧ l[k]? = some i ∧ (∀ j ∈ l, ends i ≤ ends j) ∧
      ∀ m < k, ∀ j, l[m]? = some j → ends i < ends j := by
  induction l with
  | nil => exact absurd rfl hl
  | cons a rest ih =>
      have ha := hends a List.mem_cons_self
      have hrest : ∀ j ∈ rest, r.coolingEnd? j = some (ends j) :=
        fun j hj => hends j (List.mem_cons_of_mem a hj)
      by_cases hnil : rest = []
      · subst hnil
        exact ⟨0, a, rfl, rfl, by simp, fun m hm => absurd hm (Nat.not_lt_zero m)⟩
      · obtain ⟨k, i, hi, hk, hleast, hfirst⟩ := ih hrest hnil
        have hchoice : r.earliest? (a :: rest) = if ends a ≤ ends i then some a else some i := by
          simp only [earliest?, hi, ha, hrest i (List.mem_of_getElem? hk)]
        rw [hchoice]
        by_cases hle : ends a ≤ ends i
        · refine ⟨0, a, if_pos hle, rfl, fun j hj => ?_, fun m hm => absurd hm (Nat.not_lt_zero m)⟩
          rcases List.mem_cons.mp hj with rfl | hj
          · exact Nat.le_refl _
          · exact Nat.le_trans hle (hleast j hj)
        · have hlt : ends i < ends a := Nat.lt_of_not_le hle
          refine ⟨k + 1, i, if_neg hle, hk, fun j hj => ?_, fun m hm j hj => ?_⟩
          · rcases List.mem_cons.mp hj with rfl | hj
            · exact Nat.le_of_lt hlt
            · exact hleast j hj
          · cases m with
            | zero =>
                obtain rfl : a = j := Option.some.inj hj
                exact hlt
            | succ m => exact hfirst m (by omega) j hj

/-- The slot that has just failed has failed last of all. -/
theorem Past.noLater_failed (h : r.Past now) (hs : r.slots ≠ []) (i : Nat) :
    (r.failed now).NoLater i r.active := by
  intro f hf
  refine ⟨_, (record?_failed h.wellFormed hs now r.active).trans (if_pos rfl), ?_⟩
  rcases record?_of_set hf with hnew | hold
  · exact Nat.le_of_eq (Option.some.inj hnew ▸ rfl)
  · exact h.past i f hold

/-- The place to move to when one is not cooling. -/
theorem Past.chosen_of_usable (h : r.Past now) (hsize : 2 ≤ r.size) {i : Nat}
    (hfind : (r.failed now).scan.find? (fun i => !(r.failed now).isCooling now i) = some i) :
    ∃ o, i = r.place o ∧ r.Chosen (r.failed now) now o := by
  have hs : r.slots ≠ [] := List.length_pos_iff.mp (by unfold size at hsize; omega)
  have hlt : r.active < r.size := h.wellFormed.active_lt hs
  have hscan : (r.failed now).scan = (List.range r.size).map fun o => r.place (o + 1) := rfl
  rw [hscan, List.find?_map, Option.map_eq_some_iff] at hfind
  obtain ⟨o, ho, rfl⟩ := hfind
  obtain ⟨hclear, hmem, hbefore⟩ := List.find?_range_eq_some.mp ho
  have hcooling : ∀ p, 1 ≤ p → p < o + 1 → (r.failed now).isCooling now (r.place p) = true := by
    intro p hpos hp
    obtain ⟨m, rfl⟩ := Nat.exists_eq_add_of_le' hpos
    simpa using hbefore m (by omega)
  have hnot : (r.failed now).isCooling now (r.place (o + 1)) = false := by simpa using hclear
  have hbound : o + 1 ≤ r.size := List.mem_range.mp hmem
  -- were it the slot that has just failed, the next one would be usable as well
  have hother : o + 1 ≠ r.size := by
    intro hround
    rw [hround, place_size hlt] at hnot
    have hnext := hcooling 1 (Nat.le_refl 1) (by omega)
    rw [(h.noLater_failed hs (r.place 1)).isCooling hnext] at hnot
    cases hnot
  refine ⟨o + 1, rfl, ⟨by omega, by omega⟩, fun _ => ⟨hnot, hcooling⟩, fun hall => ?_⟩
  rw [hall (r.place (o + 1)) (Nat.mod_lt _ (by omega))] at hnot
  cases hnot

/-- The place to move to when all are cooling. -/
theorem Past.chosen_of_cooling (h : r.Past now) (hsize : 2 ≤ r.size)
    (hall : ∀ i < r.size, (r.failed now).isCooling now i = true) :
    ∃ o, (r.failed now).earliest? (r.failed now).scan = some (r.place o) ∧
      r.Chosen (r.failed now) now o := by
  have hs : r.slots ≠ [] := List.length_pos_iff.mp (by unfold size at hsize; omega)
  have hlt : r.active < r.size := h.wellFormed.active_lt hs
  have hscan : (r.failed now).scan = (List.range r.size).map fun o => r.place (o + 1) := rfl
  have hat : ∀ o, 1 ≤ o → o ≤ r.size →
      ((List.range r.size).map fun o => r.place (o + 1))[o - 1]? = some (r.place o) := by
    intro o hpos ho
    rw [List.getElem?_map, List.getElem?_range (by omega), Option.map_some, Nat.sub_add_cancel hpos]
  let ends : Nat → Nat := fun i => ((r.failed now).coolingEnd? i).getD 0
  have hends : ∀ i < r.size, (r.failed now).coolingEnd? i = some (ends i) := by
    intro i hi
    obtain ⟨t, ht, -⟩ := ((r.failed now).isCooling_iff now i).mp (hall i hi)
    simp [ends, ht]
  have hplace : ∀ o, r.place o < r.size := fun o => Nat.mod_lt _ (by omega)
  have hscan : ∀ j ∈ (List.range r.size).map fun o => r.place (o + 1),
      (r.failed now).coolingEnd? j = some (ends j) := by
    intro j hj
    obtain ⟨o, -, rfl⟩ := List.mem_map.mp hj
    exact hends _ (hplace _)
  obtain ⟨k, i, hi, hk, hleast, hfirst⟩ := earliest?_spec hscan (by simp; omega)
  have hbound : k < r.size := by
    have := (List.getElem?_eq_some_iff.mp hk).1
    simpa using this
  obtain rfl : r.place (k + 1) = i := Option.some.inj ((hat (k + 1) (by omega) hbound).symm.trans hk)
  have hstrict : ∀ p, 1 ≤ p → p < k + 1 → ends (r.place (k + 1)) < ends (r.place p) :=
    fun p hpos hp => hfirst (p - 1) (by omega) _ (hat p hpos (by omega))
  -- the slot that has just failed cools longest, and stands last in the scan
  have hother : k + 1 ≠ r.size := by
    intro hround
    have hless := hstrict 1 (Nat.le_refl 1) (by omega)
    rw [hround, place_size hlt] at hless
    have hfirst := hends (r.place 1) (hplace 1)
    have hactive := hends r.active hlt
    obtain ⟨f, hf, hend⟩ := Option.map_eq_some_iff.mp hfirst
    obtain ⟨g, hg, hle⟩ := h.noLater_failed hs (r.place 1) f hf
    have hend' : g.lastAt + (r.failed now).config.cooldown = ends r.active := by
      rw [coolingEnd?, hg, Option.map_some] at hactive
      exact Option.some.inj hactive
    omega
  refine ⟨k + 1, hi, ⟨by omega, by omega⟩, ?_, fun _ => ?_⟩
  · rintro ⟨i, hi, hclear⟩
    rw [hall i hi] at hclear
    cases hclear
  · refine ⟨_, hends _ (hplace _), fun p hpos hp => ⟨_, hends _ (hplace _), ?_, hstrict p hpos⟩⟩
    exact hleast _ (List.mem_of_getElem? (hat p hpos hp))

/-- Where the active place moves to depends on the records alone. -/
theorem Chosen.congr {q q' : Rotation} {o : Nat} (h : r.Chosen q now o)
    (hsame : q'.coolingEnd? = q.coolingEnd?) : r.Chosen q' now o := by
  have hcooling : q'.isCooling now = q.isCooling now := by
    funext i
    unfold isCooling
    rw [hsame]
  refine ⟨h.behind, ?_, ?_⟩
  · rw [hcooling]
    exact h.usable
  · rw [hcooling, hsame]
    exact h.soonest

/-- **Where the active place moves to.** -/
theorem Past.chosen (h : r.Past now) (hsize : 2 ≤ r.size) :
    ∃ o, (r.failed now).pickNext now = r.place o ∧ r.Chosen (r.failed now) now o := by
  unfold pickNext
  cases hfind : (r.failed now).scan.find? (fun i => !(r.failed now).isCooling now i) with
  | some i =>
      obtain ⟨o, rfl, hchosen⟩ := h.chosen_of_usable hsize hfind
      exact ⟨o, rfl, hchosen⟩
  | none =>
      have hall : ∀ i < r.size, (r.failed now).isCooling now i = true := by
        intro i hi
        obtain ⟨o, hpos, ho, rfl⟩ := exists_place hi
        have hmem : r.place o ∈ (r.failed now).scan :=
          List.mem_map.mpr ⟨o - 1, List.mem_range.mpr (show o - 1 < r.size by omega), by
            show r.place (o - 1 + 1) = r.place o
            rw [Nat.sub_add_cancel hpos]⟩
        simpa using List.find?_eq_none.mp hfind _ hmem
      obtain ⟨o, ho, hchosen⟩ := h.chosen_of_cooling hsize hall
      exact ⟨o, by simp [ho], hchosen⟩

/-! ## Runs -/

/-- A fresh rotation has no failures on record. -/
theorem past_new (slots : List Slot) (config : RotationConfig) : (new slots config).Past 0 where
  wellFormed := wellFormed_new slots config
  past := (inTurn_new slots config).past

/-- **Run theorem.**  A run keeps the failures in the past, and counts those in a row. -/
theorem run_past (slots : List Slot) (config : RotationConfig)
    (events : List (Nat × RotationEvent))
    (horder : (events.map (·.1) ++ [now]).Pairwise (· ≤ ·)) :
    let start := new slots config
    (start.run events).Past now ∧ (start.run events).slots = slots ∧
      (start.run events).config = config ∧
      (slots ≠ [] → (start.run events).consecutive = start.inARow events) := by
  intro start
  induction events using List.reverseRecOn generalizing now with
  | nil =>
      have hnew := past_new slots config
      exact ⟨⟨hnew.wellFormed, fun i f hf => Nat.le_trans (hnew.past i f hf) (Nat.zero_le now)⟩,
        rfl, rfl, fun _ => rfl⟩
  | append_singleton events e ih =>
      rw [List.map_append, List.map_singleton] at horder
      obtain ⟨hearlier, -, hlast⟩ := List.pairwise_append.mp horder
      obtain ⟨hpast, hslots, hconfig, hcount⟩ := ih hearlier
      have hrun : start.run (events ++ [e]) = (start.run events).apply e.1 e.2 := by
        simp [Rotation.run]
      obtain ⟨hslots', hconfig'⟩ := Prod.mk.inj ((start.run events).settings_apply e.1 e.2)
      have hnext := hpast.apply (Nat.le_refl e.1) e.2
      have hle : e.1 ≤ now := hlast e.1 (by simp) now (by simp)
      rw [hrun]
      refine ⟨⟨hnext.wellFormed, fun i f hf => Nat.le_trans (hnext.past i f hf) hle⟩,
        hslots'.trans hslots, hconfig'.trans hconfig, fun hs => ?_⟩
      rw [consecutive_apply (hslots ▸ hs), inARow_concat, hcount hs]

/-- **The rotation algorithm.**  After every sequence of events in the order of their times, the
active place is that of a slot if there are any, and every place that is looked at has a record.  A
failure moves the active place exactly when there are two slots and the credential was refused or
limited, or this is at least the greatest number of failures allowed since the last success, move or
selection.  Then the active place moves to another slot, the first in cyclic order that is not
cooling, or, when all are, the first of those whose cooling ends first; no failure is counted in a
row any more, and the record of the slot that is left is the only one to have changed. -/
theorem run_moves_on (slots : List Slot) (config : RotationConfig)
    (events : List (Nat × RotationEvent)) (now : Nat) (f : Failure)
    (horder : (events.map (·.1) ++ [now]).Pairwise (· ≤ ·)) :
    let start := new slots config
    let r := start.run events
    let q := (r.reportFailure now f).1
    (slots ≠ [] → r.active < slots.length) ∧ r.InBounds ∧
    ((r.reportFailure now f).2 = true ↔ 2 ≤ slots.length ∧
      (f.isUrgent = true ∨ config.maxFailures ≤ start.inARow events + 1)) ∧
    ((r.reportFailure now f).2 = true →
      q.active ≠ r.active ∧ q.consecutive = 0 ∧
      (∃ o, q.active = r.place o ∧ r.Chosen q now o) ∧
      ∀ i, q.record? i =
        if i = r.active then some (failedAgain now (r.record? r.active)) else r.record? i) := by
  intro start r q
  obtain ⟨hpast, hslots, hconfig, hcount⟩ := run_past slots config events horder
  have hsize : r.size = slots.length := congrArg List.length hslots
  have hiff := r.reportFailure_moves_iff now f
  refine ⟨fun hs => ?_, hpast.wellFormed.inBounds, ?_, fun hmoves => ?_⟩
  · have hlt := hpast.wellFormed.active_lt (by rw [hslots]; exact hs)
    rwa [hslots] at hlt
  · rw [hiff, hsize, hconfig]
    refine and_congr_right fun htwo => ?_
    have hs : slots ≠ [] := List.length_pos_iff.mp (by omega)
    rw [hcount hs]
  · have htwo : 2 ≤ r.size := (hiff.mp hmoves).1
    have hs : r.slots ≠ [] := List.length_pos_iff.mp (by unfold size at htwo; omega)
    rcases reportFailure_cases hs now f with heq | ⟨meters, heq⟩
    · rw [heq] at hmoves
      cases hmoves
    · have hq : q = { r.failed now with
          active := (r.failed now).pickNext now, consecutive := 0, meters } := congrArg Prod.fst heq
      obtain ⟨o, ho, hchosen⟩ := hpast.chosen htwo
      have hactive : q.active = r.place o := by rw [hq, ← ho]
      refine ⟨?_, by rw [hq], ⟨o, hactive, ?_⟩, record?_reportFailure hpast.wellFormed hs now f⟩
      · rw [hactive]
        exact place_ne_active (hpast.wellFormed.active_lt hs) hchosen.behind.1 hchosen.behind.2
      · -- the move itself touches no record, so the slots cool as they did when it was made
        exact hchosen.congr (by rw [hq]; rfl)

/-- The third of four slots is selected after the first two have failed at one instant and the last
one later; a place and a record beyond the slots are asked for in vain.  When the third is refused,
all four are cooling.  The first and the second are the first to be usable again, and the active
place moves to the first, which comes before the second behind the third. -/
theorem run_moves_on_tie :
    let slots : List Slot := List.replicate 4 ⟨⟨"sk"⟩, none, .config, 1⟩
    let refused : Failure := ⟨some 401, "no such key"⟩
    let events : List (Nat × RotationEvent) :=
      [(5, .outcome 1 true), (5, .outcome 0 true), (6, .outcome 3 true), (6, .outcome 7 true),
        (6, .select 2), (7, .select 9)]
    let start := new slots {}
    let r := start.run events
    let q := (r.reportFailure 8 refused).1
    (events.map Prod.fst ++ [8]).Pairwise (· ≤ ·) ∧ r.active = 2 ∧
      (r.reportFailure 8 refused).2 = true ∧ q.allCooling 8 = true ∧ q.active = 0 ∧
      q.consecutive = 0 ∧ ∃ o, q.active = r.place o ∧ r.Chosen q 8 o := by
  intro slots refused events start r q
  have horder : (events.map Prod.fst ++ [8]).Pairwise (· ≤ ·) := by decide
  obtain ⟨-, -, hmoves, hmoved⟩ := run_moves_on slots {} events 8 refused horder
  have hturn : (r.reportFailure 8 refused).2 = true := hmoves.mpr ⟨by decide, .inl (by decide)⟩
  obtain ⟨-, hcount, hchosen, -⟩ := hmoved hturn
  exact ⟨horder, by decide, hturn, by decide, by decide, hcount, hchosen⟩

end Rotation

end InferenceRouting.Credential
