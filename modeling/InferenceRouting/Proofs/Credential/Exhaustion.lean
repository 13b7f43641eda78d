import InferenceRouting.Proofs.Credential.Choice
import Mathlib.Order.Bounds.Basic
import Mathlib.Tactic.TFAE

/-!
# Exhaustion

A rotation is exhausted when it has slots and every one of them is cooling.  It is asked about that
in several ways: whether all slots are cooling, how many are, when the first is usable again,
whether a request may begin, and for its status.  Each answer goes over the slots on its own.

* `allCooling_iff_exhausted` and `coolingCount_eq_size_iff` read the answers off the records.
* `exists_coolsUntil_of_allCooling` gives an exhausted rotation its instant of recovery, and
  `CoolsUntil.run` keeps that instant as long as nothing is reported.
* `run_exhaustion` puts all answers together, for every run and every time.
-/

namespace InferenceRouting.Credential

/-- Whether an event tells of a success or a failure, of the active slot or of any other.  A
selection does not. -/
def RotationEvent.tellsOutcome : RotationEvent → Bool
  | .success | .failure _ | .outcome .. => true
  | .select _ => false

namespace Rotation

variable {r : Rotation} {now reset : Nat}

/-- There are slots, and each has a failure on record from which it still cools at time `now`. -/
structure Exhausted (r : Rotation) (now : Nat) : Prop where
  slots : r.slots ≠ []
  cooling : ∀ record ∈ r.records, ∃ f, record = some f ∧ now < f.lastAt + r.config.cooldown

/-! ## Reading the records -/

/-- What holds of the record at every place holds of all records. -/
theorem WellFormed.forall_record? (h : r.WellFormed) (P : Option FailureRecord → Prop) :
    (∀ i < r.size, P (r.record? i)) ↔ ∀ record ∈ r.records, P record := by
  have hlength : r.records.length = r.size := h.records_length
  constructor
  · intro hall record hmem
    obtain ⟨i, hi, rfl⟩ := List.mem_iff_getElem.mp hmem
    have hat := hall i (by omega)
    simpa [record?, hi] using hat
  · intro hall i hi
    have hi : i < r.records.length := by omega
    have hat := hall r.records[i] (List.getElem_mem hi)
    simpa [record?, hi] using hat

/-- A slot is cooling when it has failed and its cooling has not ended. -/
theorem isCooling_iff_record? (now i : Nat) :
    r.isCooling now i = true ↔
      ∃ f, r.record? i = some f ∧ now < f.lastAt + r.config.cooldown := by
  rw [isCooling_iff]
  unfold coolingEnd?
  cases r.record? i with
  | none => simp
  | some f => simp

theorem allCooling_iff (now : Nat) :
    r.allCooling now = true ↔ r.slots ≠ [] ∧ ∀ i < r.size, r.isCooling now i = true := by
  simp [Rotation.allCooling]

/-- All slots are cooling when the rotation is exhausted. -/
theorem allCooling_iff_exhausted (h : r.WellFormed) (now : Nat) :
    r.allCooling now = true ↔ r.Exhausted now := by
  have hrecords : (∀ i < r.size, r.isCooling now i = true) ↔
      ∀ record ∈ r.records, ∃ f, record = some f ∧ now < f.lastAt + r.config.cooldown := by
    rw [← h.forall_record? fun record =>
      ∃ f, record = some f ∧ now < f.lastAt + r.config.cooldown]
    exact forall₂_congr fun i _ => isCooling_iff_record? now i
  rw [allCooling_iff, hrecords]
  exact ⟨fun ⟨hslots, hall⟩ => ⟨hslots, hall⟩, fun hex => ⟨hex.slots, hex.cooling⟩⟩

/-- As many slots are cooling as there are when each of them is. -/
theorem coolingCount_eq_size_iff (now : Nat) :
    r.coolingCount now = r.size ↔ ∀ i < r.size, r.isCooling now i = true := by
  have hcount : r.coolingCount now = (List.range r.size).length ↔
      ∀ i ∈ List.range r.size, r.isCooling now i = true :=
    List.length_filter_eq_length_iff
  simpa using hcount

/-- Every slot that is shown is shown to be cooling when all are. -/
theorem forall_status_slots (now : Nat) :
    (∀ shown ∈ (r.status now).slots, shown.inCooldown = true) ↔
      ∀ i < r.size, r.isCooling now i = true := by
  constructor
  · intro hall i hi
    have hmem : (r.slots[i], i) ∈ r.slots.zipIdx := by
      rw [List.mk_mem_zipIdx_iff_getElem?]
      exact List.getElem?_eq_getElem hi
    exact hall _ (List.mem_map_of_mem hmem)
  · intro hall shown hshown
    obtain ⟨⟨slot, i⟩, hmem, rfl⟩ := List.mem_map.mp hshown
    rw [List.mk_mem_zipIdx_iff_getElem?] at hmem
    exact hall i (List.getElem?_eq_some_iff.mp hmem).1

/-! ## The instant of recovery -/

/-- When all slots are cooling there is an instant at which the first of them is usable again. -/
theorem exists_coolsUntil_of_allCooling (h : r.allCooling now = true) :
    ∃ reset, r.CoolsUntil reset := by
  obtain ⟨hslots, hall⟩ := (allCooling_iff now).mp h
  have hpos : 0 < r.size := List.length_pos_iff.mpr hslots
  obtain ⟨t, ht, -⟩ := (r.isCooling_iff now 0).mp (hall 0 hpos)
  have hmem : t ∈ (List.range r.size).filterMap r.coolingEnd? := mem_coolingEnds.mpr ⟨0, hpos, ht⟩
  obtain ⟨reset, hreset⟩ :=
    Option.isSome_iff_exists.mp (List.isSome_min?_of_mem hmem)
  have hnext : r.nextReset? now = some reset := by
    unfold nextReset?
    rw [if_pos h, hreset]
  exact ⟨reset, coolsUntil_of_nextReset? hnext⟩

/-- The instant of recovery is the least of the ends of all coolings on record. -/
theorem CoolsUntil.isLeast (h : r.CoolsUntil reset) (hwell : r.WellFormed) :
    IsLeast {t | ∃ f, some f ∈ r.records ∧ t = f.lastAt + r.config.cooldown} reset := by
  constructor
  · obtain ⟨i, hi, hend⟩ := h.attained
    obtain ⟨f, hf, rfl⟩ := Option.map_eq_some_iff.mp hend
    refine ⟨f, ?_, rfl⟩
    exact List.mem_of_getElem? (Option.join_eq_some_iff.mp hf)
  · rintro t ⟨f, hf, rfl⟩
    have hbound : ∀ record ∈ r.records, ∀ f, record = some f →
        reset ≤ f.lastAt + r.config.cooldown := by
      refine (hwell.forall_record? _).mp fun i hi f hf => ?_
      obtain ⟨t, ht, hle⟩ := h.recorded i hi
      rw [coolingEnd?, hf, Option.map_some] at ht
      exact Option.some.inj ht ▸ hle
    exact hbound (some f) hf f rfl

/-- What is not a report leaves the slots, their tuning and their records. -/
theorem apply_of_not_tellsOutcome {e : RotationEvent} (he : e.tellsOutcome = false) (now : Nat) :
    (r.apply now e).size = r.size ∧ (r.apply now e).coolingEnd? = r.coolingEnd? := by
  cases e with
  | select i =>
      rw [apply_select]
      split <;> exact ⟨rfl, rfl⟩
  | _ => cases he

/-- As long as nothing is reported the instant of recovery stays. -/
theorem CoolsUntil.run (h : r.CoolsUntil reset) {events : List (Nat × RotationEvent)}
    (hquiet : ∀ e ∈ events, e.2.tellsOutcome = false) : (r.run events).CoolsUntil reset := by
  induction events generalizing r with
  | nil => exact h
  | cons e rest ih =>
      obtain ⟨hsize, hends⟩ := apply_of_not_tellsOutcome (r := r) (hquiet e List.mem_cons_self) e.1
      refine ih (r := r.apply e.1 e.2) ?_ fun d hd => hquiet d (List.mem_cons_of_mem e hd)
      constructor
      · rw [hsize, hends]
        exact h.recorded
      · rw [hsize, hends]
        exact h.attained

/-! ## All answers -/

/-- A run keeps the rotation well formed, and its tuning. -/
theorem WellFormed.run (h : r.WellFormed) (events : List (Nat × RotationEvent)) :
    (r.run events).WellFormed ∧ (r.run events).config = r.config := by
  induction events generalizing r with
  | nil => exact ⟨h, rfl⟩
  | cons e rest ih =>
      obtain ⟨hwell, hconfig⟩ := ih (h.apply e.1 e.2)
      exact ⟨hwell, hconfig.trans (Prod.mk.inj (r.settings_apply e.1 e.2)).2⟩

/-- **The answers agree.** -/
theorem WellFormed.answers (h : r.WellFormed) (now : Nat) :
    List.TFAE [
      r.Exhausted now,
      r.allCooling now = true,
      (r.nextReset? now).isSome = true,
      ∃ e, r.ensureAvailable now = .error e,
      r.coolingCount now = r.size ∧ 0 < r.size,
      (r.status now).allExhausted = true,
      (r.status now).nextResetIn.isSome = true,
      (r.status now).slots ≠ [] ∧ ∀ shown ∈ (r.status now).slots, shown.inCooldown = true] := by
  have hslots : r.slots ≠ [] ↔ 0 < r.size := List.length_pos_iff.symm
  tfae_have 1 ↔ 2 := (allCooling_iff_exhausted h now).symm
  tfae_have 2 → 3 := by
    intro hall
    obtain ⟨reset, hreset⟩ := exists_coolsUntil_of_allCooling hall
    have hlt : now < reset := by simpa [hreset.allCooling now] using hall
    rw [hreset.nextReset?_eq now, if_pos hlt]
    rfl
  tfae_have 3 → 2 := by
    intro hsome
    by_contra hnot
    simp [nextReset?, hnot] at hsome
  tfae_have 3 ↔ 4 := by
    unfold ensureAvailable
    cases r.nextReset? now with
    | none => simp
    | some t => simp
  tfae_have 2 ↔ 5 := by
    rw [allCooling_iff, coolingCount_eq_size_iff, hslots, and_comm]
  tfae_have 2 ↔ 6 := Iff.rfl
  tfae_have 3 ↔ 7 := by
    rw [status, Option.isSome_map]
  tfae_have 2 ↔ 8 := by
    rw [forall_status_slots, allCooling_iff]
    simp [status]
  tfae_finish

/-- **Exhaustion.**  After every run and at every time, all answers about exhaustion agree, and they
say what the records say: there are slots, and each is cooling.  The instant of recovery that is told
then is the first at which the cooling of a slot ends.  As long as nothing is reported the rotation
stays exhausted before that instant, and is not exhausted from then on. -/
theorem run_exhaustion (slots : List Slot) (config : RotationConfig)
    (events : List (Nat × RotationEvent)) (now : Nat) :
    let r := (new slots config).run events
    r.records.length = r.size ∧
    List.TFAE [
      r.Exhausted now,
      r.allCooling now = true,
      (r.nextReset? now).isSome = true,
      ∃ e, r.ensureAvailable now = .error e,
      r.coolingCount now = r.size ∧ 0 < r.size,
      (r.status now).allExhausted = true,
      (r.status now).nextResetIn.isSome = true,
      (r.status now).slots ≠ [] ∧ ∀ shown ∈ (r.status now).slots, shown.inCooldown = true] ∧
    ∀ reset, r.nextReset? now = some reset →
      r.ensureAvailable now = .error (.allCredentialsCooling reset) ∧
      (r.status now).nextResetIn = some (Clock.published (reset - now)) ∧
      now < reset ∧
      IsLeast {t | ∃ f, some f ∈ r.records ∧ t = f.lastAt + config.cooldown} reset ∧
      ∀ later : List (Nat × RotationEvent), (∀ e ∈ later, e.2.tellsOutcome = false) →
        ∀ t, (r.run later).Exhausted t ↔ t < reset := by
  intro r
  obtain ⟨hwell, hconfig⟩ := (wellFormed_new slots config).run events
  refine ⟨hwell.records_length, hwell.answers now, fun reset hreset => ?_⟩
  have hcools : r.CoolsUntil reset := coolsUntil_of_nextReset? hreset
  have hlt : now < reset := by
    rw [hcools.nextReset?_eq now] at hreset
    by_contra hnot
    rw [if_neg hnot] at hreset
    cases hreset
  refine ⟨?_, ?_, hlt, ?_, fun later hquiet t => ?_⟩
  · rw [hcools.ensureAvailable_eq now, if_pos hlt]
  · rw [status, hreset, Option.map_some]
  · have hleast := hcools.isLeast hwell
    rw [hconfig] at hleast
    exact hleast
  · rw [← allCooling_iff_exhausted (hwell.run later).1 t, (hcools.run hquiet).allCooling t,
      decide_eq_true_iff]

/-- Two slots that have failed one after the other are exhausted from the second failure on, until
the cooling of the first one ends; that a slot is selected meanwhile changes nothing. -/
theorem run_exhaustion_two_slots :
    let slots : List Slot := List.replicate 2 ⟨⟨"sk"⟩, none, .config, 1⟩
    let r := (new slots { cooldown := 10 }).run [(5, .outcome 0 true), (8, .outcome 1 true)]
    r.Exhausted 8 ∧ r.nextReset? 8 = some 15 ∧
      r.ensureAvailable 8 = .error (.allCredentialsCooling 15) ∧
      (r.run [(9, .select 1)]).Exhausted 14 ∧ ¬(r.run [(9, .select 1)]).Exhausted 15 := by
  intro slots r
  have hreset : r.nextReset? 8 = some 15 := by decide
  obtain ⟨-, hagree, hrecovers⟩ := run_exhaustion slots { cooldown := 10 }
    [(5, .outcome 0 true), (8, .outcome 1 true)] 8
  obtain ⟨hrefused, -, -, -, hlater⟩ := hrecovers 15 hreset
  have hselected := hlater [(9, .select 1)] (by decide)
  have hexhausted : r.Exhausted 8 := (hagree.out 2 0).mp (by rw [hreset]; rfl)
  exact ⟨hexhausted, hreset, hrefused, (hselected 14).mpr (by omega),
    fun h => absurd ((hselected 15).mp h) (by omega)⟩

end Rotation

end InferenceRouting.Credential
