import InferenceRouting.Proofs.Fleet.Results
import InferenceRouting.Proofs.Fleet.Verdicts

/-!
# Fan-outs

A fan-out drives every slot with the same body.  The requests of its slots begin, wait, call and end
in any order, while other things happen in the fleet (`FanOutCourse`).  Each request goes by its own
number, so an event of one leaves the others where they are, and a request is in the fleet until it
is over (`Owned`): the fan-out hears one result from each slot.

What a request is charged to is the record of its slot and nothing else (`SlotOnly`).
`course_isolates_slots` draws the conclusions for all courses.
-/

namespace InferenceRouting

open Cluster (Node)
open Credential (FailureRecord KeyModelPair Rotation)

/-! ## What becomes of a slot -/

/-- The record of a slot when it was as given before, and the result of a call made with the slot, if
it is known. -/
def Recorded (before : Option FailureRecord) :
    Option (Except RoutingError InferenceAnswer) → Option FailureRecord → Prop
  | none, after => after = before
  | some (.ok _), after => after = none
  | some (.error e), after =>
    if e.countsAsEndpointFailure then ∃ t, after = some (Rotation.failedAgain t before)
    else after = before

/-- What an event of a request of the slot at a place does to the rotation: the record of the slot
takes the result, if there is one now, and nothing else changes. -/
structure SlotOnly (i : Nat) (result : Option (Except RoutingError InferenceAnswer))
    (before after : Rotation) : Prop where
  active : after.active = before.active
  consecutive : after.consecutive = before.consecutive
  others : ∀ j, j ≠ i → after.record? j = before.record? j
  own : Recorded (before.record? i) result (after.record? i)

theorem SlotOnly.refl (i : Nat) (r : Rotation) : SlotOnly i none r r :=
  ⟨rfl, rfl, fun _ _ => rfl, rfl⟩

/-- An outcome charged to a slot stays with the slot. -/
theorem Purpose.charge_slotOnly {r : Rotation} (h : r.WellFormed) {i : Nat} (hi : i < r.size)
    (now : Nat) (result : Except RoutingError InferenceAnswer) :
    SlotOnly i (some result) r ((Purpose.slot i).charge now result r) := by
  have hlt : i < r.records.length := h.records_length ▸ hi
  have hset (record : Option FailureRecord) :
      ({ r with records := r.records.set i record } : Rotation).record? i = record := by
    rw [Rotation.record?_set, if_pos ⟨rfl, hlt⟩]
  have hothers (j : Nat) (hj : j ≠ i) := Purpose.record?_charge_slot_of_ne (r := r) now result hj
  cases result with
  | ok answer => exact ⟨rfl, rfl, hothers, hset none⟩
  | error e =>
      by_cases he : e.countsAsEndpointFailure = true
      · have hcharge : (Purpose.slot i).charge now (.error e : Except _ InferenceAnswer) r =
            r.recordOutcome now i true := if_pos he
        rw [hcharge] at hothers ⊢
        refine ⟨rfl, rfl, hothers, ?_⟩
        rw [Recorded, if_pos he]
        exact ⟨now, hset _⟩
      · have hcharge : (Purpose.slot i).charge now (.error e : Except _ InferenceAnswer) r = r :=
          if_neg he
        rw [hcharge]
        refine ⟨rfl, rfl, fun _ _ => rfl, ?_⟩
        rw [Recorded, if_neg he]

/-! ## One request of many -/

namespace Fleet

/-- A request is in the fleet with its purpose and its plan, until it is over. -/
structure Owned (id : Nat) (purpose : Purpose) (plan : Plan) (f : Fleet) (done : Prop) : Prop where
  route : ∀ r, f.route? id = some r → r.purpose = purpose ∧ r.plan = plan
  gone : done ↔ f.route? id = none

variable {f g : Fleet} {now id : Nat} {node : Node} {rest : List Node} {r : Route}
  {e : RouteEvent} {purpose : Purpose} {plan : Plan} {met : Option Encounter}
  {out : Fleet × Attempt} {done done' : Prop}

namespace Owned

theorem none (h : f.route? id = none) (hdone : done) : Owned id purpose plan f done := by
  refine ⟨fun r hr => ?_, iff_of_true hdone h⟩
  rw [h] at hr
  cases hr

theorem some (hroute : f.route? r.id = some r) (hopen : ¬done) :
    Owned r.id r.purpose r.plan f done := by
  refine ⟨fun q hq => ?_, iff_of_false hopen fun h => ?_⟩
  · obtain rfl := Option.some.inj (hroute.symm.trans hq)
    exact ⟨rfl, rfl⟩
  · rw [hroute] at h
    cases h

theorem congr (h : Owned id purpose plan f done) (hiff : done ↔ done') :
    Owned id purpose plan f done' :=
  ⟨h.route, hiff.symm.trans h.gone⟩

end Owned

theorem Turn.owned (h : Turn now g r met out) :
    Owned r.id r.purpose r.plan out.1 (∃ result, out.2 = .finished result) := by
  cases h with
  | waits => exact .some (g.route?_keep r) nofun
  | refused e => exact .none (g.route?_forget r.id) ⟨_, rfl⟩
  | calls call => exact .some (g.route?_keep r) nofun
  | unsendable endpoint he => exact .none (route?_forget _ r.id) ⟨_, rfl⟩

theorem attempt_owned (h : f.route? id = none) (now : Nat) (purpose : Purpose) (plan : Plan)
    (node : Node) (rest : List Node) :
    Owned id purpose plan (f.attempt now id purpose plan node rest).1
      (∃ result, (f.attempt now id purpose plan node rest).2 = .finished result) := by
  rcases attempt_cases f now id purpose plan node rest with
    ⟨g, e, hanswer, -, hattempt⟩ | ⟨g, ticket, -, -, hturn⟩
  · rw [hattempt]
    have hg : (f.askBreaker now node).1 = g := by rw [hanswer]
    subst hg
    exact .none h ⟨_, rfl⟩
  · exact hturn.owned

/-- Going on from an attempt, a request is at one of the next nodes, or it is over. -/
theorem proceed_owned (now : Nat) (rest : List Node) (node : Node) {a : Attempt}
    (h : Owned id purpose plan f (∃ result, a = .finished result)) :
    Owned id purpose plan (proceed now id purpose plan rest node f a).1
      (∃ result, (proceed now id purpose plan rest node f a).2 = .ended result) := by
  induction rest generalizing f node a with
  | nil =>
      cases a with
      | queued => exact h.congr (iff_of_false nofun nofun)
      | calling call => exact h.congr (iff_of_false nofun nofun)
      | finished result => cases result <;> exact .none (h.gone.mp ⟨_, rfl⟩) ⟨_, rfl⟩
  | cons next rest ih =>
      cases a with
      | queued => exact h.congr (iff_of_false nofun nofun)
      | calling call => exact h.congr (iff_of_false nofun nofun)
      | finished result =>
          have hgone := h.gone.mp ⟨_, rfl⟩
          cases result with
          | ok value => exact .none hgone ⟨_, rfl⟩
          | error e =>
              cases he : e.countsAsEndpointFailure with
              | true =>
                  rw [proceed_of_counts he]
                  exact .none hgone ⟨_, rfl⟩
              | false =>
                  rw [proceed_next he]
                  exact ih next (attempt_owned hgone now purpose plan next rest)

theorem begin_owned (h : f.route? id = none) (now : Nat) (purpose : Purpose) (plan : Plan)
    (node : Node) (rest : List Node) :
    Owned id purpose plan (f.begin now id purpose plan node rest).1
      (∃ result, (f.begin now id purpose plan node rest).2 = .ended result) :=
  proceed_owned now rest node (attempt_owned h now purpose plan node rest)

theorem poolEvent_owned (f : Fleet) (now : Nat) (r : Route) (pe : PoolEvent Http.Endpoint) :
    Owned r.id r.purpose r.plan (f.poolEvent now r pe).1
      (∃ result, (f.poolEvent now r pe).2 = .ended result) := by
  have hturn := afterOpening_turn (f.poolReply now r.id pe).1 now r (f.poolReply now r.id pe).2
  rw [← afterPool_eq] at hturn
  exact proceed_owned now r.rest r.node hturn.owned

/-- **One event.**  The request that an event concerns keeps its purpose and its plan, and it is in
the fleet after the event exactly if it is not over and was not given up. -/
theorem step_owned (hc : f.concern? id e = some (purpose, plan)) (now : Nat) :
    Owned id purpose plan (f.step now id e).1
      (e = .drop ∨ ∃ result, (f.step now id e).2 = .ended result) := by
  unfold concern? at hc
  unfold Fleet.step
  cases hroute : f.route? id with
  | some r =>
      simp only [hroute, Option.some.injEq, Prod.mk.injEq] at hc ⊢
      obtain ⟨rfl, rfl⟩ := hc
      obtain rfl := id_of_route? hroute
      by_cases hdrop : e = .drop
      · subst hdrop
        exact .none (route?_forget _ r.id) (.inl rfl)
      refine Owned.congr ?_ (or_iff_right hdrop).symm
      have hstays : Owned r.id r.purpose r.plan f (∃ result, Progress.nothing = .ended result) :=
        .some hroute nofun
      cases e with
      | dispatch request => exact hstays
      | drive pair body => exact hstays
      | collect => exact poolEvent_owned f now r _
      | expire => exact poolEvent_owned f now r _
      | answered result =>
          simp only [stepRoute]
          split
          · exact proceed_owned now r.rest r.node (.none (route?_forget _ r.id) ⟨_, rfl⟩)
          · exact hstays
      | drop => exact absurd rfl hdrop
  | none =>
      simp only [hroute] at hc ⊢
      have hdrop : e ≠ .drop := by
        intro hdrop
        subst hdrop
        cases hc
      refine Owned.congr ?_ (or_iff_right hdrop).symm
      cases e with
      | dispatch request =>
          obtain ⟨rfl, rfl⟩ := Prod.mk.inj (Option.some.inj hc)
          simp only [dispatch]
          split
          · exact .none hroute ⟨_, rfl⟩
          · exact .none hroute ⟨_, rfl⟩
          · exact begin_owned hroute now _ _ _ _
      | drive pair body =>
          obtain ⟨rfl, rfl⟩ := Prod.mk.inj (Option.some.inj hc)
          simp only [drive]
          split
          · exact .none hroute ⟨_, rfl⟩
          · exact begin_owned hroute now _ _ _ _
      | _ => cases hc

/-- No event changes the slots. -/
theorem rotation_step (hwell : f.rotation.WellFormed) (now id : Nat) (e : RouteEvent) :
    (f.step now id e).1.rotation.WellFormed ∧
      (f.step now id e).1.rotation.slots = f.rotation.slots := by
  cases hc : f.concern? id e with
  | none =>
      rw [step_of_concern?_eq_none f now hc]
      exact ⟨hwell, rfl⟩
  | some concern =>
      obtain ⟨g, hextends, hsettles⟩ := step_settles f now hc
      rw [← hextends.rotation] at hwell ⊢
      exact (hsettles.keeps_rotation hwell).symm

/-- An event of a request of a slot does to the rotation what its result does, if there is one. -/
theorem step_slotOnly {i : Nat} (hwell : f.rotation.WellFormed) (hi : i < f.rotation.size)
    (hc : f.concern? id e = some (.slot i, plan)) (now : Nat) :
    SlotOnly i (f.step now id e).2.result? f.rotation (f.step now id e).1.rotation := by
  obtain ⟨g, hextends, hsettles⟩ := step_settles f now hc
  cases hp : (f.step now id e).2 with
  | ended result =>
      rw [hsettles.rotation_of_ended hp, hextends.rotation]
      exact Purpose.charge_slotOnly hwell hi now result
  | _ =>
      have hsame : (f.step now id e).1.rotation = f.rotation := by
        by_contra hne
        obtain ⟨result, hended⟩ := hsettles.ended_of_rotation_ne (hextends.rotation ▸ hne)
        rw [hp] at hended
        cases hended
      rw [hsame]
      exact .refl i f.rotation

end Fleet

/-! ## The course of a fan-out -/

/-- The slots that were given up, after an event of a slot's request. -/
def RouteEvent.noteGivenUp (i : Nat) (given : List Nat) : RouteEvent → List Nat
  | .drop => i :: given
  | _ => given

theorem RouteEvent.mem_noteGivenUp {e : RouteEvent} {i j : Nat} {given : List Nat} :
    j ∈ e.noteGivenUp i given ↔ (e = .drop ∧ j = i) ∨ j ∈ given := by
  cases e <;> simp [noteGivenUp]

/-- The course of a fan-out, with the slots whose requests have begun, those that were given up, what
it has heard, and the fleet.  The requests have the numbers from `first` on; `others` is what else
may happen. -/
inductive FanOutCourse (label : String) (body : Json) (first : Nat) (others : Fleet → Fleet → Prop)
    (f₀ : Fleet) : List Nat → List Nat → FanOut → Fleet → Prop
  | begun : FanOutCourse label body first others f₀ [] [] (.begun label f₀.rotation.pairs first) f₀
  | drives {started given : List Nat} {o : FanOut} {f : Fleet}
      (h : FanOutCourse label body first others f₀ started given o f) {i : Nat}
      {pair : KeyModelPair} (hpair : f₀.rotation.pair? i = some pair) (hnew : i ∉ started)
      (now : Nat) :
      FanOutCourse label body first others f₀ (i :: started) given
        (o.hear (first + i) (f.step now (first + i) (.drive pair body)).2)
        (f.step now (first + i) (.drive pair body)).1
  | goesOn {started given : List Nat} {o : FanOut} {f : Fleet}
      (h : FanOutCourse label body first others f₀ started given o f) {i : Nat} (hi : i ∈ started)
      (now : Nat) {e : RouteEvent} (he : e.Follows) :
      FanOutCourse label body first others f₀ started (e.noteGivenUp i given)
        (o.hear (first + i) (f.step now (first + i) e).2) (f.step now (first + i) e).1
  | meanwhile {started given : List Nat} {o : FanOut} {f g : Fleet}
      (h : FanOutCourse label body first others f₀ started given o f) (ho : others f g) :
      FanOutCourse label body first others f₀ started given o g

namespace Fleet

variable {id : Nat}

/-- What may happen beside the requests with numbers from `first` on: they stay where they are, and
the slots remain what they are. -/
structure Beside (first count : Nat) (f g : Fleet) : Prop where
  route : ∀ i < count, g.route? (first + i) = f.route? (first + i)
  rotation : f.rotation.WellFormed →
    g.rotation.WellFormed ∧ g.rotation.slots = f.rotation.slots

/-- Any event of another request is beside them. -/
theorem beside_step {first count : Nat} (h : ∀ i < count, id ≠ first + i) (f : Fleet) (now : Nat)
    (e : RouteEvent) : Beside first count f (f.step now id e).1 :=
  ⟨fun i hi => (Spares.step f now (h i hi).symm e).route, fun hwell => rotation_step hwell now id e⟩

/-- Where a fan-out stands.  A request of its slots is in the fleet with the purpose and the plan of
its slot if it has begun and is not over, and what has been heard is the result of one that is. -/
structure Underway (label : String) (body : Json) (first : Nat) (f₀ : Fleet) (started : List Nat)
    (o : FanOut) (f : Fleet) : Prop where
  slots : o.slots = (FanOut.begun label f₀.rotation.pairs first).slots
  places : ∀ i ∈ started, i < f₀.rotation.size
  routes : ∀ i pair, f₀.rotation.pair? i = some pair → ∀ r, f.route? (first + i) = some r →
    i ∈ started ∧ r.purpose = .slot i ∧ r.plan = drivePlan pair body
  heard : ∀ id ∈ o.results.map Prod.fst, (∃ i ∈ started, id = first + i) ∧ f.route? id = none
  once : (o.results.map Prod.fst).Nodup
  wellFormed : f.rotation.WellFormed
  sameSlots : f.rotation.slots = f₀.rotation.slots

section

variable {label : String} {body : Json} {first : Nat} {others : Fleet → Fleet → Prop}
  {f₀ f g : Fleet} {started begins given : List Nat} {o : FanOut} {i now : Nat}
  {pair : KeyModelPair} {e : RouteEvent}

theorem concern?_of_follows (hroute : f.route? id = none) (he : e.Follows) :
    f.concern? id e = none := by
  unfold concern?
  rw [hroute]
  cases e with
  | dispatch request => exact he.elim
  | drive pair body => exact he.elim
  | _ => rfl

namespace Underway

theorem begun (hwell : f₀.rotation.WellFormed)
    (hfresh : ∀ i < f₀.rotation.size, f₀.route? (first + i) = none) :
    Underway label body first f₀ [] (.begun label f₀.rotation.pairs first) f₀ := by
  refine ⟨rfl, nofun, fun i pair hpair r hr => ?_, nofun, List.nodup_nil, hwell, rfl⟩
  rw [hfresh i (Rotation.of_pair? hpair).1] at hr
  cases hr

/-- What an event of a slot's request concerns is nothing, or the slot. -/
theorem concern (h : Underway label body first f₀ started o f)
    (hpair : f₀.rotation.pair? i = some pair) (he : e.Follows ∨ e = .drive pair body) :
    f.concern? (first + i) e = none ∨
      f.concern? (first + i) e = some (.slot i, drivePlan pair body) := by
  cases hroute : f.route? (first + i) with
  | some r =>
      obtain ⟨-, hpurpose, hplan⟩ := h.routes i pair hpair r hroute
      right
      simp only [concern?, hroute, hpurpose, hplan]
  | none =>
      rcases he with he | rfl
      · exact .inl (concern?_of_follows hroute he)
      · right
        simp only [concern?, hroute, (Rotation.of_pair? hpair).2.1]

/-- The request of a slot begins. -/
theorem drive_concern (h : Underway label body first f₀ started o f)
    (hpair : f₀.rotation.pair? i = some pair) (hnew : i ∉ started) :
    f.concern? (first + i) (.drive pair body) = some (.slot i, drivePlan pair body) := by
  have hroute : f.route? (first + i) = none := by
    refine Option.eq_none_iff_forall_ne_some.mpr fun r hr => ?_
    exact hnew (h.routes i pair hpair r hr).1
  simp only [concern?, hroute, (Rotation.of_pair? hpair).2.1]

/-- The slots whose requests have begun may be noted earlier. -/
theorem mono (h : Underway label body first f₀ started o f) (hsub : ∀ j ∈ started, j ∈ begins)
    (hplaces : ∀ j ∈ begins, j < f₀.rotation.size) :
    Underway label body first f₀ begins o f where
  slots := h.slots
  places := hplaces
  routes j pair hpair r hr :=
    let ⟨hj, hpurpose, hplan⟩ := h.routes j pair hpair r hr
    ⟨hsub j hj, hpurpose, hplan⟩
  heard id hid :=
    let ⟨⟨j, hj, heq⟩, hgone⟩ := h.heard id hid
    ⟨⟨j, hsub j hj, heq⟩, hgone⟩
  once := h.once
  wellFormed := h.wellFormed
  sameSlots := h.sameSlots

/-- **Step theorem.**  An event of a slot's request, of which no result has been heard yet. -/
theorem own (h : Underway label body first f₀ started o f)
    (hpair : f₀.rotation.pair? i = some pair) (hi : i ∈ started)
    (hc : f.concern? (first + i) e = some (.slot i, drivePlan pair body))
    (hnew : first + i ∉ o.results.map Prod.fst) (now : Nat) :
    Underway label body first f₀ started (o.hear (first + i) (f.step now (first + i) e).2)
      (f.step now (first + i) e).1 := by
  have howned := step_owned hc now
  have hspares {id : Nat} (hid : id ≠ first + i) :
      (f.step now (first + i) e).1.route? id = f.route? id :=
    (Spares.step f now hid e).route
  have hold (id : Nat) (hid : id ∈ o.results.map Prod.fst) :
      (∃ j ∈ started, id = first + j) ∧ (f.step now (first + i) e).1.route? id = none := by
    obtain ⟨hbegun, hgone⟩ := h.heard id hid
    have hne : id ≠ first + i := fun heq => hnew (heq ▸ hid)
    exact ⟨hbegun, (hspares hne).trans hgone⟩
  obtain ⟨hwell, hslots⟩ := rotation_step h.wellFormed now (first + i) e
  refine ⟨(FanOut.slots_hear o _ _).trans h.slots, h.places, ?_, ?_, ?_, hwell,
    hslots.trans h.sameSlots⟩
  · intro j other hother r hr
    by_cases hj : j = i
    · subst hj
      obtain rfl := Option.some.inj (hpair.symm.trans hother)
      exact ⟨hi, howned.route r hr⟩
    · rw [hspares (by omega)] at hr
      exact h.routes j other hother r hr
  · cases hp : (f.step now (first + i) e).2 with
    | ended result =>
        rw [FanOut.results_hear_ended h.slots hpair, List.map_append]
        intro id hid
        rcases List.mem_append.mp hid with hid | hid
        · exact hold id hid
        · obtain rfl := List.mem_singleton.mp hid
          exact ⟨⟨i, hi, rfl⟩, howned.gone.mp (.inr ⟨result, hp⟩)⟩
    | _ => exact hold
  · cases (f.step now (first + i) e).2 with
    | ended result =>
        rw [FanOut.results_hear_ended h.slots hpair, List.map_append]
        refine List.nodup_append.mpr ⟨h.once, List.nodup_singleton _, fun id hid id' hid' heq => ?_⟩
        have hlast : id' = first + i := List.mem_singleton.mp hid'
        rw [heq, hlast] at hid
        exact hnew hid
    | _ => exact h.once

/-- A slot's request is heard, or it is in the fleet, unless it is given up. -/
theorem stays (h : Underway label body first f₀ started o f)
    (hpair : f₀.rotation.pair? i = some pair)
    (hc : f.concern? (first + i) e = some (.slot i, drivePlan pair body)) (hdrop : e ≠ .drop)
    (now : Nat) :
    first + i ∈ (o.hear (first + i) (f.step now (first + i) e).2).results.map Prod.fst ∨
      (f.step now (first + i) e).1.route? (first + i) ≠ none := by
  have howned := step_owned hc now
  by_cases hended : ∃ result, (f.step now (first + i) e).2 = .ended result
  · left
    obtain ⟨result, hp⟩ := hended
    rw [hp, FanOut.results_hear_ended h.slots hpair, List.map_append]
    exact List.mem_append_right _ List.mem_cons_self
  · exact .inr fun hgone => (howned.gone.mpr hgone).elim hdrop hended

/-- An event of a slot's request leaves the other slots alone. -/
theorem slotOnly (h : Underway label body first f₀ started o f)
    (hpair : f₀.rotation.pair? i = some pair) (he : e.Follows ∨ e = .drive pair body) (now : Nat) :
    SlotOnly i (f.step now (first + i) e).2.result? f.rotation
      (f.step now (first + i) e).1.rotation := by
  rcases h.concern hpair he with hc | hc
  · rw [step_of_concern?_eq_none f now hc]
    exact .refl i f.rotation
  · have hsize : f.rotation.size = f₀.rotation.size := congrArg List.length h.sameSlots
    exact step_slotOnly h.wellFormed (hsize ▸ (Rotation.of_pair? hpair).1) hc now

/-- When the result of a slot has been heard, nothing more happens to its request. -/
theorem silent (h : Underway label body first f₀ started o f)
    (hin : first + i ∈ o.results.map Prod.fst) (he : e.Follows) (now : Nat) :
    f.step now (first + i) e = (f, .nothing) :=
  step_of_concern?_eq_none f now (concern?_of_follows (h.heard _ hin).2 he)

/-- The record of a slot takes the result of the slot, when it is heard, and no other. -/
theorem recorded (h : Underway label body first f₀ started o f)
    (hpair : f₀.rotation.pair? i = some pair) (he : e.Follows ∨ e = .drive pair body) (now : Nat)
    (hsilent : first + i ∈ o.results.map Prod.fst → f.step now (first + i) e = (f, .nothing))
    {j : Nat} (hrec : Recorded (f₀.rotation.record? j) (o.results.lookup (first + j))
      (f.rotation.record? j)) :
    Recorded (f₀.rotation.record? j)
      ((o.hear (first + i) (f.step now (first + i) e).2).results.lookup (first + j))
      ((f.step now (first + i) e).1.rotation.record? j) := by
  by_cases hin : first + i ∈ o.results.map Prod.fst
  · rw [hsilent hin]
    exact hrec
  · have honly := h.slotOnly hpair he now
    by_cases hj : j = i
    · subst hj
      have hnone : o.results.lookup (first + j) = none :=
        FanOut.lookup_hear_self h.slots hpair hin .nothing
      rw [hnone] at hrec
      have hsame : f.rotation.record? j = f₀.rotation.record? j := hrec
      rw [FanOut.lookup_hear_self h.slots hpair hin, ← hsame]
      exact honly.own
    · rw [FanOut.lookup_hear_of_ne (by omega), honly.others j hj]
      exact hrec

/-- What happens beside the fan-out leaves it where it is. -/
theorem beside (h : Underway label body first f₀ started o f)
    (hb : Beside first f₀.rotation.size f g) : Underway label body first f₀ started o g := by
  obtain ⟨hwell, hslots⟩ := hb.rotation h.wellFormed
  refine ⟨h.slots, h.places, fun i pair hpair r hr => ?_, fun id hid => ?_, h.once, hwell,
    hslots.trans h.sameSlots⟩
  · rw [hb.route i (Rotation.of_pair? hpair).1] at hr
    exact h.routes i pair hpair r hr
  · obtain ⟨⟨i, hi, rfl⟩, hgone⟩ := h.heard id hid
    exact ⟨⟨i, hi, rfl⟩, (hb.route i (h.places i hi)).trans hgone⟩

end Underway

section

variable (hwell : f₀.rotation.WellFormed)
  (hfresh : ∀ i < f₀.rotation.size, f₀.route? (first + i) = none)
  (hothers : ∀ g k, others g k → Beside first f₀.rotation.size g k)

include hwell hfresh hothers

/-- **Run theorem.**  However a fan-out goes on, it stands so. -/
theorem underway_of_course (h : FanOutCourse label body first others f₀ started given o f) :
    Underway label body first f₀ started o f := by
  induction h with
  | begun => exact .begun hwell hfresh
  | @drives started given o f _ i pair hpair hnew now ih =>
      have hi := (Rotation.of_pair? hpair).1
      have hbegun : Underway label body first f₀ (i :: started) o f := by
        refine ih.mono (fun j hj => List.mem_cons_of_mem _ hj) fun j hj => ?_
        rcases List.mem_cons.mp hj with rfl | hj
        · exact hi
        · exact ih.places j hj
      have hc := ih.drive_concern hpair hnew
      refine hbegun.own hpair List.mem_cons_self hc (fun hin => ?_) now
      obtain ⟨⟨j, hj, heq⟩, -⟩ := ih.heard _ hin
      obtain rfl : i = j := Nat.add_left_cancel heq
      exact hnew hj
  | @goesOn started given o f _ i hi now e he ih =>
      obtain ⟨pair, hpair⟩ := Rotation.exists_pair? (ih.places i hi)
      rcases ih.concern hpair (.inl he) with hc | hc
      · rw [step_of_concern?_eq_none f now hc]
        exact ih
      · refine ih.own hpair hi hc (fun hin => ?_) now
        rw [concern?_of_follows (ih.heard _ hin).2 he] at hc
        cases hc
  | meanwhile _ ho ih => exact ih.beside (hothers _ _ ho)

/-- Nothing is lost: a slot whose request has begun is heard, or its request is in the fleet, unless
it was given up. -/
theorem course_loses_nothing (h : FanOutCourse label body first others f₀ started given o f) :
    ∀ j ∈ started, j ∉ given →
      first + j ∈ o.results.map Prod.fst ∨ f.route? (first + j) ≠ none := by
  induction h with
  | begun => nofun
  | @drives started given o f hbefore i pair hpair hnew now ih =>
      intro j hj hgiven
      have hunder := underway_of_course hwell hfresh hothers hbefore
      by_cases hji : j = i
      · subst hji
        exact hunder.stays hpair (hunder.drive_concern hpair hnew) nofun now
      · have hj := (List.mem_cons.mp hj).resolve_left hji
        rw [(Spares.step f now (by omega) _).route]
        exact (ih j hj hgiven).imp_left fun hin => FanOut.mem_results_hear hin _
  | @goesOn started given o f hbefore i hi now e he ih =>
      intro j hj hgiven
      rw [RouteEvent.mem_noteGivenUp, not_or, not_and] at hgiven
      obtain ⟨hdrop, hgiven⟩ := hgiven
      have hunder := underway_of_course hwell hfresh hothers hbefore
      by_cases hji : j = i
      · subst hji
        rcases ih j hj hgiven with hin | hroute
        · exact .inl (FanOut.mem_results_hear hin _)
        · obtain ⟨pair, hpair⟩ := Rotation.exists_pair? (hunder.places j hj)
          rcases hunder.concern hpair (.inl he) with hc | hc
          · rw [step_of_concern?_eq_none f now hc]
            exact .inr hroute
          · exact hunder.stays hpair hc (fun hdropped => hdrop hdropped rfl) now
      · rw [(Spares.step f now (by omega) _).route]
        exact (ih j hj hgiven).imp_left fun hin => FanOut.mem_results_hear hin _
  | meanwhile hbefore ho ih =>
      intro j hj hgiven
      have hunder := underway_of_course hwell hfresh hothers hbefore
      rw [(hothers _ _ ho).route j (hunder.places j hj)]
      exact ih j hj hgiven

/-- The active place stays, unless others move it. -/
theorem course_keeps_active
    (hkeeps : ∀ g k, others g k → k.rotation.active = g.rotation.active ∧
      k.rotation.consecutive = g.rotation.consecutive)
    (h : FanOutCourse label body first others f₀ started given o f) :
    f.rotation.active = f₀.rotation.active ∧
      f.rotation.consecutive = f₀.rotation.consecutive := by
  induction h with
  | begun => exact ⟨rfl, rfl⟩
  | @drives started given o f hbefore i pair hpair hnew now ih =>
      have honly := (underway_of_course hwell hfresh hothers hbefore).slotOnly hpair (.inr rfl) now
      exact ⟨honly.active.trans ih.1, honly.consecutive.trans ih.2⟩
  | @goesOn started given o f hbefore i hi now e he ih =>
      have hunder := underway_of_course hwell hfresh hothers hbefore
      obtain ⟨pair, hpair⟩ := Rotation.exists_pair? (hunder.places i hi)
      have honly := hunder.slotOnly hpair (.inl he) now
      exact ⟨honly.active.trans ih.1, honly.consecutive.trans ih.2⟩
  | meanwhile _ ho ih =>
      obtain ⟨hactive, hconsecutive⟩ := hkeeps _ _ ho
      exact ⟨hactive.trans ih.1, hconsecutive.trans ih.2⟩

/-- The record of a slot takes the result of the slot, unless others change it. -/
theorem course_records (j : Nat)
    (hkeeps : ∀ g k, others g k → k.rotation.record? j = g.rotation.record? j)
    (h : FanOutCourse label body first others f₀ started given o f) :
    Recorded (f₀.rotation.record? j) (o.results.lookup (first + j)) (f.rotation.record? j) := by
  induction h with
  | begun => rfl
  | @drives started given o f hbefore i pair hpair hnew now ih =>
      have hunder := underway_of_course hwell hfresh hothers hbefore
      refine hunder.recorded hpair (.inr rfl) now (fun hin => ?_) ih
      obtain ⟨⟨k, hk, heq⟩, -⟩ := hunder.heard _ hin
      obtain rfl : i = k := Nat.add_left_cancel heq
      exact absurd hk hnew
  | @goesOn started given o f hbefore i hi now e he ih =>
      have hunder := underway_of_course hwell hfresh hothers hbefore
      obtain ⟨pair, hpair⟩ := Rotation.exists_pair? (hunder.places i hi)
      exact hunder.recorded hpair (.inl he) now (fun hin => hunder.silent hin he now) ih
  | meanwhile _ ho ih =>
      rw [hkeeps _ _ ho]
      exact ih

end

/-- **Fan-outs keep slots apart.**  However the requests of a fan-out begin, wait and end, and
whatever happens beside them:

* An event of a slot's request leaves the active place and the failures in a row alone, and of the
  records it changes that of the slot at most, and only with the result.
* A slot is heard once at most, and it is heard as soon as its request is over, unless that was
  given up.  When all are heard, and not before, the fan-out hands over one result for each slot, the
  one heard from it, with the slot's place and model, in their order.
* The active place and the failures in a row stay what they were, unless others change them.
* The record of a slot is clear after an answer, has one failure more after an endpoint failure, and
  is what it was otherwise, unless others change it. -/
theorem course_isolates_slots (hwell : f₀.rotation.WellFormed)
    (hfresh : ∀ i < f₀.rotation.size, f₀.route? (first + i) = none)
    (hothers : ∀ g k, others g k → Beside first f₀.rotation.size g k)
    (h : FanOutCourse label body first others f₀ started given o f) :
    (∀ i pair, f₀.rotation.pair? i = some pair →
      ∀ now (e : RouteEvent), e.Follows ∨ e = .drive pair body →
        SlotOnly i (f.step now (first + i) e).2.result? f.rotation
          (f.step now (first + i) e).1.rotation) ∧
    ((o.results.map Prod.fst).Nodup ∧
      (∀ i ∈ started, i ∉ given →
        ((o.results.lookup (first + i)).isSome ↔ f.route? (first + i) = none)) ∧
      (o.results?.isSome ↔ ∀ i < f₀.rotation.size, (o.results.lookup (first + i)).isSome) ∧
      ∀ results, o.results? = some results → results.length = f₀.rotation.size ∧
        ∀ i < f₀.rotation.size, ∃ result, o.results.lookup (first + i) = some result ∧
          results[i]? = some ⟨i, f₀.rotation.modelAt i, result⟩) ∧
    ((∀ g k, others g k → k.rotation.active = g.rotation.active ∧
        k.rotation.consecutive = g.rotation.consecutive) →
      f.rotation.active = f₀.rotation.active ∧
        f.rotation.consecutive = f₀.rotation.consecutive) ∧
    ∀ i < f₀.rotation.size,
      (∀ g k, others g k → k.rotation.record? i = g.rotation.record? i) →
        Recorded (f₀.rotation.record? i) (o.results.lookup (first + i))
          (f.rotation.record? i) := by
  have hunder := underway_of_course hwell hfresh hothers h
  refine ⟨?_, ⟨hunder.once, ?_, FanOut.isSome_results? hunder.slots, ?_⟩, ?_, ?_⟩
  · intro i pair hpair now e he
    exact hunder.slotOnly hpair he now
  · intro i hi hgiven
    rw [Keyed.lookup_isSome]
    refine ⟨fun hin => (hunder.heard _ hin).2, fun hgone => ?_⟩
    exact (course_loses_nothing hwell hfresh hothers h i hi hgiven).resolve_right
      (not_not_intro hgone)
  · intro results hresults
    exact FanOut.of_results? hunder.slots hresults
  · intro hkeeps
    exact course_keeps_active hwell hfresh hothers hkeeps h
  · intro i _ hkeeps
    exact course_records hwell hfresh hothers i hkeeps h

end

/-- An answer that is an endpoint failure. -/
def busyAnswer : RouteEvent :=
  .answered (Http.Endpoint.readChat ⟨503, "busy"⟩)

/-- The two slots of a fleet are driven, and answered in the opposite order. -/
theorem course_isolates_slots_reversed :
    let others (g k : Fleet) := ∃ now, k = { g with registry := g.registry.fireDue now }
    let drive (i : Nat) (secret : String) : RouteEvent := .drive ⟨i, ⟨secret⟩, "m"⟩ (.obj [])
    let (f₁, p₁) := twoCredentials.step 0 1 (drive 0 "sk-first")
    let (f₂, p₂) := f₁.step 0 2 (drive 1 "sk-second")
    let (f₃, p₃) := f₂.step 1 2 busyAnswer
    let (f, p) := f₃.step 2 1 emptyAnswer
    let begun := FanOut.begun "a" twoCredentials.rotation.pairs 1
    let o := (((begun.hear 1 p₁).hear 2 p₂).hear 2 p₃).hear 1 p
    FanOutCourse "a" (.obj []) 1 others twoCredentials [1, 0] [] o f ∧
      o.results?.isSome ∧ f.rotation.active = twoCredentials.rotation.active ∧
      f.rotation.consecutive = twoCredentials.rotation.consecutive ∧
      Recorded (twoCredentials.rotation.record? 0) (o.results.lookup 1) (f.rotation.record? 0) ∧
      Recorded (twoCredentials.rotation.record? 1) (o.results.lookup 2) (f.rotation.record? 1) ∧
      f.rotation.records = [none, some ⟨2, 1⟩] := by
  intro others drive
  dsimp only
  have hwell : twoCredentials.rotation.WellFormed := ⟨rfl, fun _ => by decide⟩
  have hfresh : ∀ i < twoCredentials.rotation.size, twoCredentials.route? (1 + i) = none :=
    fun _ _ => rfl
  have hothers : ∀ g k, others g k → Beside 1 twoCredentials.rotation.size g k := by
    rintro g k ⟨now, rfl⟩
    exact ⟨fun _ _ => rfl, fun h => ⟨h, rfl⟩⟩
  have hbegun : FanOutCourse "a" (.obj []) 1 others twoCredentials [] [] _ twoCredentials := .begun
  have hfirst : twoCredentials.rotation.pair? 0 = some ⟨0, ⟨"sk-first"⟩, "m"⟩ := rfl
  have hsecond : twoCredentials.rotation.pair? 1 = some ⟨1, ⟨"sk-second"⟩, "m"⟩ := rfl
  have hbusy : busyAnswer.Follows := .inl ⟨_, rfl⟩
  have hempty : emptyAnswer.Follows := .inl ⟨_, rfl⟩
  have hdriven := (hbegun.drives hfirst nofun 0).drives hsecond (by decide) 0
  have hcourse := (hdriven.goesOn (i := 1) (by decide) 1 hbusy).goesOn (i := 0) (by decide) 2 hempty
  obtain ⟨-, -, hactive, hrecords⟩ := course_isolates_slots hwell hfresh hothers hcourse
  obtain ⟨hact, hconsecutive⟩ := hactive fun g k ⟨now, hk⟩ => by rw [hk]; exact ⟨rfl, rfl⟩
  have hrecord (i : Nat) (hi : i < 2) := hrecords i hi fun g k ⟨now, hk⟩ => by rw [hk]
  refine ⟨hcourse, ?_, hact, hconsecutive, hrecord 0 (by decide), hrecord 1 (by decide), ?_⟩
  · decide +kernel
  · decide +kernel

end Fleet

end InferenceRouting
