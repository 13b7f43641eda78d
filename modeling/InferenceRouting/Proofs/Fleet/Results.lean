import InferenceRouting.Fleet.Session
import InferenceRouting.Proofs.Fleet.Course
import Mathlib.Data.List.Forall2

/-!
# The results of a fan-out

A fan-out has a slot for each slot of the rotation, in their order.  It hears of the requests of its
slots by their numbers (`hear`), and it hands over its results once there is one for each slot
(`isSome_results?`, `of_results?`).  `fanOut_begins` and `finish_hears` say that a session begins,
informs and ends its fan-outs so.
-/

namespace InferenceRouting

open Credential (KeyModelPair Rotation)

/-! ## The slots of a rotation -/

namespace Credential.Rotation

variable {r : Rotation} {i : Nat} {pair : KeyModelPair}

/-- A slot that is found has a place in the rotation, and is told its place and model. -/
theorem of_pair? (h : r.pair? i = some pair) :
    i < r.size ∧ pair.index = i ∧ pair.model = r.modelAt i := by
  obtain ⟨s, hs, rfl⟩ := Option.map_eq_some_iff.mp h
  exact ⟨(List.getElem?_eq_some_iff.mp hs).1, rfl, rfl⟩

/-- There is a slot at each place. -/
theorem exists_pair? (h : i < r.size) : ∃ pair, r.pair? i = some pair :=
  ⟨_, by rw [pair?, List.getElem?_eq_getElem h]; rfl⟩

/-- The slots of a rotation, each with its place. -/
theorem pairs_eq (r : Rotation) :
    r.pairs = r.slots.zipIdx.map fun c => ⟨c.2, c.1.secret, r.modelAt c.2⟩ := by
  have hrange : List.range r.size = r.slots.zipIdx.map Prod.snd := by
    rw [List.zipIdx_map_snd, List.range_eq_range']
    rfl
  rw [pairs, hrange, List.filterMap_map, List.filterMap_eq_map_iff_forall_eq_some]
  intro c hc
  have hget : r.slots[c.2]? = some c.1 := List.mk_mem_zipIdx_iff_getElem?.mp hc
  simp [pair?, hget]

theorem pairs_getElem? (r : Rotation) (i : Nat) : r.pairs[i]? = r.pair? i := by
  rw [pairs_eq, List.getElem?_map, List.getElem?_zipIdx, Option.map_map, pair?]
  simp only [Nat.zero_add]
  rfl

theorem length_pairs (r : Rotation) : r.pairs.length = r.size := by
  rw [pairs_eq, List.length_map, List.length_zipIdx, size]

end Credential.Rotation

/-! ## What is heard -/

namespace FanOut

/-- A fan-out whose requests have the numbers from `first` on. -/
def begun (label : String) (pairs : List KeyModelPair) (first : Nat) : FanOut where
  label
  slots := pairs.zipIdx.map fun (pair, i) => (first + i, pair)

/-- What a fan-out learns from the progress of a request. -/
def hear (o : FanOut) (id : Nat) : Progress → FanOut
  | .ended result => FleetSession.addResult id result o
  | _ => o

variable {o : FanOut} {r : Rotation} {label : String} {first i id : Nat} {pair : KeyModelPair}

/-- What is heard changes no slot. -/
theorem slots_hear (o : FanOut) (id : Nat) (p : Progress) : (o.hear id p).slots = o.slots := by
  cases p with
  | ended result =>
      simp only [hear, FleetSession.addResult]
      split <;> rfl
  | _ => rfl

/-- The slots of a fan-out are those of the rotation, numbered in their order. -/
theorem slots_begun_getElem? (label : String) (r : Rotation) (first i : Nat) :
    (begun label r.pairs first).slots[i]? = (r.pair? i).map fun pair => (first + i, pair) := by
  simp only [begun, List.getElem?_map, List.getElem?_zipIdx, Rotation.pairs_getElem?,
    Option.map_map, Nat.zero_add]
  rfl

theorem mem_slots_begun :
    (id, pair) ∈ (begun label r.pairs first).slots ↔
      ∃ i, id = first + i ∧ r.pair? i = some pair := by
  rw [List.mem_iff_getElem?]
  constructor
  · rintro ⟨i, hi⟩
    rw [slots_begun_getElem?, Option.map_eq_some_iff] at hi
    obtain ⟨pair', hpair, heq⟩ := hi
    cases heq
    exact ⟨i, rfl, hpair⟩
  · rintro ⟨i, rfl, hpair⟩
    exact ⟨i, by rw [slots_begun_getElem?, hpair]; rfl⟩

/-- What has been heard stays. -/
theorem mem_results_hear {k : Nat} (h : k ∈ o.results.map Prod.fst) (p : Progress) :
    k ∈ (o.hear id p).results.map Prod.fst := by
  cases p with
  | ended result =>
      simp only [hear, FleetSession.addResult]
      split
      · rw [List.map_append]
        exact List.mem_append_left _ h
      · exact h
  | _ => exact h

/-- A result of a slot is heard. -/
theorem results_hear_ended (hslots : o.slots = (begun label r.pairs first).slots)
    (hpair : r.pair? i = some pair) (result : Except RoutingError InferenceAnswer) :
    (o.hear (first + i) (.ended result)).results = o.results ++ [(first + i, result)] := by
  have hsome : (o.slots.lookup (first + i)).isSome := by
    rw [hslots, Keyed.lookup_isSome]
    exact List.mem_map_of_mem (mem_slots_begun.mpr ⟨i, rfl, hpair⟩)
  simp only [hear, FleetSession.addResult, hsome, if_true]

/-- The first result of a request is the one that counts. -/
theorem lookup_hear_self (hslots : o.slots = (begun label r.pairs first).slots)
    (hpair : r.pair? i = some pair) (hnew : first + i ∉ o.results.map Prod.fst) (p : Progress) :
    (o.hear (first + i) p).results.lookup (first + i) = p.result? := by
  have hnone : o.results.lookup (first + i) = none := by
    refine List.lookup_eq_none_iff.mpr fun c hc => ?_
    rw [bne_iff_ne]
    intro heq
    rw [heq] at hnew
    exact hnew (List.mem_map_of_mem hc)
  cases p with
  | ended result =>
      rw [results_hear_ended hslots hpair, List.lookup_append, hnone, List.lookup_cons,
        beq_self_eq_true]
      rfl
  | _ => exact hnone

/-- The results of others are as they were. -/
theorem lookup_hear_of_ne {k : Nat} (h : k ≠ id) (o : FanOut) (p : Progress) :
    (o.hear id p).results.lookup k = o.results.lookup k := by
  cases p with
  | ended result =>
      simp only [hear, FleetSession.addResult]
      split
      · rw [List.lookup_append, List.lookup_cons, beq_false_of_ne h]
        exact Option.or_none
      · rfl
  | _ => rfl

/-! ## What is handed over -/

/-- A list is read when all its items are, each by itself. -/
theorem mapM_eq_some_iff {α β : Type} {read : α → Option β} {l : List α} {m : List β} :
    l.mapM read = some m ↔ List.Forall₂ (fun a b => read a = some b) l m := by
  induction l generalizing m with
  | nil =>
      rw [List.mapM_nil, List.forall₂_nil_left_iff]
      exact ⟨fun h => (Option.some.inj h).symm, fun h => congrArg some h.symm⟩
  | cons a rest ih =>
      simp only [List.mapM_cons, bind, pure, Option.bind_eq_some_iff, Option.some.injEq, ih]
      constructor
      · rintro ⟨b, hb, bs, hbs, rfl⟩
        exact .cons hb hbs
      · intro h
        cases h with
        | cons hb hbs => exact ⟨_, hb, _, hbs, rfl⟩

theorem isSome_mapM_iff {α β : Type} {read : α → Option β} {l : List α} :
    (l.mapM read).isSome ↔ ∀ a ∈ l, (read a).isSome := by
  induction l with
  | nil => exact iff_of_true rfl nofun
  | cons a rest ih =>
      rw [List.forall_mem_cons, ← ih, List.mapM_cons]
      cases read a with
      | none => simp
      | some b => cases rest.mapM read <;> simp

/-- What is handed over is one result for each slot, in their order. -/
theorem of_results? {results : List SlotResult}
    (hslots : o.slots = (begun label r.pairs first).slots) (h : o.results? = some results) :
    results.length = r.size ∧ ∀ i < r.size, ∃ result,
      o.results.lookup (first + i) = some result ∧
        results[i]? = some ⟨i, r.modelAt i, result⟩ := by
  obtain ⟨hlength, hget⟩ := List.forall₂_iff_get.mp (mapM_eq_some_iff.mp h)
  have hcount : o.slots.length = r.size := by
    rw [hslots, begun, List.length_map, List.length_zipIdx, Rotation.length_pairs]
  refine ⟨hlength.symm.trans hcount, fun i hi => ?_⟩
  obtain ⟨pair, hpair⟩ := Rotation.exists_pair? hi
  obtain ⟨-, hindex, hmodel⟩ := Rotation.of_pair? hpair
  have hslot : o.slots[i]? = some (first + i, pair) := by
    rw [hslots, slots_begun_getElem?, hpair]
    rfl
  obtain ⟨hin, heq⟩ := List.getElem?_eq_some_iff.mp hslot
  have hread := hget i hin (hlength ▸ hin)
  simp only [List.get_eq_getElem, heq, Option.map_eq_some_iff] at hread
  obtain ⟨result, hresult, hshown⟩ := hread
  refine ⟨result, hresult, ?_⟩
  rw [List.getElem?_eq_getElem (hlength ▸ hin), ← hshown, hindex, hmodel]

/-- It is handed over once there is a result for each slot. -/
theorem isSome_results? (hslots : o.slots = (begun label r.pairs first).slots) :
    o.results?.isSome ↔ ∀ i < r.size, (o.results.lookup (first + i)).isSome := by
  unfold results?
  rw [isSome_mapM_iff, hslots]
  constructor
  · intro h i hi
    obtain ⟨pair, hpair⟩ := Rotation.exists_pair? hi
    simpa using h (first + i, pair) (mem_slots_begun.mpr ⟨i, rfl, hpair⟩)
  · rintro h ⟨id, pair⟩ hslot
    obtain ⟨i, rfl, hpair⟩ := mem_slots_begun.mp hslot
    simpa using h i (Rotation.of_pair? hpair).1

end FanOut

/-! ## The fan-outs of a session -/

namespace FleetSession

variable {s : FleetSession} {t : FleetTask} {pair : KeyModelPair} {body : Json}

/-- Going over the fan-outs, those that have heard all are noted and the others are kept. -/
theorem foldl_collect {collect : FleetSession → FanOut → FleetSession}
    (hkeep : ∀ s o, o.results? = none → collect s o = { s with fanOuts := s.fanOuts ++ [o] })
    (hnote : ∀ s o results, o.results? = some results →
      collect s o = s.note o.label (.fannedOut results)) (l : List FanOut) (s : FleetSession) :
    l.foldl collect s = { s with
      fanOuts := s.fanOuts ++ l.filter (·.results?.isNone)
      finished := s.finished ++ l.filterMap fun o =>
        o.results?.map fun results => (o.label, .fannedOut results) } := by
  induction l generalizing s with
  | nil => simp only [List.foldl_nil, List.filter_nil, List.filterMap_nil, List.append_nil]
  | cons o rest ih =>
      rw [List.foldl_cons, ih]
      cases hresults : o.results? with
      | none => simp [hkeep s o hresults, hresults]
      | some results => simp [hnote s o results hresults, note, hresults]

/-- What is kept of the fan-outs, and what is handed over. -/
theorem collectFanOuts_eq (s : FleetSession) :
    s.collectFanOuts = { s with
      fanOuts := s.fanOuts.filter (·.results?.isNone)
      finished := s.finished ++ s.fanOuts.filterMap fun o =>
        o.results?.map fun results => (o.label, .fannedOut results) } := by
  unfold collectFanOuts
  rw [foldl_collect]
  · rw [List.nil_append]
  · intro s o hresults
    rw [hresults]
  · intro s o results hresults
    rw [hresults]

/-- The task of a slot. -/
def slotTask (label : String) (body : Json) (slot : Nat × KeyModelPair) : FleetTask :=
  { id := slot.1, label, work := .drive slot.2 body }

/-- Waking a task changes nothing but who is awake. -/
theorem wake_fields (s : FleetSession) (id : Nat) :
    (s.wake id).fleet = s.fleet ∧ (s.wake id).tasks = s.tasks ∧ (s.wake id).fanOuts = s.fanOuts ∧
      (s.wake id).nextTask = s.nextTask := by
  unfold wake
  split <;> exact ⟨rfl, rfl, rfl, rfl⟩

/-- The slots from a place on begin, each with the next number. -/
theorem spawn_slots (label : String) (body : Json) (pairs : List KeyModelPair) (first i : Nat)
    (h : s.nextTask = first + i) :
    let slots := (pairs.zipIdx i).map fun c => (first + c.2, c.1)
    let begun := slots.foldl (fun s slot => s.spawn label (.drive slot.2 body)) s
    begun.fleet = s.fleet ∧ begun.fanOuts = s.fanOuts ∧
      begun.tasks = s.tasks ++ slots.map (slotTask label body) := by
  induction pairs generalizing s i with
  | nil => exact ⟨rfl, rfl, (List.append_nil s.tasks).symm⟩
  | cons pair rest ih =>
      let t := slotTask label body (first + i, pair)
      have hspawn : s.spawn label (.drive pair body) =
          { s with tasks := s.tasks ++ [t], nextTask := s.nextTask + 1 }.wake t.id := by
        simp only [spawn, slotTask, h, t]
      obtain ⟨hfleet, htasks, hfanOuts, hnext⟩ :=
        wake_fields { s with tasks := s.tasks ++ [t], nextTask := s.nextTask + 1 } t.id
      rw [← hspawn] at hfleet htasks hfanOuts hnext
      obtain ⟨hfleet', hfanOuts', htasks'⟩ :=
        ih (i + 1) (hnext.trans (congrArg (· + 1) h))
      simp only [List.zipIdx_cons, List.map_cons, List.foldl_cons]
      refine ⟨hfleet'.trans hfleet, hfanOuts'.trans hfanOuts, htasks'.trans ?_⟩
      rw [htasks, List.append_assoc]
      rfl

/-- A fan-out begins with a task for each slot, and is handed over at once if there is none. -/
theorem fanOut_begins (s : FleetSession) (label : String) (body : Json) :
    let o := FanOut.begun label s.fleet.rotation.pairs s.nextTask
    (s.fanOut label body).fleet = s.fleet ∧
      (s.fanOut label body).tasks = s.tasks ++ o.slots.map (slotTask label body) ∧
      (s.fanOut label body).fanOuts = (s.fanOuts ++ [o]).filter (·.results?.isNone) := by
  obtain ⟨hfleet, hfanOuts, htasks⟩ :=
    spawn_slots (s := s) label body s.fleet.rotation.pairs s.nextTask 0 rfl
  unfold fanOut
  rw [collectFanOuts_eq]
  refine ⟨hfleet, htasks, ?_⟩
  exact congrArg (fun l => (l ++ [_]).filter fun o : FanOut => o.results?.isNone) hfanOuts

/-- The end of a slot's task is heard by the fan-outs, and those that have heard all are handed
over. -/
theorem finish_hears (s : FleetSession) (hwork : t.work = .drive pair body)
    (result : Except RoutingError InferenceAnswer) :
    let heard := s.fanOuts.map (·.hear t.id (.ended result))
    (s.finish t result).fleet = s.fleet ∧
      (s.finish t result).fanOuts = heard.filter (·.results?.isNone) ∧
      (s.finish t result).finished = s.finished ++ heard.filterMap fun o =>
        o.results?.map fun results => (o.label, .fannedOut results) := by
  unfold finish
  simp only [hwork]
  rw [collectFanOuts_eq]
  exact ⟨rfl, rfl, rfl⟩

end FleetSession

end InferenceRouting
