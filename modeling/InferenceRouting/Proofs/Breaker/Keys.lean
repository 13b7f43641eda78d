import InferenceRouting.Proofs.Breaker.Gauge
import InferenceRouting.Proofs.Cluster.Addresses

/-!
# What shares a breaker

A breaker guards a whole node, or one model on one node (`Guarded`).  The registry knows it by its
key, and over a whole run a breaker is found under one key alone (`BreakerSession.key_eq_of_leads`).
So a breaker is shared exactly by what has the same key.

The keys of nodes are distinct, and none is the key of a model.  The key of a model spells the model
and the node with a colon between them, and both may have colons of their own: the same text can be
the end of the one or the beginning of the other (`Guarded.RunsInto`).  `breaker_shared_iff` says
that a breaker is shared in this way and in no other.  It is not shared among nodes whose ids have
equally many colons, such as those that go by the address of a host without colons
(`Guarded.modelKey_addressId_eq_iff`).
-/

namespace InferenceRouting

open Cluster (Node)

/-- What a breaker guards. -/
inductive Guarded where
  | node (id : String)
  | model (model nodeId : String)
  deriving DecidableEq, Repr

namespace Guarded

variable {e e' : Guarded} {model model' nodeId nodeId' host host' : String} {port port' : Nat}

/-- The key of the breaker. -/
def key : Guarded → String
  | .node id => nodeKey id
  | .model model nodeId => modelKey model nodeId

/-- The second model goes on where the first one ends, with a colon and the text by which the first
node begins. -/
def RunsInto : Guarded → Guarded → Prop
  | .model model nodeId, .model model' nodeId' =>
    ∃ part, model' = model ++ ":" ++ part ∧ nodeId = part ++ ":" ++ nodeId'
  | _, _ => False

/-! ### Keys -/

theorem nodeKey_injective : Function.Injective nodeKey := by
  intro id id' h
  have hchars : "node:".toList ++ id.toList = "node:".toList ++ id'.toList := by
    simpa [nodeKey] using congrArg String.toList h
  exact String.toList_inj.mp (List.append_cancel_left hchars)

theorem toList_modelKey (model nodeId : String) :
    (modelKey model nodeId).toList =
      "model:".toList ++ (model.toList ++ ':' :: nodeId.toList) := by
  simp [modelKey]

/-- The keys begin with different letters. -/
theorem nodeKey_ne_modelKey (id model nodeId : String) : nodeKey id ≠ modelKey model nodeId := by
  intro h
  have hfirst : (nodeKey id).toList.head? = (modelKey model nodeId).toList.head? := by rw [h]
  simp [nodeKey, modelKey] at hfirst

/-- Two texts around a mark make the same whole if they are the same, or if the one mark stands in
the text before the other. -/
theorem append_cons_eq_iff {x : Char} {l l' r r' : List Char} :
    l ++ x :: r = l' ++ x :: r' ↔
      (l = l' ∧ r = r') ∨ (∃ part, l' = l ++ x :: part ∧ r = part ++ x :: r') ∨
        ∃ part, l = l' ++ x :: part ∧ r' = part ++ x :: r := by
  constructor
  · intro h
    rcases List.append_eq_append_iff.mp h with ⟨rest, hl, hr⟩ | ⟨rest, hl, hr⟩
    · cases rest with
      | nil => exact .inl ⟨by simpa using hl.symm, by simpa using hr⟩
      | cons y part =>
          obtain ⟨hxy, hpart⟩ := List.cons.inj hr
          exact .inr (.inl ⟨part, hxy ▸ hl, hpart⟩)
    · cases rest with
      | nil => exact .inl ⟨by simpa using hl, by simpa using hr.symm⟩
      | cons y part =>
          obtain ⟨hxy, hpart⟩ := List.cons.inj hr
          exact .inr (.inr ⟨part, hxy ▸ hl, hpart⟩)
  · rintro (⟨rfl, rfl⟩ | ⟨part, rfl, rfl⟩ | ⟨part, rfl, rfl⟩)
    · rfl
    · simp
    · simp

/-- What it means in characters that one runs into the other. -/
theorem runsInto_iff : (Guarded.model model nodeId).RunsInto (.model model' nodeId') ↔
    ∃ part, model'.toList = model.toList ++ ':' :: part ∧
      nodeId.toList = part ++ ':' :: nodeId'.toList := by
  constructor
  · rintro ⟨part, rfl, rfl⟩
    exact ⟨part.toList, by simp, by simp⟩
  · rintro ⟨part, hmodel, hnode⟩
    refine ⟨String.ofList part, String.toList_inj.mp ?_, String.toList_inj.mp ?_⟩
    · simpa using hmodel
    · simpa using hnode

theorem modelKey_eq_iff : modelKey model nodeId = modelKey model' nodeId' ↔
    (model = model' ∧ nodeId = nodeId') ∨
      (Guarded.model model nodeId).RunsInto (.model model' nodeId') ∨
      (Guarded.model model' nodeId').RunsInto (.model model nodeId) := by
  rw [← String.toList_inj, toList_modelKey, toList_modelKey, List.append_cancel_left_eq,
    append_cons_eq_iff, String.toList_inj, String.toList_inj, runsInto_iff, runsInto_iff]

/-- **Keys.**  They are the same for the same, or if one runs into the other. -/
theorem key_eq_iff : e.key = e'.key ↔ e = e' ∨ e.RunsInto e' ∨ e'.RunsInto e := by
  cases e with
  | node id =>
      cases e' with
      | node id' => simp [key, RunsInto, nodeKey_injective.eq_iff]
      | model model' nodeId' => simp [key, RunsInto, nodeKey_ne_modelKey]
  | model model nodeId =>
      cases e' with
      | node id' => simp [key, RunsInto, (nodeKey_ne_modelKey id' model nodeId).symm]
      | model model' nodeId' => simp only [key, modelKey_eq_iff, Guarded.model.injEq]

/-! ### Nodes that cannot be mistaken -/

/-- Whose node has as many colons as the other's runs into nothing. -/
theorem not_runsInto_of_count (h : nodeId.toList.count ':' ≤ nodeId'.toList.count ':') :
    ¬(Guarded.model model nodeId).RunsInto (.model model' nodeId') := by
  intro hruns
  obtain ⟨part, -, hnode⟩ := runsInto_iff.mp hruns
  rw [hnode, List.count_append, List.count_cons_self] at h
  omega

/-- Among nodes whose ids have equally many colons every model has a key of its own on each. -/
theorem modelKey_eq_iff_of_count (h : nodeId.toList.count ':' = nodeId'.toList.count ':') :
    modelKey model nodeId = modelKey model' nodeId' ↔ model = model' ∧ nodeId = nodeId' := by
  rw [modelKey_eq_iff]
  refine or_iff_left ?_
  rintro (hruns | hruns)
  · exact not_runsInto_of_count (Nat.le_of_eq h) hruns
  · exact not_runsInto_of_count (Nat.le_of_eq h.symm) hruns

/-- **Nodes by address.**  Nodes that go by the addresses of hosts without colons are not
mistaken. -/
theorem modelKey_addressId_eq_iff (hhost : ':' ∉ host.toList) (hhost' : ':' ∉ host'.toList) :
    modelKey model (Node.addressId host port) = modelKey model' (Node.addressId host' port') ↔
      model = model' ∧ Node.addressId host port = Node.addressId host' port' := by
  have hone (host : String) (port : Nat) (h : ':' ∉ host.toList) :
      (Node.addressId host port).toList.count ':' = 1 := by
    rw [Cluster.toList_addressId, List.count_append, List.count_cons_self,
      List.count_eq_zero_of_not_mem h,
      List.count_eq_zero_of_not_mem (Cluster.colon_notMem_digits port)]
  exact modelKey_eq_iff_of_count (by rw [hone host port hhost, hone host' port' hhost'])

end Guarded

namespace BreakerSession

variable {s : BreakerSession} {e : Event} {k k' name : String} {i : Nat} {events : List Event}

/-! ### The key of a breaker -/

/-- **Step theorem.**  The number of a breaker is not given to another one. -/
theorem nameOf?_happen_of_lt (h : s.registry.WellFormed) (hi : i < s.registry.nextId) (e : Event) :
    i < (s.happen e).1.registry.nextId ∧
      ∀ name, (s.happen e).1.registry.nameOf? i = some name → s.registry.nameOf? i = some name := by
  obtain ⟨P, htells⟩ := happen_tells h "" e
  have hdrops := happen_drops s e
  refine ⟨?_, fun name hname => ?_⟩
  · rw [hdrops.nextId]
    exact Nat.lt_of_lt_of_le hi htells.nextId
  · have hbefore := (hdrops.of_nameOf? (undropped_wellFormed h e) hname).1
    exact (htells.fresh i name hbefore).resolve_right (Nat.not_le.mpr hi)

/-- **Run theorem.**  The number of a breaker is not given to another one. -/
theorem nameOf?_run_of_lt (h : s.registry.WellFormed) (hi : i < s.registry.nextId)
    (hname : (s.run events).registry.nameOf? i = some name) : s.registry.nameOf? i = some name := by
  induction events generalizing s with
  | nil => exact hname
  | cons e rest ih =>
      obtain ⟨hnext, hback⟩ := nameOf?_happen_of_lt h hi e
      exact hback name (ih (happen_settles h e).wellFormed hnext hname)

/-- A breaker is found under one key, then and later. -/
theorem key_eq_of_leads (h : s.registry.WellFormed) (hlead : s.registry.Leads k i)
    (hlater : (s.run events).registry.Leads k' i) : k = k' := by
  have hname := h.nameOf?_of_leads hlead
  have hname' := (run_config h k events).1.nameOf?_of_leads hlater
  exact Option.some.inj (hname.symm.trans (nameOf?_run_of_lt h (h.lt_nextId hname) hname'))

/-- **Shared breakers.**  Nodes have different keys, no key is both of a node and of a model, and two
models on two nodes have the same key if they are the same or if one runs into the other.  A breaker
is found by the key of the one, and then or later by the key of the other, in no run but if the two
are the same or one runs into the other. -/
theorem breaker_shared_iff (config : BreakerConfig) (timersEnabled : Bool) :
    Function.Injective nodeKey ∧
    (∀ id model nodeId, nodeKey id ≠ modelKey model nodeId) ∧
    (∀ model nodeId model' nodeId', modelKey model nodeId = modelKey model' nodeId' ↔
      (model = model' ∧ nodeId = nodeId') ∨
        (Guarded.model model nodeId).RunsInto (.model model' nodeId') ∨
        (Guarded.model model' nodeId').RunsInto (.model model nodeId)) ∧
    ∀ e e' : Guarded,
      (∃ events later i, let s := (opened config timersEnabled).run events
        s.registry.Leads e.key i ∧ (s.run later).registry.Leads e'.key i) ↔
      e = e' ∨ e.RunsInto e' ∨ e'.RunsInto e := by
  refine ⟨Guarded.nodeKey_injective, Guarded.nodeKey_ne_modelKey,
    fun _ _ _ _ => Guarded.modelKey_eq_iff, fun e e' => ?_⟩
  have hopened : (opened config timersEnabled).registry.WellFormed :=
    (Registry.Reachable.new config timersEnabled).wellFormed
  rw [← Guarded.key_eq_iff]
  constructor
  · rintro ⟨events, later, i, hlead, hlater⟩
    exact key_eq_of_leads (run_config hopened "" events).1 hlead hlater
  · intro hkey
    -- the first use of the key makes a breaker, to which both keys lead
    have hlead := Registry.getOrCreate_leads (opened config timersEnabled).registry e.key none
    exact ⟨[.step (.create e.key none)], [], _, hlead, hkey ▸ hlead⟩

/-- A model on one node and another one on another node have the same key, so that the breaker of
the second is opened with that of the first. -/
theorem tagged_model_mistaken :
    let s := (opened {} true).run [.step (.trip (modelKey "llama3:8b" "gpu-1"))]
    ("llama3:8b", "gpu-1") ≠ ("llama3", "8b:gpu-1") ∧
      modelKey "llama3:8b" "gpu-1" = modelKey "llama3" "8b:gpu-1" ∧
      (s.registry.find? (modelKey "llama3" "8b:gpu-1")).map (·.breaker.state) = some .open := by
  decide

end BreakerSession

end InferenceRouting
