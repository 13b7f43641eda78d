import InferenceRouting.Cluster.Run
import InferenceRouting.Proofs.Keyed

/-!
# The records of the nodes

A tracker keeps one record for each id (`Tracker.WellFormed`).  An event acts on every record by
itself: what becomes of the record of an id is told by the event, its time and that record alone
(`recordAfter`), whatever else the tracker knows.  `node?_step` is this law; everything that is said
of the events of a tracker is read off it.

What a message publishes is told in two parts by `events_handle`: first that its sender came online,
then the models that have become available.
-/

namespace InferenceRouting.Cluster

namespace Tracker

/-- What a message makes of the record of its sender. -/
def heard (now : Nat) (m : Message) : Option Node → Option Node
  | some n => some (updated now m m.nodePayload n)
  | none => if m.kind = .status then none else some (discovered now m m.nodePayload)

/-- What registering a node by its address makes of the record under that address. -/
def registered (now : Nat) (host : String) (port : Nat) (name : Option String)
    (models : List String) : Option Node → Option Node
  | some n => some n
  | none => some { Node.new now (Node.addressId host port) host port name with
      models := .ofList models }

/-- The ids of the nodes are distinct. -/
def WellFormed (t : Tracker) : Prop :=
  (t.nodes.map Node.id).Nodup

end Tracker

/-- What an event makes of the record of an id. -/
def TrackerEvent.recordAfter (config : MembershipConfig) (now : Nat) (id : String)
    (record : Option Node) : TrackerEvent → Option Node
  | .message m => if m.nodeId = id then Tracker.heard now m record else record
  | .add host port name =>
    if Node.addressId host port = id then Tracker.registered now host port name [] record
    else record
  | .addStatic n =>
    if Node.addressId n.host n.port = id then
      Tracker.registered now n.host n.port n.name n.models record
    else record
  | .remove other => if other = id then none else record
  | .sweep => record.map ((Tracker.new config).sweptNode now)

namespace Tracker

variable {t u : Tracker} {n : Node} {id : String} {now : Nat}

/-- A record that is found has the id by which it was sought. -/
theorem of_node? (h : t.node? id = some n) : n ∈ t.nodes ∧ n.id = id :=
  Keyed.of_find?_eq_some h

/-- Every record is found by its id. -/
theorem WellFormed.node?_eq (h : t.WellFormed) (hn : n ∈ t.nodes) : t.node? n.id = some n := by
  obtain ⟨pre, post, hsplit, hne⟩ := Keyed.exists_split h hn
  unfold node?
  rw [hsplit]
  exact Keyed.find?_eq hne

/-- The records are those that are found by their ids. -/
theorem WellFormed.mem_nodes_iff (h : t.WellFormed) : n ∈ t.nodes ↔ t.node? n.id = some n :=
  ⟨h.node?_eq, fun hfound => (of_node? hfound).1⟩

/-- No record occurs twice. -/
theorem WellFormed.nodup_nodes (h : t.WellFormed) : t.nodes.Nodup :=
  (List.pairwise_map.mp h).imp fun hne heq => hne (congrArg Node.id heq)

/-- No record has an id that is not found. -/
theorem notMem_of_node?_eq_none (h : t.node? id = none) : id ∉ t.nodes.map Node.id := by
  intro hmem
  obtain ⟨n, hn, hid⟩ := List.mem_map.mp hmem
  have hother := List.find?_eq_none.mp h n hn
  exact hother (by simpa using hid)

/-- What is found depends on the records alone. -/
theorem node?_congr (h : u.nodes = t.nodes) : u.node? id = t.node? id := by
  unfold node?
  rw [h]

/-! ## One record is changed -/

/-- Changing records without changing ids changes what is found, and nothing else. -/
theorem find?_map_of_id {g : Node → Node} (hg : ∀ n, (g n).id = n.id) (nodes : List Node)
    (id : String) :
    (nodes.map g).find? (·.id == id) = (nodes.find? (·.id == id)).map g := by
  rw [List.find?_map]
  congr 2
  funext n
  exact congrArg (· == id) (hg n)

/-- A record that is replaced is found in its new form, if it was there. -/
theorem node?_setNode (t : Tracker) (n : Node) (id : String) :
    (t.setNode n).node? id = if n.id = id then (t.node? id).map fun _ => n else t.node? id := by
  have hid : ∀ m : Node, (if m.id = n.id then n else m).id = m.id := by
    intro m
    by_cases h : m.id = n.id
    · rw [if_pos h, h]
    · rw [if_neg h]
  have hfound : (t.setNode n).node? id =
      (t.node? id).map fun m => if m.id = n.id then n else m := find?_map_of_id hid t.nodes id
  rw [hfound]
  cases hold : t.node? id with
  | none => simp
  | some m =>
      obtain ⟨-, rfl⟩ := of_node? hold
      by_cases h : n.id = m.id
      · simp [h]
      · simp [h, Ne.symm h]

/-- A record that is added is found, unless there was one with its id. -/
theorem node?_addRecord (t : Tracker) (n : Node) (id : String) :
    (t.addRecord n).node? id = (t.node? id).or (if n.id = id then some n else none) := by
  unfold node? addRecord
  rw [List.find?_append]
  by_cases h : n.id = id
  · simp [h]
  · have hne : (n.id == id) = false := beq_false_of_ne h
    simp [h, hne]

/-- Replacing a record gives no id twice. -/
theorem WellFormed.setNode (h : t.WellFormed) (n : Node) : (t.setNode n).WellFormed := by
  have hids : (t.setNode n).nodes.map Node.id = t.nodes.map Node.id := by
    simp only [Tracker.setNode, List.map_map]
    refine List.map_congr_left fun m _ => ?_
    by_cases hm : m.id = n.id
    · simp [hm]
    · simp [hm]
  unfold WellFormed
  rw [hids]
  exact h

/-- A node that is not known can be added. -/
theorem WellFormed.addRecord (h : t.WellFormed) (hn : t.node? n.id = none) :
    (t.addRecord n).WellFormed := by
  unfold WellFormed Tracker.addRecord
  simp only [List.map_append, List.map_cons, List.map_nil]
  refine List.nodup_append.mpr ⟨h, by simp, ?_⟩
  intro id hid other hother
  obtain rfl := List.mem_singleton.mp hother
  intro heq
  exact notMem_of_node?_eq_none hn (heq ▸ hid)

/-! ## Messages -/

/-- Whether there is a record of an online node. -/
def shows (record : Option Node) : Bool :=
  record.any Node.isOnline

/-- The records after a message. -/
theorem nodes_handle (t : Tracker) (now : Nat) (m : Message) :
    (t.handle now m).1.nodes = match t.node? m.nodeId with
      | some n => (t.setNode (updated now m m.nodePayload n)).nodes
      | none =>
        if m.kind = .status then t.nodes
        else (t.addRecord (discovered now m m.nodePayload)).nodes := by
  unfold handle
  dsimp only
  cases t.node? m.nodeId with
  | some n =>
      dsimp only
      split <;> rfl
  | none =>
      dsimp only
      by_cases hkind : m.kind = .status
      · simp [hkind]
      · simp only [hkind, if_false]
        rfl

/-- Nothing is new that was there before. -/
theorem newlyAvailable_self (models : ModelSet) : newlyAvailable models models = [] := by
  unfold newlyAvailable
  have hnone : models.filter (fun m => !models.contains m) = [] :=
    List.filter_eq_nil_iff.mpr fun m hm => by simpa using hm
  rw [hnone, List.map_nil]

theorem onlineModels_congr (h : u.nodes = t.nodes) : u.onlineModels = t.onlineModels := by
  unfold onlineModels
  rw [h]

/-- **What a message publishes.**  First that its sender came online, if it did, and then the models
that have become available. -/
theorem events_handle (t : Tracker) (now : Nat) (m : Message) :
    (t.handle now m).2 =
      (if shows (heard now m (t.node? m.nodeId)) && !shows (t.node? m.nodeId)
        then [.nodeOnline m.nodeId] else []) ++
        newlyAvailable t.onlineModels (t.handle now m).1.onlineModels := by
  have hnodes := nodes_handle t now m
  unfold handle at hnodes ⊢
  dsimp only at hnodes ⊢
  cases hold : t.node? m.nodeId with
  | some n =>
      obtain ⟨-, hid⟩ := of_node? hold
      simp only [hold, hid] at hnodes ⊢
      rw [onlineModels_congr hnodes]
      rfl
  | none =>
      by_cases hkind : m.kind = .status
      · simp [hkind, heard, shows, newlyAvailable_self]
      · simp only [hold, hkind, if_false] at hnodes ⊢
        rw [onlineModels_congr hnodes]
        simp [heard, shows, hkind, discovered, Node.isOnline]

/-- A message is about the record of its sender, and no other. -/
theorem node?_handle (t : Tracker) (now : Nat) (m : Message) (id : String) :
    (t.handle now m).1.node? id =
      if m.nodeId = id then heard now m (t.node? id) else t.node? id := by
  have hnodes := nodes_handle t now m
  cases hold : t.node? m.nodeId with
  | some n =>
      obtain ⟨-, hid⟩ := of_node? hold
      simp only [hold] at hnodes
      rw [node?_congr hnodes, node?_setNode]
      have hsame : (updated now m m.nodePayload n).id = m.nodeId := hid
      rw [hsame]
      by_cases h : m.nodeId = id
      · subst h
        rw [if_pos rfl, if_pos rfl, hold]
        rfl
      · rw [if_neg h, if_neg h]
  | none =>
      simp only [hold] at hnodes
      by_cases hkind : m.kind = .status
      · rw [if_pos hkind] at hnodes
        rw [node?_congr hnodes]
        by_cases h : m.nodeId = id
        · subst h
          rw [if_pos rfl, hold]
          simp [heard, hkind]
        · rw [if_neg h]
      · rw [if_neg hkind] at hnodes
        rw [node?_congr hnodes, node?_addRecord]
        have hsame : (discovered now m m.nodePayload).id = m.nodeId := rfl
        rw [hsame]
        by_cases h : m.nodeId = id
        · subst h
          rw [if_pos rfl, if_pos rfl, hold]
          simp [heard, hkind]
        · rw [if_neg h, if_neg h, Option.or_none]

theorem WellFormed.handle (h : t.WellFormed) (now : Nat) (m : Message) :
    (t.handle now m).1.WellFormed := by
  have hnodes := nodes_handle t now m
  unfold WellFormed
  rw [hnodes]
  cases hold : t.node? m.nodeId with
  | some n => exact h.setNode _
  | none =>
      dsimp only
      by_cases hkind : m.kind = .status
      · rw [if_pos hkind]
        exact h
      · rw [if_neg hkind]
        exact h.addRecord (n := discovered now m m.nodePayload) hold

/-! ## Nodes that are added and removed -/

/-- A node that is registered by its address is found under it. -/
theorem node?_add (t : Tracker) (now : Nat) (host : String) (port : Nat) (name : Option String)
    (models : List String) (id : String) :
    (t.add now host port name models).1.node? id =
      if Node.addressId host port = id then registered now host port name models (t.node? id)
      else t.node? id := by
  unfold add
  dsimp only
  by_cases h : Node.addressId host port = id
  · rw [if_pos h]
    subst h
    cases hold : t.node? (Node.addressId host port) with
    | some n => simpa [registered] using hold
    | none =>
        dsimp only
        rw [node?_addRecord, hold]
        simp [registered, Node.new]
  · rw [if_neg h]
    cases t.node? (Node.addressId host port) with
    | some n => rfl
    | none =>
        dsimp only
        rw [node?_addRecord]
        simp [Node.new, h]

theorem WellFormed.add (h : t.WellFormed) (now : Nat) (host : String) (port : Nat)
    (name : Option String) (models : List String) :
    (t.add now host port name models).1.WellFormed := by
  unfold Tracker.add
  dsimp only
  split
  · exact h
  · rename_i hnone
    exact h.addRecord hnone

/-- A node that is removed is not found, and the others are. -/
theorem node?_remove (t : Tracker) (other id : String) :
    (t.remove other).1.node? id = if other = id then none else t.node? id := by
  unfold remove
  by_cases h : other = id
  · rw [if_pos h]
    subst h
    cases hold : t.node? other with
    | some n => exact Keyed.find?_filter_self other t.nodes
    | none => exact hold
  · rw [if_neg h]
    cases t.node? other with
    | some n => exact Keyed.find?_filter_of_ne (Ne.symm h) t.nodes
    | none => rfl

theorem WellFormed.remove (h : t.WellFormed) (id : String) : (t.remove id).1.WellFormed := by
  unfold Tracker.remove
  split
  · exact (List.filter_sublist.map _).nodup h
  · exact h

/-! ## Sweeps -/

/-- The meters are no part of the records. -/
theorem nodes_sweep (t : Tracker) (now : Nat) :
    (t.sweep now).1.nodes = t.nodes.map (t.sweptNode now) := by
  simp only [sweep, recordOffline]
  split <;> rfl

theorem id_sweptNode (t : Tracker) (now : Nat) (n : Node) : (t.sweptNode now n).id = n.id := by
  unfold sweptNode
  split <;> rfl

/-- A sweep looks at each record by itself. -/
theorem node?_sweep (t : Tracker) (now : Nat) (id : String) :
    (t.sweep now).1.node? id = (t.node? id).map (t.sweptNode now) := by
  unfold node?
  rw [nodes_sweep]
  exact find?_map_of_id (id_sweptNode t now) t.nodes id

theorem WellFormed.sweep (h : t.WellFormed) (now : Nat) : (t.sweep now).1.WellFormed := by
  have hids : (t.sweep now).1.nodes.map Node.id = t.nodes.map Node.id := by
    rw [nodes_sweep, List.map_map]
    exact List.map_congr_left fun n _ => id_sweptNode t now n
  unfold WellFormed
  rw [hids]
  exact h

/-! ## Events and runs -/

/-- **What an event does.**  It acts on every record by itself. -/
theorem node?_step (t : Tracker) (now : Nat) (e : TrackerEvent) (id : String) :
    (t.step now e).1.node? id = e.recordAfter t.config now id (t.node? id) := by
  cases e with
  | message m => exact t.node?_handle now m id
  | add host port name => exact t.node?_add now host port name [] id
  | addStatic n => exact t.node?_add now n.host n.port n.name n.models id
  | remove other => exact t.node?_remove other id
  | sweep => exact t.node?_sweep now id

/-- No event changes how the tracker is tuned. -/
theorem config_step (t : Tracker) (now : Nat) (e : TrackerEvent) :
    (t.step now e).1.config = t.config := by
  cases e with
  | message m =>
      simp only [step, handle]
      cases t.node? m.nodeId with
      | some n =>
          dsimp only
          split <;> rfl
      | none =>
          dsimp only
          by_cases hkind : m.kind = .status
          · rw [if_pos hkind]
          · rw [if_neg hkind]
            rfl
  | add host port name =>
      simp only [step, add]
      split <;> rfl
  | addStatic n =>
      simp only [step, addStatic, add]
      split <;> rfl
  | remove id =>
      simp only [step, remove]
      split <;> rfl
  | sweep =>
      simp only [step, sweep, recordOffline]
      split <;> rfl

/-- **Step theorem.**  No event gives an id twice. -/
theorem WellFormed.step (h : t.WellFormed) (now : Nat) (e : TrackerEvent) :
    (t.step now e).1.WellFormed := by
  cases e with
  | message m => exact h.handle now m
  | add host port name => exact h.add now host port name []
  | addStatic n => exact h.add now n.host n.port n.name n.models
  | remove id => exact h.remove id
  | sweep => exact h.sweep now

/-- What every event of a run keeps, the run keeps. -/
theorem run_induction {motive : Tracker → Prop} {events : List (Nat × TrackerEvent)}
    (hstep : ∀ t, ∀ e ∈ events, motive t → motive (t.step e.1 e.2).1) (h : motive t) :
    motive (t.run events) := by
  induction events generalizing t with
  | nil => exact h
  | cons e rest ih =>
      have hfirst := hstep t e List.mem_cons_self h
      exact ih (fun u later hlater => hstep u later (List.mem_cons_of_mem _ hlater)) hfirst

/-- One run after another. -/
theorem run_append (t : Tracker) (events more : List (Nat × TrackerEvent)) :
    t.run (events ++ more) = (t.run events).run more :=
  List.foldl_append

/-- A run keeps the configuration. -/
theorem config_run (t : Tracker) (events : List (Nat × TrackerEvent)) :
    (t.run events).config = t.config :=
  run_induction (motive := fun u => u.config = t.config)
    (fun u e _ h => (u.config_step e.1 e.2).trans h) rfl

/-- Whatever happens to a tracker, its ids stay distinct. -/
theorem WellFormed.run (h : t.WellFormed) (events : List (Nat × TrackerEvent)) :
    (t.run events).WellFormed :=
  run_induction (fun _ e _ h => h.step e.1 e.2) h

theorem wellFormed_new (config : MembershipConfig) : (Tracker.new config).WellFormed :=
  List.nodup_nil

end Tracker

end InferenceRouting.Cluster
